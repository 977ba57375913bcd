import Rejoin.Proofs.Json.Scalar
import Rejoin.Proofs.Repair.Search
import Rejoin.Proofs.Stitch.Pieces

/-!
Stitching a document that came in pieces. The stitched text differs from the document only by single
spaces at some of the seams, so if all of these lie between tokens the document is restored: the
text has the same tokens, it is a document, and its repair leaves it as it is.
-/

namespace Rejoin.Stitch

open Json

variable {ps parts : List (List Char)} {t : List Char}

/-- Whether some pieces of a text are put together to larger parts: the parts make up the same text,
    and each of their seams is one of the pieces. -/
structure Merges (parts ps : List (List Char)) : Prop where
  flatten : parts.flatten = ps.flatten
  seams : ∀ before, before <+: parts → ∃ before', before' <+: ps ∧ before'.flatten = before.flatten

namespace Merges

theorem isCutBetweenTokens (hmerges : Merges parts ps) (hcut : IsCutBetweenTokens ps) :
    IsCutBetweenTokens parts := by
  intro before hbefore
  obtain ⟨before', hbefore', hflatten⟩ := hmerges.seams before hbefore
  rw [hmerges.flatten, ← hflatten]
  exact hcut before' hbefore'

theorem refl (ps : List (List Char)) : Merges ps ps :=
  ⟨rfl, fun before hbefore => ⟨before, hbefore, rfl⟩⟩

theorem cons (hmerges : Merges parts ps) (p : List Char) : Merges (p :: parts) (p :: ps) := by
  refine ⟨by rw [List.flatten_cons, List.flatten_cons, hmerges.flatten], fun before hbefore => ?_⟩
  obtain rfl | ⟨before, rfl, hrest⟩ := List.prefix_cons_iff.1 hbefore
  · exact ⟨[], List.nil_prefix, rfl⟩
  · obtain ⟨before', hbefore', hflatten⟩ := hmerges.seams before hrest
    refine ⟨p :: before', List.cons_prefix_cons.2 ⟨rfl, hbefore'⟩, ?_⟩
    rw [List.flatten_cons, List.flatten_cons, hflatten]

/-- The first part may take in one more piece before it. -/
theorem cons_append {q : List Char} (hmerges : Merges (q :: parts) ps) (p : List Char) :
    Merges ((p ++ q) :: parts) (p :: ps) := by
  have hcons := hmerges.cons p
  refine ⟨by rw [← hcons.flatten]; simp, fun before hbefore => ?_⟩
  obtain rfl | ⟨before, rfl, hrest⟩ := List.prefix_cons_iff.1 hbefore
  · exact ⟨[], List.nil_prefix, rfl⟩
  · obtain ⟨before', hbefore', hflatten⟩ := hcons.seams (p :: q :: before)
      (List.cons_prefix_cons.2 ⟨rfl, List.cons_prefix_cons.2 ⟨rfl, hrest⟩⟩)
    exact ⟨before', hbefore', by rw [hflatten]; simp⟩

/-- Empty pieces make no difference. -/
theorem pieces (fragments : List (Option (List Char))) :
    Merges (pieces fragments) (fragments.filterMap id) := by
  refine ⟨List.flatten_filter_not_isEmpty, fun before hbefore => ?_⟩
  obtain ⟨before', hbefore', rfl⟩ := List.prefix_filter_iff.1 hbefore
  exact ⟨before', hbefore', List.flatten_filter_not_isEmpty.symm⟩

theorem trans {qs : List (List Char)} (hmerges : Merges parts qs) (hqs : Merges qs ps) :
    Merges parts ps := by
  refine ⟨hmerges.flatten.trans hqs.flatten, fun before hbefore => ?_⟩
  obtain ⟨middle, hmiddle, hflatten⟩ := hmerges.seams before hbefore
  obtain ⟨before', hbefore', hflatten'⟩ := hqs.seams middle hmiddle
  exact ⟨before', hbefore', hflatten'.trans hflatten⟩

theorem exists_eq_cons {p : List Char} (hmerges : Merges parts (p :: ps)) (hne : p ≠ []) :
    ∃ q others, parts = q :: others := by
  cases parts with
  | nil => exact absurd (List.append_eq_nil_iff.1 hmerges.flatten.symm).1 hne
  | cons q others => exact ⟨q, others, rfl⟩

end Merges

/-- A stitched text consists of parts with one space between any two, and the parts are pieces put
    together. -/
theorem Stitched.exists_merges (ht : Stitched ps t) (hne : ∀ p ∈ ps, p ≠ []) :
    ∃ parts, Merges parts ps ∧ (∀ q ∈ parts, q ≠ []) ∧ t = [' '].intercalate parts := by
  induction ht with
  | none => exact ⟨[], .refl [], hne, rfl⟩
  | one p => exact ⟨[p], .refl [p], hne, List.intercalate_singleton.symm⟩
  | @spaced p q t rest _ _ ih =>
    rw [List.forall_mem_cons] at hne
    obtain ⟨parts, hmerges, hparts, rfl⟩ := ih hne.2
    obtain ⟨q', others, rfl⟩ := hmerges.exists_eq_cons (hne.2 q List.mem_cons_self)
    refine ⟨p :: q' :: others, hmerges.cons p, List.forall_mem_cons.2 ⟨hne.1, hparts⟩, ?_⟩
    rw [List.intercalate_cons_cons, List.append_assoc]
    rfl
  | @adjoined p q t rest _ _ ih =>
    rw [List.forall_mem_cons] at hne
    obtain ⟨parts, hmerges, hparts, rfl⟩ := ih hne.2
    obtain ⟨q', others, rfl⟩ := hmerges.exists_eq_cons (hne.2 q List.mem_cons_self)
    rw [List.forall_mem_cons] at hparts
    refine ⟨(p ++ q') :: others, hmerges.cons_append p, List.forall_mem_cons.2 ⟨?_, hparts.2⟩, ?_⟩
    · simp [hne.1]
    · cases others <;> simp

/-- A document that is cut between its tokens is restored by stitching, whatever the number of its
fragments and however many of them are empty or missing: the text is a document with the same
tokens, each of which is a character of punctuation, a string, or a number or a name; it consists of
parts of the document, cut between tokens, with one space between any two; and its repair leaves it
as it is. -/
theorem combine_restores_document [Limits] {fragments : List (Option (List Char))}
    (hvalid : isValid t = true) (hfragments : (fragments.filterMap id).flatten = t)
    (hcut : IsCutBetweenTokens (fragments.filterMap id)) :
    isValid (combine fragments) = true ∧ tokens (combine fragments) = tokens t ∧
      (∀ k ∈ tokens t, IsToken k) ∧
      (∃ parts, IsCutBetweenTokens parts ∧ (∀ q ∈ parts, q ≠ []) ∧ parts.flatten = t ∧
        combine fragments = [' '].intercalate parts) ∧
      Repair.json (some (combine fragments)) = .notNeeded (combine fragments) := by
  have hne : ∀ p ∈ pieces fragments, p ≠ [] := fun p => ne_nil_of_mem_pieces
  obtain ⟨parts, hmerges, hparts, htext⟩ := (stitched_combine fragments).exists_merges hne
  have hall := hmerges.trans (.pieces fragments)
  have hseams := hall.isCutBetweenTokens hcut
  obtain rfl : parts.flatten = t := hall.flatten.trans hfragments
  obtain ⟨hdocument, htokens⟩ := isValid_and_tokens_intercalate hparts hseams hvalid
  rw [← htext] at hdocument htokens
  exact ⟨hdocument, htokens, fun k hk => isToken_of_mem_tokens hvalid hk,
    ⟨parts, hseams, hparts, rfl, htext⟩, Repair.json_of_isValid hdocument⟩

/-- An object that is cut behind a number, behind a name, in a blank and before a closer. -/
theorem combine_restores_document_of_object :
    let fragments := [some ['{', '"', 'a', ' ', '1', '"', ':'], some [' ', '[', '-', '1', '2'],
      none, some [',', 't', 'r', 'u', 'e'], some [], some [',', '0'], some [' '],
      some [' ', ']', '}']]
    let t := ['{', '"', 'a', ' ', '1', '"', ':', ' ', '[', '-', '1', '2', ',', 't', 'r', 'u', 'e',
      ',', '0', ' ', ' ', ']', '}']
    isValid t = true ∧ (fragments.filterMap id).flatten = t ∧
      IsCutBetweenTokens (fragments.filterMap id) ∧
      combine fragments = ['{', '"', 'a', ' ', '1', '"', ':', ' ', '[', '-', '1', '2', ' ', ',',
        't', 'r', 'u', 'e', ' ', ',', '0', ' ', ' ', ']', '}'] ∧
      tokens (combine fragments) = [['{'], ['"', 'a', ' ', '1', '"'], [':'], ['['], ['-', '1', '2'],
        [','], ['t', 'r', 'u', 'e'], [','], ['0'], [']'], ['}']] ∧
      Repair.json (some (combine fragments)) = .notNeeded (combine fragments) := by
  intro fragments t
  have hvalid : isValid t = true := by decide
  have hfragments : (fragments.filterMap id).flatten = t := by decide
  have hcut : IsCutBetweenTokens (fragments.filterMap id) := by decide
  obtain ⟨_, htokens, _, _, hrepair⟩ := combine_restores_document hvalid hfragments hcut
  refine ⟨hvalid, hfragments, hcut, by decide, ?_, hrepair⟩
  rw [htokens]
  decide

end Rejoin.Stitch
