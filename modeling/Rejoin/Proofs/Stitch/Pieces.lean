import Rejoin.Stitch

/-!
The pieces that a stitched text is made of. Joining looks only at the two characters beside a seam,
so it is associative, and fragments can be stitched in any grouping. The text is then the fragments
that are not empty, in order, with nothing or one space between each two neighbours.
-/

namespace Rejoin.Stitch

open Text

variable {fragments : List (List Char)} {a b c f p q : List Char}

section Join

theorem head?_join (hne : a ≠ []) (b : List Char) : (join a b).head? = a.head? := by
  obtain ⟨c, rest, rfl⟩ := List.exists_cons_of_ne_nil hne
  rfl

theorem getLast?_join (hne : b ≠ []) (a : List Char) : (join a b).getLast? = b.getLast? := by
  rw [join, List.getLast?_append, List.getLast?_eq_some_getLast hne, Option.some_or]

/-- What stands before a seam, and what stands behind it, count by one character each. -/
theorem gap_congr {a' b' : List Char} (hlast : a'.getLast? = a.getLast?)
    (hfirst : b'.head? = b.head?) : gap a' b' = gap a b := by
  rw [gap, gap, hlast, hfirst]

theorem join_assoc (a b c : List Char) : join (join a b) c = join a (join b c) := by
  by_cases hb : b = []
  · simp [hb]
  have hright : gap (join a b) c = gap b c := gap_congr (getLast?_join hb a) rfl
  have hleft : gap a (join b c) = gap a b := gap_congr rfl (head?_join hb c)
  calc join (join a b) c = join a b ++ gap b c ++ c := by rw [join.eq_def (join a b), hright]
    _ = a ++ gap a b ++ join b c := by simp only [join, List.append_assoc]
    _ = join a (join b c) := by rw [join.eq_def a (join b c), hleft]

/-- Pieces that are joined to a text can as well be joined first. -/
theorem foldl_join (a : List Char) (fragments : List (List Char)) :
    fragments.foldl join a = join a (fragments.foldl join []) := by
  induction fragments generalizing a with
  | nil => simp
  | cons f rest ih =>
    rw [List.foldl_cons, List.foldl_cons, join_nil_left, ih, ih f, join_assoc]

/-- Empty fragments count for nothing. -/
theorem foldl_join_filter (fragments : List (List Char)) (a : List Char) :
    (fragments.filter (!·.isEmpty)).foldl join a = fragments.foldl join a := by
  induction fragments generalizing a with
  | nil => rfl
  | cons f rest ih =>
    cases f with
    | nil => rw [List.filter_cons_of_neg (by simp), List.foldl_cons, join_nil_right, ih]
    | cons c f => rw [List.filter_cons_of_pos rfl, List.foldl_cons, List.foldl_cons, ih]

theorem prefix_join (a b : List Char) : a <+: join a b := by
  rw [join, List.append_assoc]
  exact List.prefix_append a _

theorem prefix_foldl_join (fragments : List (List Char)) (a : List Char) :
    a <+: fragments.foldl join a := by
  induction fragments generalizing a with
  | nil => exact List.prefix_rfl
  | cons f rest ih => exact (prefix_join a f).trans (ih _)

/-- Every fragment stands somewhere in the text that they are joined to. -/
theorem infix_foldl_join (hf : f ∈ fragments) (a : List Char) : f <:+: fragments.foldl join a := by
  induction fragments generalizing a with
  | nil => cases hf
  | cons g rest ih =>
    obtain rfl | hf := List.mem_cons.1 hf
    · exact (List.suffix_append (a ++ gap a f) f).isInfix.trans (prefix_foldl_join rest _).isInfix
    · exact ih hf _

end Join

section Combine

theorem combine_map_some (fragments : List (List Char)) :
    combine (fragments.map some) = fragments.foldl join [] := by
  rw [combine, List.filterMap_map]
  exact congrArg (List.foldl join []) List.filterMap_some

theorem combine_append (xs ys : List (Option (List Char))) :
    combine (xs ++ ys) = join (combine xs) (combine ys) := by
  rw [combine, List.filterMap_append, List.foldl_append, foldl_join]
  rfl

theorem combine_cons_some (p : List Char) (xs : List (Option (List Char))) :
    combine (some p :: xs) = join p (combine xs) := by
  rw [← List.singleton_append, combine_append]
  simp [combine]

/-- Fragments can be stitched group by group. -/
theorem combine_flatten (groups : List (List (Option (List Char)))) :
    combine groups.flatten = combine (groups.map fun g => some (combine g)) := by
  induction groups with
  | nil => rfl
  | cons g rest ih => rw [List.flatten_cons, combine_append, List.map_cons, combine_cons_some, ih]

end Combine

/-- The fragments that are not missing and not empty. -/
def pieces (fragments : List (Option (List Char))) : List (List Char) :=
  (fragments.filterMap id).filter (!·.isEmpty)

/-- Whether a space belongs between two pieces: the first ends in a character that is neither blank
    nor punctuation, and the second starts with one that is not blank. -/
def TakesSpace (p q : List Char) : Prop :=
  ∃ last first, p.getLast? = some last ∧ q.head? = some first ∧
    isBlank last = false ∧ isPunctuation last = false ∧ isBlank first = false

/-- The texts that consist of some pieces in order, with one space between two neighbours that take
    a space and nothing between any others. -/
inductive Stitched : List (List Char) → List Char → Prop where
  | none : Stitched [] []
  | one (p : List Char) : Stitched [p] p
  | spaced {p q t : List Char} {rest : List (List Char)} (hspace : TakesSpace p q)
      (ht : Stitched (q :: rest) t) : Stitched (p :: q :: rest) (p ++ ' ' :: t)
  | adjoined {p q t : List Char} {rest : List (List Char)} (hspace : ¬ TakesSpace p q)
      (ht : Stitched (q :: rest) t) : Stitched (p :: q :: rest) (p ++ t)

section Stitched

theorem ne_nil_of_mem_pieces {xs : List (Option (List Char))} (hp : p ∈ pieces xs) : p ≠ [] := by
  have hnot := (List.mem_filter.1 hp).2
  rintro rfl
  cases hnot

theorem combine_eq_foldl_pieces (xs : List (Option (List Char))) :
    combine xs = (pieces xs).foldl join [] := (foldl_join_filter _ _).symm

/-- Missing and empty fragments count for nothing. -/
theorem combine_pieces (xs : List (Option (List Char))) :
    combine ((pieces xs).map some) = combine xs := by
  rw [combine_map_some, combine_eq_foldl_pieces]

theorem gap_of_takesSpace (hspace : TakesSpace p q) : gap p q = [' '] := by
  obtain ⟨last, first, hlast, hfirst, hblank, hpunctuation, hstart⟩ := hspace
  simp [gap, needsSpace, hlast, hfirst, hblank, hpunctuation, hstart]

theorem gap_of_not_takesSpace (hspace : ¬ TakesSpace p q) : gap p q = [] := by
  cases hlast : p.getLast? with
  | none => simp [gap, hlast]
  | some last =>
    cases hfirst : q.head? with
    | none => simp [gap, hlast, hfirst]
    | some first =>
      have hneeds : needsSpace last first = false := by
        rw [Bool.eq_false_iff]
        intro hneeds
        simp only [needsSpace, Bool.not_eq_true', Bool.or_eq_false_iff] at hneeds
        obtain ⟨⟨hblank, hstart⟩, hpunctuation⟩ := hneeds
        exact hspace ⟨last, first, hlast, hfirst, hblank, hpunctuation, hstart⟩
      simp [gap, hlast, hfirst, hneeds]

theorem stitched_foldl_join {rest : List (List Char)} (hne : ∀ q ∈ rest, q ≠ []) :
    Stitched (p :: rest) (rest.foldl join p) := by
  induction rest generalizing p with
  | nil => exact .one p
  | cons q rest ih =>
    rw [List.forall_mem_cons] at hne
    have hrest : Stitched (q :: rest) (rest.foldl join q) := ih hne.2
    have hseam : gap p (rest.foldl join q) = gap p q := by
      apply gap_congr rfl
      rw [foldl_join, head?_join hne.1]
    rw [List.foldl_cons, foldl_join, join_assoc, ← foldl_join, join, hseam]
    by_cases hspace : TakesSpace p q
    · rw [gap_of_takesSpace hspace, List.append_assoc]
      exact .spaced hspace hrest
    · rw [gap_of_not_takesSpace hspace, List.append_nil]
      exact .adjoined hspace hrest

theorem stitched_combine (xs : List (Option (List Char))) : Stitched (pieces xs) (combine xs) := by
  rw [combine_eq_foldl_pieces]
  have hne : ∀ p ∈ pieces xs, p ≠ [] := fun p => ne_nil_of_mem_pieces
  cases hpieces : pieces xs with
  | nil => exact .none
  | cons p rest =>
    rw [hpieces, List.forall_mem_cons] at hne
    rw [List.foldl_cons, join_nil_left]
    exact stitched_foldl_join hne.2

/-- The pieces leave no choice. -/
theorem Stitched.unique {ps : List (List Char)} {t u : List Char} (ht : Stitched ps t)
    (hu : Stitched ps u) : u = t := by
  induction ht generalizing u with
  | none => cases hu; rfl
  | one p => cases hu; rfl
  | spaced hspace _ ih =>
    cases hu with
    | spaced _ hu => rw [ih hu]
    | adjoined hnot _ => exact absurd hspace hnot
  | adjoined hnot _ ih =>
    cases hu with
    | spaced hspace _ => exact absurd hspace hnot
    | adjoined _ hu => rw [ih hu]

end Stitched

/-- Stitching is compositional and loses nothing. Two lists of fragments can be stitched one by one
and then together, and so can any number of them; missing and empty fragments can be left out; and
the text is the fragments that are not empty, in order, with one space between two neighbours that
take a space and nothing between any others. -/
theorem combine_compositional (xs ys : List (Option (List Char))) :
    combine (xs ++ ys) = combine [some (combine xs), some (combine ys)] ∧
    (∀ groups : List (List (Option (List Char))),
      combine groups.flatten = combine (groups.map fun g => some (combine g))) ∧
    combine ((pieces xs).map some) = combine xs ∧
    ∀ t, Stitched (pieces xs) t ↔ t = combine xs := by
  refine ⟨?_, combine_flatten, combine_pieces xs, fun t => ⟨fun ht => ?_, ?_⟩⟩
  · have htwo := combine_flatten [xs, ys]
    simpa using htwo
  · exact (stitched_combine xs).unique ht
  · rintro rfl
    exact stitched_combine xs

/-- A space stands behind a word, and none behind punctuation or before a blank. -/
example : combine [some ['a'], none, some ['b', ','], some [], some ['c'], some [' ', 'd']] =
    ['a', ' ', 'b', ',', 'c', ' ', 'd'] := by decide

end Rejoin.Stitch
