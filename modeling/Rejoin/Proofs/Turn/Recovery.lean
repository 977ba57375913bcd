import Rejoin.Proofs.Json.Fences
import Rejoin.Proofs.Repair.Closure
import Rejoin.Turn.Recovery

/-!
What the last repair of a turn's text does to it. A repair that is adopted closes the trimmed text,
cuts it back, or closes its last code block; only the second drops anything. A document is left to
the repair of code blocks, which does not know of strings.
-/

namespace Rejoin

open Structure Text

namespace Json

variable [Limits] {t : List Char}

/-- Whatever completes a text closes only. -/
theorem isClosing_closing (hvalid : isValid (close t) = true) : IsClosing (closing t) := by
  rw [close, isValid_append, Option.any_eq_true] at hvalid
  obtain ⟨r, hrun, _⟩ := hvalid
  have hsuffix : closing t = _ := (Reader.agrees_start.run hrun).suffix_eq
  refine ⟨_, _, hsuffix, ?_, ?_⟩
  · cases r.mode.isString <;> simp
  · intro c hc
    obtain ⟨k, _, rfl⟩ := List.mem_map.1 hc
    cases k
    · exact .inr rfl
    · exact .inl rfl

end Json

namespace Repair

variable {t : List Char}

/-- A repair of JSON that changes a text either completes what trimming leaves of it or cuts that
    back. -/
theorem json_of_isChanged [Json.Limits] (hchanged : (json (some t)).isChanged = true) :
    (∃ closing, Json.IsClosing closing ∧ json (some t) = .closed (trim t) closing) ∨
      ∃ cut, cut.kept <+: trim t ∧ Json.IsClosing cut.closing ∧ Json.isValid cut.content = true ∧
        json (some t) = .cutBack cut := by
  have hvalid : Json.isValid (json (some t)).content = true := by
    apply isValid_content_json
    intro hfailed
    rw [isChanged, hfailed] at hchanged
    cases hchanged
  obtain ⟨f, hjson⟩ | hjson | ⟨hclosed, hjson⟩ | ⟨cut, _, hstart, _, hcut, hjson⟩ :=
    json_cases t
  · rw [hjson] at hchanged
    cases hchanged
  · rw [hjson] at hchanged
    cases hchanged
  · exact .inl ⟨_, Json.isClosing_closing hclosed, hjson⟩
  · obtain ⟨hsplit, hclosing⟩ := Json.cutBack?_eq_some hstart hcut
    have hcontent : Json.isValid cut.content = true := by
      rw [hjson] at hvalid
      exact hvalid
    refine .inr ⟨cut, hsplit ▸ List.prefix_append cut.kept cut.dropped, ?_, hcontent, hjson⟩
    rw [Cut.content, hclosing, ← Json.close] at hcontent
    rw [hclosing]
    exact Json.isClosing_closing hcontent

/-- A repair of code blocks that changes a text closes the last one. -/
theorem fences_of_isChanged (hchanged : (fences (some t)).isChanged = true) :
    (FenceScan.ofText t).inside = true ∧ fences (some t) = .fenced (closeFence t) := by
  rw [fences] at hchanged ⊢
  dsimp only [Option.getD_some] at hchanged ⊢
  split at hchanged
  · next hinside => exact ⟨hinside, if_pos hinside⟩
  · cases hchanged

end Repair

namespace Recovered

variable {t : List Char}

theorem adopt?_eq_some_iff {allowed : Bool} {r adopted : Repair} :
    adopt? allowed r = some adopted ↔ allowed = true ∧ r.isChanged = true ∧ r = adopted := by
  rw [adopt?]
  split
  · next h =>
    rw [Bool.and_eq_true] at h
    simp [h]
  · next h =>
    rw [Bool.and_eq_true] at h
    constructor
    · nofun
    · rintro ⟨hallowed, hchanged, _⟩
      exact absurd ⟨hallowed, hchanged⟩ h

/-- A text is left as it is, or it becomes that of a repair that changes it. -/
theorem ofText_cases [Json.Limits] (p : Policy) (t : List Char) :
    ofText p t = unchanged t [] ∨
      ∃ r : Repair, (r = .json (some t) ∨ r = .fences (some t)) ∧ r.isChanged = true ∧
        (ofText p t).text = r.content ∧ (ofText p t).repair = some r := by
  rw [ofText]
  split
  · exact .inl rfl
  dsimp only
  cases hadopted : (adopt? p.repairsJson (.json (some t))).or
      (adopt? p.repairsFences (.fences (some t))) with
  | none => exact .inl rfl
  | some r =>
    refine .inr ⟨r, ?_⟩
    obtain hjson | ⟨_, hfences⟩ := Option.or_eq_some_iff.1 hadopted
    · obtain ⟨_, hchanged, rfl⟩ := adopt?_eq_some_iff.1 hjson
      exact ⟨.inl rfl, hchanged, rfl, rfl⟩
    · obtain ⟨_, hchanged, rfl⟩ := adopt?_eq_some_iff.1 hfences
      exact ⟨.inr rfl, hchanged, rfl, rfl⟩

theorem adopt?_fences (allowed : Bool) (t : List Char) :
    adopt? allowed (.fences (some t)) =
      if allowed && (FenceScan.ofText t).inside then some (.fenced (Repair.closeFence t)) else none := by
  have hfences : Repair.fences (some t) =
      if (FenceScan.ofText t).inside then .fenced (Repair.closeFence t) else .notNeeded t := rfl
  rw [adopt?, hfences]
  generalize (FenceScan.ofText t).inside = inside
  cases allowed <;> cases inside <;> rfl

/-- What may be added behind a text of which nothing is dropped: blanks, a text that closes, or a
    closing fence on a line of its own. -/
inductive IsAddition : List Char → Prop where
  | blanks {s : List Char} (hs : s.all isBlank = true) : IsAddition s
  | closing {s : List Char} (hs : Json.IsClosing s) : IsAddition s
  | fence {w : List Char} (hw : w.all isBlank = true) (hend : w.getLast? = some '\n') :
      IsAddition (w ++ Fence.marker ++ ['\n'])

/-- Whether a text with the repair that made it keeps another text: all of it but the blanks around
    it, or else a part from its start that makes a document, and then the repair says that it drops
    the rest. -/
structure Keeps [Json.Limits] (t text : List Char) (repair : Option Repair) : Prop where
  unrepaired : repair = none → text = t
  content : ∀ r, repair = some r → r.content = text
  lossless : repair.any (·.isLossy) = false → ∃ before after, before.all isBlank = true ∧
    IsAddition after ∧ text = before ++ trim t ++ after
  lossy : repair.any (·.isLossy) = true → Json.isValid text = true ∧ ∃ kept closing,
    kept <+: trim t ∧ Json.IsClosing closing ∧ text = kept ++ closing

/-- Closing a code block adds a fence on a line of its own. -/
theorem exists_closeFence_eq (hinside : (FenceScan.ofText t).inside = true) :
    ∃ before after, before.all isBlank = true ∧ IsAddition after ∧
      Repair.closeFence t = before ++ trim t ++ after := by
  obtain ⟨before, after, hbefore, hafter, ht⟩ := exists_blanks_around_trim t
  by_cases hend : t.getLast? = some '\n'
  · refine ⟨before, after ++ Fence.marker ++ ['\n'], hbefore, .fence hafter ?_, ?_⟩
    · have hlast := List.getLast?_eq_some_getLast (FenceScan.trim_ne_nil_of_inside hinside)
      rw [ht, List.getLast?_append, List.getLast?_append, hlast, Option.some_or] at hend
      cases hafterLast : after.getLast? with
      | none =>
        rw [hafterLast, Option.none_or] at hend
        rw [hend] at hlast
        cases not_isBlank_of_getLast?_trim hlast
      | some last =>
        rw [hafterLast, Option.some_or] at hend
        exact hend
    · rw [Repair.closeFence, if_pos hend]
      conv => lhs; rw [ht]
      simp only [List.append_assoc]
  · refine ⟨before, after ++ ['\n'] ++ Fence.marker ++ ['\n'], hbefore, .fence ?_ ?_, ?_⟩
    · rw [List.all_append, hafter]
      rfl
    · rw [List.getLast?_concat]
    · rw [Repair.closeFence, if_neg hend]
      conv => lhs; rw [ht]
      simp only [List.append_assoc]

/-- No repair drops anything without saying so. -/
theorem keeps_ofText [Json.Limits] (p : Policy) (t : List Char) :
    Keeps t (ofText p t).text (ofText p t).repair := by
  obtain hkept | ⟨r, hr, hchanged, htext, hrepair⟩ := ofText_cases p t
  · rw [hkept]
    refine ⟨fun _ => rfl, nofun, fun _ => ?_, nofun⟩
    obtain ⟨before, after, hbefore, hafter, ht⟩ := exists_blanks_around_trim t
    exact ⟨before, after, hbefore, .blanks hafter, ht⟩
  rw [hrepair, htext]
  obtain rfl | rfl := hr
  · obtain ⟨closing, hclosing, hjson⟩ | ⟨cut, hkept, hclosing, hvalid, hjson⟩ :=
      Repair.json_of_isChanged hchanged
    · rw [hjson]
      refine ⟨nofun, fun r hr => by cases hr; rfl, fun _ => ?_, nofun⟩
      exact ⟨[], closing, rfl, .closing hclosing, rfl⟩
    · rw [hjson]
      refine ⟨nofun, fun r hr => by cases hr; rfl, nofun, fun _ => ⟨hvalid, ?_⟩⟩
      exact ⟨cut.kept, cut.closing, hkept, hclosing, rfl⟩
  · obtain ⟨hinside, hfences⟩ := Repair.fences_of_isChanged hchanged
    rw [hfences]
    refine ⟨nofun, fun r hr => by cases hr; rfl, fun _ => ?_, nofun⟩
    exact exists_closeFence_eq hinside

/-- A document is left to the repair of code blocks. -/
theorem ofText_of_isValid [Json.Limits] (hvalid : Json.isValid t = true) (p : Policy) :
    ofText p t =
      if p.repairsFences && (FenceScan.ofText t).inside then
        ⟨Repair.closeFence t, some (.fenced (Repair.closeFence t)),
          (Repair.fenced (Repair.closeFence t)).adoptionRecords⟩
      else unchanged t [] := by
  have hne : t ≠ [] := by
    rintro rfl
    cases hvalid
  have hjson : adopt? p.repairsJson (.notNeeded t) = none := by
    rw [adopt?]
    exact if_neg (by simp [Repair.isChanged, Repair.status])
  rw [ofText, List.isEmpty_eq_false_iff.2 hne, if_neg Bool.false_ne_true]
  dsimp only
  rw [Repair.json_of_isValid hvalid, hjson, Option.none_or, adopt?_fences]
  generalize (p.repairsFences && (FenceScan.ofText t).inside) = closes
  cases closes <;> rfl

/-- The repairs leave a document as it is exactly if the policy does not have code blocks repaired or
the document is inside none. It is inside none whatever its strings hold, as long as they do not hold
the mark of a fence behind one of the three characters that end a line there. -/
theorem ofText_of_isValid_eq_self_iff [Json.Limits] (hvalid : Json.isValid t = true) (p : Policy) :
    (((ofText p t).text = t ∧ (ofText p t).repair = none) ↔
      p.repairsFences = false ∨ (FenceScan.ofText t).inside = false) ∧
    ((∀ c ∈ Json.wideLineEnds, ¬ c :: Fence.marker <:+: t) →
      (ofText p t).text = t ∧ (ofText p t).repair = none) := by
  have hiff : ((ofText p t).text = t ∧ (ofText p t).repair = none) ↔
      p.repairsFences = false ∨ (FenceScan.ofText t).inside = false := by
    rw [ofText_of_isValid hvalid p, ← Bool.and_eq_false_iff]
    split
    · next hcloses => simp [hcloses]
    · next hkeeps => simpa [unchanged] using hkeeps
  exact ⟨hiff, fun hnone => hiff.2 (.inr (Json.inside_eq_false hvalid hnone))⟩

/-- Backticks alone do no harm to a string. -/
theorem ofText_of_ticks_in_string :
    let t := ['"', Fence.tick, Fence.tick, Fence.tick, '"']
    Json.isValid t = true ∧ (ofText .default t).text = t ∧ (ofText .default t).repair = none := by
  intro t
  have hvalid : Json.isValid t = true := by decide
  have hends : ∀ c ∈ Json.wideLineEnds, c ∉ t := by simp [Json.wideLineEnds, Fence.tick, t]
  refine ⟨hvalid, (ofText_of_isValid_eq_self_iff hvalid .default).2 ?_⟩
  intro c hc hmark
  exact hends c hc (hmark.subset List.mem_cons_self)

/-- A string with a fence on a line of its own: the document is broken by the fence that is added. -/
theorem ofText_of_fence_in_string :
    let t := ['"', '\u2028', Fence.tick, Fence.tick, Fence.tick, '\u2028', '"']
    Json.isValid t = true ∧ (ofText .default t).text = t ++ '\n' :: Fence.marker ++ ['\n'] ∧
      (ofText .default t).repair ≠ none ∧ Json.isValid (ofText .default t).text = false := by
  decide

end Recovered

end Rejoin
