import Rejoin.Proofs.Json.Agreement
import Rejoin.Repair.Json

/-!
A value at the start of a text. Objects, arrays and strings delimit themselves: the reader has read
one exactly at a character that can end one, nothing is open there, and no text but blanks may
follow.
-/

namespace Rejoin.Json

open Structure

namespace Reader

/-- The state of a reader that has a complete value and stands in no container. -/
def finished : Reader := ⟨[], .afterValue⟩

/-- Whether the reader is inside a container or a string. -/
def IsInside (r : Reader) : Prop := r.frames ≠ [] ∨ r.mode.isString = true

variable {r next : Reader} {c : Char}

theorem not_isInside_finished : ¬ finished.IsInside := by
  rintro (h | h)
  · exact h rfl
  · cases h

/-- What was entered is left only by finishing it, at a character that can end an element. -/
theorem Move.isInside_or_finished (hfits : r.Fits) (hinside : r.IsInside) (hmove : Move r c next) :
    next.IsInside ∨ next = finished ∧ endsElement c = true := by
  have hnested (hout : r.mode.isString = false) : r.frames ≠ [] := by
    rcases hinside with hframes | hin
    · exact hframes
    · rw [hin] at hout
      cases hout
  cases hmove with
  | token hout _ hframes _ _ => exact .inl (.inl (by rw [hframes]; exact hnested hout))
  | enter k _ _ hnext =>
    subst hnext
    exact .inl (.inl (List.cons_ne_nil _ _))
  | leave k _ hchar _ hnext =>
    obtain ⟨frames, mode⟩ := next
    cases frames with
    | nil =>
      refine .inr ⟨by rw [finished, ← hnext], ?_⟩
      rw [hchar]
      cases k <;> rfl
    | cons => exact .inl (.inl (List.cons_ne_nil _ _))
  | quote _ _ _ hnext | backslash _ _ _ hnext | escaped _ _ _ _ hnext
  | literal _ _ _ _ _ _ _ _ hnext =>
    subst hnext
    exact .inl (.inr rfl)
  | unquote isKey hmode hchar hnext =>
    subst hnext
    cases hframes : r.frames with
    | cons => exact .inl (.inl (List.cons_ne_nil _ _))
    | nil =>
      cases isKey with
      | true =>
        simp only [Fits, hmode, hframes] at hfits
        cases hfits
      | false => exact .inr ⟨rfl, by rw [hchar]; rfl⟩

variable [Limits]

/-- A value does not end at a character behind which the reader is still inside. -/
theorem valueEnd?_cons_of_isInside (hstep : r.step c = some next) (hinside : next.IsInside)
    (t : List Char) : valueEnd? r (c :: t) = (valueEnd? next t).map (· + 1) := by
  have hnot : ¬ (next.frames.isEmpty && next.mode = .afterValue) = true := by
    intro hfinished
    simp only [Bool.and_eq_true, List.isEmpty_iff, decide_eq_true_eq] at hfinished
    apply not_isInside_finished
    rwa [finished, ← hfinished.1, ← hfinished.2]
  rw [valueEnd?, hstep]
  exact if_neg hnot

/-- The shortest text that completes what the reader is in ends an element. -/
theorem valueEnd?_eq_some {t : List Char} {n : Nat} (hfits : r.Fits) (hinside : r.IsInside)
    (hend : valueEnd? r t = some n) :
    0 < n ∧ r.run (t.take n) = some finished ∧ t[n - 1]?.any endsElement = true := by
  induction t generalizing r n with
  | nil => cases hend
  | cons c rest ih =>
    cases hstep : r.step c with
    | none =>
      rw [valueEnd?, hstep] at hend
      cases hend
    | some next =>
      have hmove := move_of_step hfits hstep
      rcases hmove.isInside_or_finished hfits hinside with hnext | ⟨rfl, hc⟩
      · rw [valueEnd?_cons_of_isInside hstep hnext, Option.map_eq_some_iff] at hend
        obtain ⟨m, hm, rfl⟩ := hend
        obtain ⟨hpos, hread, hends⟩ := ih (hfits.move hmove) hnext hm
        refine ⟨Nat.succ_pos m, ?_, ?_⟩
        · rw [List.take_succ_cons, run_cons_of_step hstep, hread]
        · rw [Nat.add_sub_cancel, List.getElem?_cons, if_neg (by omega), hends]
      · rw [valueEnd?, hstep] at hend
        cases hend
        exact ⟨Nat.one_pos, by rw [List.take_succ_cons, run_cons_of_step hstep]; rfl, hc⟩

/-- The character that starts an array, an object or a string takes the reader inside. -/
theorem isInside_of_startsElement (hc : startsElement c = true) :
    ∃ next, start.step c = some next ∧ next.IsInside := by
  simp only [startsElement, Bool.or_eq_true, decide_eq_true_eq] at hc
  rcases hc with (rfl | rfl) | rfl
  · exact ⟨_, if_pos Limits.depth_pos, .inl (List.cons_ne_nil _ _)⟩
  · exact ⟨_, if_pos Limits.depth_pos, .inl (List.cons_ne_nil _ _)⟩
  · exact ⟨_, rfl, .inr rfl⟩

theorem step_finished (c : Char) : finished.step c = if isBlank c then some finished else none := rfl

/-- Behind a document nothing but blanks is read. -/
theorem all_isBlank_of_run_finished {t : List Char} (hrun : finished.run t = some r) :
    t.all isBlank = true := by
  induction t with
  | nil => rfl
  | cons c rest ih =>
    obtain ⟨next, hstep, hrest⟩ := Option.bind_eq_some_iff.1 hrun
    rw [step_finished] at hstep
    split at hstep
    · next hc =>
      cases hstep
      rw [List.all_cons, hc, ih hrest, Bool.and_self]
    · cases hstep

end Reader

variable [Limits]

/-- An array, an object or a string at the start of a text is read up to its end, which is a
    character that can end one. -/
theorem leadingValueEnd?_eq_some {t : List Char} {n : Nat}
    (hstart : t.head?.any startsElement = true) (hend : leadingValueEnd? t = some n) :
    1 < n ∧ Reader.start.run (t.take n) = some Reader.finished ∧
      t[n - 1]?.any endsElement = true := by
  cases t with
  | nil => cases hstart
  | cons c rest =>
    obtain ⟨next, hstep, hinside⟩ := Reader.isInside_of_startsElement hstart
    rw [leadingValueEnd?, Reader.valueEnd?_cons_of_isInside hstep hinside,
      Option.map_eq_some_iff] at hend
    obtain ⟨m, hm, rfl⟩ := hend
    have hfits := Reader.fits_start.move (Reader.move_of_step Reader.fits_start hstep)
    obtain ⟨hpos, hread, hends⟩ := Reader.valueEnd?_eq_some hfits hinside hm
    refine ⟨by omega, ?_, ?_⟩
    · rw [List.take_succ_cons, Reader.run_cons_of_step hstep, hread]
    · rw [Nat.add_sub_cancel, List.getElem?_cons, if_neg (by omega), hends]

/-- Nothing is left to close behind a text that is a whole value. -/
theorem closing_eq_nil_of_run {t : List Char} (hrun : Reader.start.run t = some Reader.finished) :
    closing t = [] :=
  (Reader.agrees_start.run hrun).suffix_eq

end Rejoin.Json
