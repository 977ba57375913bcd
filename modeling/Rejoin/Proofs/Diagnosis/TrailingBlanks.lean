import Rejoin.Proofs.Diagnosis.Cascade
import Rejoin.Proofs.Structure.Step
import Rejoin.Proofs.Text.Lines

/-!
Blanks behind a text. They are no brackets, they write nothing on a line, and they are trimmed off
before the ending of the text is looked at. So they change the diagnosis of a text only by making it
long enough for its ending to count.
-/

namespace Rejoin

open Structure Text

variable {o : DetectorOptions} {t w : List Char}

section Brackets

theorem not_bracket_of_isBlank {c : Char} (hc : isBlank c = true) (d : Dialect) :
    d.opens? c = none ∧ d.closes? c = none := by
  have hopener (b : Bracket) : b.opener ≠ c := by
    rintro rfl
    cases b <;> cases hc
  have hcloser (b : Bracket) : b.closer ≠ c := by
    rintro rfl
    cases b <;> cases hc
  simp [Dialect.opens?, Dialect.closes?, hopener, hcloser]

/-- Blanks change no count of brackets, even if the text ends in a string or with a backslash. -/
theorem Structure.Scan.tally_append_blanks (hw : w.all isBlank = true) (d : Dialect)
    (t : List Char) : (ofText d (t ++ w)).tally = (ofText d t).tally := by
  rw [ofText, run_append]
  apply tally_run_of_not_bracket
  intro c hc
  exact not_bracket_of_isBlank (List.all_eq_true.1 hw c hc) d

end Brackets

namespace Structure.FenceScan

/-- Whether a line is a fence shows in what is written on it. -/
theorem step_trimRight (s : FenceScan) (line : List Char) :
    s.step (trimRight line) = s.step line := by
  have hfence : Fence.isFenceLine (trimRight line) = Fence.isFenceLine line := by
    rw [Fence.isFenceLine, Fence.isFenceLine, trimRight_trimRight]
  rw [step, step, hfence]

/-- The scan of some lines is the scan of what is written on them. -/
theorem foldl_step_written (s : FenceScan) (ls : List (List Char)) :
    (written ls).foldl step s = ls.foldl step s := by
  induction ls generalizing s with
  | nil => rfl
  | cons line ls ih =>
    rw [written_cons, List.foldl_append, ih, List.foldl_cons, ← step_trimRight s line]
    congr 1
    cases htrim : trimRight line with
    | nil => simp [written, htrim, step, Fence.isFenceLine]
    | cons c rest => simp [written, htrim]

theorem ofText_append_of_all_isBlank (hw : w.all isBlank = true) (t : List Char) :
    ofText (t ++ w) = ofText t := by
  rw [ofText, ofText, ← foldl_step_written, (sameWriting_lines_append hw t).written_eq,
    foldl_step_written]

end Structure.FenceScan

namespace Diagnosis

theorem ofStructure?_append_blanks (hw : w.all isBlank = true) (t : List Char) :
    ofStructure? (t ++ w) = ofStructure? t := by
  rw [ofStructure?, ofStructure?, Scan.tally_append_blanks hw,
    FenceScan.ofText_append_of_all_isBlank hw]

theorem endsProperly_append_blanks (hw : w.all isBlank = true) (o : DetectorOptions)
    (t : List Char) : endsProperly o (t ++ w) = endsProperly o t := by
  rw [endsProperly, endsProperly, Fence.endsWithFence, Fence.endsWithFence,
    trimRight_append_of_all_isBlank hw]

/-- The ending of a text is judged alike with blanks behind it, if it counts for both or for
neither. -/
theorem ofEnding?_append_blanks (hw : w.all isBlank = true)
    (hlength : o.minLength ≤ t.length ∨ (t ++ w).length < o.minLength) :
    ofEnding? o (t ++ w) = ofEnding? o t := by
  have hlong : o.minLength ≤ (t ++ w).length ↔ o.minLength ≤ t.length := by
    rw [List.length_append] at hlength ⊢
    omega
  rw [ofEnding?, ofEnding?, endsProperly_append_blanks hw, decide_eq_decide.2 hlong]

/-- Blanks behind a text change nothing in its diagnosis, whatever blanks they are and whatever
lines they end, as long as the ending of texts is not looked at or the text does not become long
enough for it by them. -/
theorem ofText_append_blanks (hw : w.all isBlank = true)
    (hlength : o.heuristic = false ∨ o.minLength ≤ t.length ∨ (t ++ w).length < o.minLength) :
    ofText o (t ++ w) = ofText o t := by
  rw [ofText_eq, ofText_eq, ofStructure?_append_blanks hw]
  obtain hheuristic | hlength := hlength
  · rw [hheuristic]
    rfl
  · rw [ofEnding?_append_blanks hw hlength]

/-- A fence behind a carriage return, with a line feed and separators of other kinds behind it, for
a detector to which the text is just long enough. -/
theorem ofText_append_blanks_of_fence :
    let o : DetectorOptions := ⟨true, true, 8, ['.'], []⟩
    let t := ['(', ')', 'a', '\r', Fence.tick, Fence.tick, Fence.tick, '\r']
    let w := ['\n', '\u2028', ' ', '\u0085', '\u3000']
    w.all isBlank = true ∧
      (o.heuristic = false ∨ o.minLength ≤ t.length ∨ (t ++ w).length < o.minLength) ∧
      ofText o (t ++ w) = .truncated .incompleteCodeBlock "1 unclosed code block(s) detected" := by
  intro o t w
  have hw : w.all isBlank = true := by decide
  have hlength : o.heuristic = false ∨ o.minLength ≤ t.length ∨ (t ++ w).length < o.minLength :=
    .inr (.inl (by decide))
  refine ⟨hw, hlength, ?_⟩
  rw [ofText_append_blanks hw hlength]
  decide

end Diagnosis

end Rejoin
