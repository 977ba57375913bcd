import Rejoin.Proofs.Diagnosis.Unbalanced
import Rejoin.Proofs.Structure.Step
import Rejoin.Proofs.Text.Lines
import Rejoin.Proofs.Text.Trim
import Rejoin.Repair.Fences

/-!
Closing a code block settles the diagnosis. The fence that is added makes one more fence line whatever
the text ends with, since a line feed stands before it; backticks and line feeds are no brackets; and
a text that ends with a fence ends properly. So a text that was found to end inside a code block is
found complete once it is repaired, and repairing it again changes nothing.
-/

namespace Rejoin

open Structure Text

/-- What follows a line feed is scanned from where the text before it leaves off. -/
theorem Structure.FenceScan.ofText_append_newline (t rest : List Char) :
    ofText (t ++ '\n' :: rest) = (lines rest).foldl step (ofText t) := by
  have hempty (s : FenceScan) : s.step [] = s := rfl
  rw [ofText, ofText]
  obtain hlines | hlines := lines_append_newline t rest
  · rw [hlines, List.foldl_append]
  · rw [hlines, List.foldl_append, List.foldl_cons, hempty]

namespace Repair

section CloseFence

theorem exists_closeFence_eq_newline (t : List Char) :
    ∃ before, FenceScan.ofText before = FenceScan.ofText t ∧
      closeFence t = before ++ '\n' :: (Fence.marker ++ ['\n']) := by
  rw [closeFence]
  split
  · next hend =>
    obtain ⟨before, rfl⟩ := List.getLast?_eq_some_iff.1 hend
    refine ⟨before, (FenceScan.ofText_append_newline before []).symm, ?_⟩
    rw [List.append_assoc, List.append_assoc]
    rfl
  · refine ⟨t, rfl, ?_⟩
    rw [List.append_assoc, List.append_assoc]
    rfl

/-- The fence that is added counts as a line of its own. -/
theorem ofText_closeFence (t : List Char) :
    FenceScan.ofText (closeFence t) =
      ⟨(FenceScan.ofText t).fenceLines + 1, !(FenceScan.ofText t).inside⟩ := by
  obtain ⟨before, hbefore, hclose⟩ := exists_closeFence_eq_newline t
  rw [hclose, FenceScan.ofText_append_newline, hbefore]
  rfl

theorem not_bracket_of_tick_or_newline {c : Char} (hc : c = Fence.tick ∨ c = '\n') :
    Dialect.prose.opens? c = none ∧ Dialect.prose.closes? c = none := by
  obtain rfl | rfl := hc <;> decide

theorem exists_closeFence_eq_append (t : List Char) :
    ∃ added, closeFence t = t ++ added ∧
      ∀ c ∈ added, Dialect.prose.opens? c = none ∧ Dialect.prose.closes? c = none := by
  rw [closeFence]
  split
  · refine ⟨Fence.marker ++ ['\n'], List.append_assoc .., fun c hc => ?_⟩
    apply not_bracket_of_tick_or_newline
    simpa [Fence.marker] using hc
  · refine ⟨'\n' :: (Fence.marker ++ ['\n']), by simp, fun c hc => ?_⟩
    apply not_bracket_of_tick_or_newline
    simp only [Fence.marker, List.cons_append, List.nil_append, List.mem_cons, List.not_mem_nil,
      or_false, or_self_left] at hc
    tauto

theorem prefix_closeFence (t : List Char) : t <+: closeFence t := by
  obtain ⟨added, hclose, _⟩ := exists_closeFence_eq_append t
  exact ⟨added, hclose.symm⟩

/-- The fence that is added changes no count of brackets, even if the text ends in a string or with a
    backslash. -/
theorem tally_closeFence (t : List Char) :
    (Scan.ofText .prose (closeFence t)).tally = (Scan.ofText .prose t).tally := by
  obtain ⟨added, hclose, hadded⟩ := exists_closeFence_eq_append t
  rw [hclose, Scan.ofText, Scan.run_append, Scan.tally_run_of_not_bracket hadded]
  rfl

theorem endsWithFence_closeFence (t : List Char) : Fence.endsWithFence (closeFence t) = true := by
  have hlast (before : List Char) : (before ++ Fence.marker).getLast? = some Fence.tick := by
    rw [List.getLast?_append]
    rfl
  rw [Fence.endsWithFence, closeFence, trimRight_append (hlast _) rfl, List.isSuffixOf_iff_suffix]
  exact ⟨_, (List.append_nil _).symm⟩

end CloseFence

end Repair

namespace Diagnosis

variable {o : DetectorOptions} {t : List Char}

theorem ofStructure?_eq_none (hclosed : (Scan.ofText .prose t).tally.unclosed = [])
    (houtside : (FenceScan.ofText t).inside = false) : ofStructure? t = none := by
  rw [ofStructure?, hclosed, houtside]
  rfl

theorem endsProperly_of_endsWithFence (hend : Fence.endsWithFence t = true) :
    endsProperly o t = true := by
  rw [endsProperly]
  split
  · rfl
  · rw [hend, Bool.true_or, Bool.true_or]

/-- A text is complete if its brackets are closed, it is inside no code block, and it ends properly. -/
theorem ofText_eq_complete (hclosed : (Scan.ofText .prose t).tally.unclosed = [])
    (houtside : (FenceScan.ofText t).inside = false) (hend : endsProperly o t = true) :
    ofText o t = .complete := by
  have hending : ofEnding? o t = none := by
    rw [ofEnding?, hend, Bool.not_true, Bool.and_false]
    rfl
  rw [ofText, ofStructure?_eq_none hclosed houtside, hending]
  simp only [ite_self, Option.or_none, Option.getD_none]

/-- An open code block is reported only of a text that has one and that has no open brackets, since
    those are reported before. -/
theorem closed_and_inside_of_reason (ho : o.structural = true)
    (hreason : (ofText o t).reason = .incompleteCodeBlock) :
    (Scan.ofText .prose t).tally.unclosed = [] ∧ (FenceScan.ofText t).inside = true := by
  have hclosed : (Scan.ofText .prose t).tally.unclosed = [] := by
    by_contra hunclosed
    rw [ofText_of_unclosed ho hunclosed] at hreason
    cases hreason
  refine ⟨hclosed, ?_⟩
  by_contra houtside
  rw [Bool.not_eq_true] at houtside
  rw [ofText, ofStructure?_eq_none hclosed houtside] at hreason
  simp only [ite_self, Option.none_or] at hreason
  split at hreason
  · cases hreason
  split at hreason
  · rw [ofEnding?] at hreason
    split at hreason <;> cases hreason
  · cases hreason

end Diagnosis

namespace Repair

theorem fences_of_inside {t : List Char} (hinside : (FenceScan.ofText t).inside = true) :
    fences (some t) = .fenced (closeFence t) := if_pos hinside

theorem fences_of_outside {text : Option (List Char)}
    (houtside : (FenceScan.ofText (text.getD [])).inside = false) :
    fences text = .notNeeded (text.getD []) := if_neg (by rw [houtside]; exact Bool.false_ne_true)

theorem inside_content_fences (text : Option (List Char)) :
    (FenceScan.ofText (fences text).content).inside = false := by
  cases hinside : (FenceScan.ofText (text.getD [])).inside with
  | true =>
    have hfences : fences text = .fenced (closeFence (text.getD [])) := if_pos hinside
    rw [hfences, content, ofText_closeFence, hinside]
    rfl
  | false =>
    rw [fences_of_outside hinside]
    exact hinside

/-- The repair of code blocks clears the diagnosis that calls for it. A text that a detector finds to
end inside a code block is closed by the repair, which only adds to it, and the same detector then
finds it complete, however it judges endings. After the repair of any text no code block is open, and
a second repair leaves the text as it is. -/
theorem fences_clears_diagnosis :
    (∀ (o : DetectorOptions) (t : List Char), o.structural = true →
      (Diagnosis.ofText o t).reason = .incompleteCodeBlock →
        (fences (some t)).status = .recovered ∧ t <+: (fences (some t)).content ∧
          Diagnosis.ofText o (fences (some t)).content = .complete) ∧
    ∀ text : Option (List Char),
      (FenceScan.ofText (fences text).content).inside = false ∧
        fences (some (fences text).content) = .notNeeded (fences text).content := by
  refine ⟨fun o t ho hreason => ?_, fun text => ?_⟩
  · obtain ⟨hclosed, hinside⟩ := Diagnosis.closed_and_inside_of_reason ho hreason
    have houtside := inside_content_fences (some t)
    rw [fences_of_inside hinside] at houtside ⊢
    refine ⟨rfl, prefix_closeFence t, Diagnosis.ofText_eq_complete ?_ houtside ?_⟩
    · rw [content, tally_closeFence, hclosed]
    · exact Diagnosis.endsProperly_of_endsWithFence (endsWithFence_closeFence t)
  · have houtside := inside_content_fences text
    exact ⟨houtside, fences_of_outside houtside⟩

/-- A code block that breaks off in a quotation, behind a backslash and a carriage return, looked at by
a detector to which no character ends a sentence but one. -/
theorem fences_clears_diagnosis_in_quotation :
    let o : DetectorOptions := ⟨true, true, 0, ['!'], []⟩
    let t := [Fence.tick, Fence.tick, Fence.tick, '\n', '\'', '(', '\\', '\r']
    o.structural = true ∧ (Diagnosis.ofText o t).reason = .incompleteCodeBlock ∧
      (fences (some t)).content = t ++ '\n' :: (Fence.marker ++ ['\n']) ∧
      Diagnosis.ofText o (fences (some t)).content = .complete ∧
      fences (some (fences (some t)).content) = .notNeeded (fences (some t)).content := by
  intro o t
  have hreason : (Diagnosis.ofText o t).reason = .incompleteCodeBlock := by decide
  obtain ⟨_, _, hcomplete⟩ := fences_clears_diagnosis.1 o t rfl hreason
  exact ⟨rfl, hreason, by decide, hcomplete, (fences_clears_diagnosis.2 (some t)).2⟩

end Repair

end Rejoin
