import Rejoin.Proofs.Json.Move
import Rejoin.Proofs.Text.Trim

/-!
Documents and the blanks around them. A document that is trimmed of blanks of any kind is still a
document, and a blank text is none. The blanks of JSON are only some of the blanks that trimming
removes, so the converse fails.
-/

namespace Rejoin.Json

/-- The characters that have a visible form in ASCII. -/
def isVisible (c : Char) : Bool := 0x21 ≤ c.toNat && c.toNat ≤ 0x7E

theorem not_isBlank_of_isVisible {c : Char} (hc : isVisible c = true) : Text.isBlank c = false := by
  simp only [isVisible, Bool.and_eq_true, decide_eq_true_eq] at hc
  rw [Bool.eq_false_iff]
  intro hblank
  obtain ⟨range, hrange, hlow, hhigh⟩ := Text.CharClass.contains_iff.1 hblank
  simp only [Text.blanks, List.mem_cons, List.not_mem_nil, or_false] at hrange
  rcases hrange with rfl | rfl | rfl | rfl | rfl | rfl | rfl | rfl | rfl | rfl <;>
    dsimp only at hlow hhigh <;> omega

/-- The blanks of JSON are blanks. -/
theorem isBlank_text_of_isBlank {c : Char} (hc : isBlank c = true) : Text.isBlank c = true := by
  simp only [isBlank, Bool.or_eq_true, decide_eq_true_eq] at hc
  obtain ((rfl | rfl) | rfl) | rfl := hc <;> rfl

theorem isVisible_of_isDigit {c : Char} (hc : isDigit c = true) : isVisible c = true := by
  simp only [isDigit, Bool.and_eq_true, decide_eq_true_eq, Char.le_def, UInt32.le_iff_toNat_le] at hc
  simp only [isVisible, Bool.and_eq_true, decide_eq_true_eq, Char.toNat]
  have h0 : ('0' : Char).val.toNat = 48 := rfl
  have h9 : ('9' : Char).val.toNat = 57 := rfl
  omega

theorem isVisible_of_isAlpha {c : Char} (hc : c.isAlpha = true) : isVisible c = true := by
  have hletter : 'A'.val ≤ c.val ∧ c.val ≤ 'Z'.val ∨ 'a'.val ≤ c.val ∧ c.val ≤ 'z'.val := by
    obtain hupper | hlower := Bool.or_eq_true_iff.1 hc
    · exact .inl (of_decide_eq_true hupper)
    · obtain ⟨hleast, hmost⟩ := Bool.and_eq_true_iff.1 hlower
      exact .inr ⟨of_decide_eq_true hleast, of_decide_eq_true hmost⟩
  simp only [UInt32.le_iff_toNat_le] at hletter
  simp only [isVisible, Bool.and_eq_true, decide_eq_true_eq, Char.toNat]
  have hA : ('A' : Char).val.toNat = 65 := rfl
  have hZ : ('Z' : Char).val.toNat = 90 := rfl
  have ha : ('a' : Char).val.toNat = 97 := rfl
  have hz : ('z' : Char).val.toNat = 122 := rfl
  omega

/-- The characters that a number can go on with. -/
def isNumeral (c : Char) : Bool := isDigit c || ['.', 'e', 'E', '+', '-', 'I'].contains c

theorem isVisible_of_isNumeral {c : Char} (hc : isNumeral c = true) : isVisible c = true := by
  rcases Bool.or_eq_true_iff.1 hc with hdigit | hmember
  · exact isVisible_of_isDigit hdigit
  · simp only [List.contains_iff_mem, List.mem_cons, List.not_mem_nil, or_false] at hmember
    rcases hmember with rfl | rfl | rfl | rfl | rfl | rfl <;> rfl

/-- The last part of a trimmed text is more than blanks. -/
theorem not_all_isBlank_drop {t : List Char} {n : Nat} (htrim : Text.trim t = t)
    (hn : n < t.length) : ¬ (t.drop n).all isBlank = true := by
  intro hblank
  have hne : t.drop n ≠ [] := by
    rw [Ne, List.drop_eq_nil_iff]
    omega
  have hlast := List.getLast?_eq_some_getLast hne
  have hc := List.all_eq_true.1 hblank _ (List.getLast_mem hne)
  rw [List.getLast?_drop, if_neg (by omega)] at hlast
  have hnot := Text.not_isBlank_of_getLast?_trim (by rw [htrim]; exact hlast)
  rw [isBlank_text_of_isBlank hc] at hnot
  cases hnot

variable [Limits]

/-- Whether a value that was begun may end here. -/
def Mode.isComplete : Mode → Bool
  | .afterValue => true
  | .number part => Reader.isWhole part
  | _ => false

namespace Reader

variable {r next : Reader} {c : Char}

theorem accepts_eq (r : Reader) : r.accepts = (r.frames.isEmpty && r.mode.isComplete) := by
  obtain ⟨frames, mode⟩ := r
  cases mode <;> rfl

theorem not_accepts_of_isString (hin : r.mode.isString = true) : r.accepts = false := by
  cases hmode : r.mode with
  | string =>
    rw [accepts_eq, hmode]
    exact Bool.and_false _
  | _ =>
    rw [hmode] at hin
    cases hin

/-- A character that no number goes on with ends a number that is whole, and nothing else. -/
theorem stepNumber_of_not_isNumeral (hc : isNumeral c = false) (frames : List Container)
    (part : NumberPart) :
    stepNumber frames c part = if isWhole part then stepAfter frames c else none := by
  simp only [isNumeral, Bool.or_eq_false_iff, List.contains_eq_mem, decide_eq_false_iff_not,
    List.mem_cons, List.not_mem_nil, or_false, not_or] at hc
  obtain ⟨hnodigit, hpoint, he, hE, hplus, hminus, hI⟩ := hc
  have hdigit : ¬ isDigit c = true := by
    rw [hnodigit]
    exact Bool.false_ne_true
  have hzero : c ≠ '0' := by
    rintro rfl
    cases hnodigit
  have hexponent : ¬ (decide (c = 'e') || decide (c = 'E')) = true := by
    rw [decide_eq_false he, decide_eq_false hE]
    exact Bool.false_ne_true
  have hsign : ¬ (decide (c = '+') || decide (c = '-')) = true := by
    rw [decide_eq_false hplus, decide_eq_false hminus]
    exact Bool.false_ne_true
  have htail : stepTail frames c = stepAfter frames c :=
    (if_neg hpoint).trans (if_neg hexponent)
  cases part with
  | minus => exact (if_neg hzero).trans ((if_neg hdigit).trans (if_neg hI))
  | zero => exact htail
  | integer digits =>
    rw [stepNumber, if_neg hdigit, htail, decide_eq_false hpoint, decide_eq_false he,
      decide_eq_false hE]
    rfl
  | point | exponentSign => exact if_neg hdigit
  | fraction => exact (if_neg hdigit).trans (if_neg hexponent)
  | exponent => exact (if_neg hdigit).trans (if_neg hsign)
  | exponentDigits => exact if_neg hdigit

/-- What follows a complete value is read without regard to how the value ended. -/
theorem step_of_isComplete (hcomplete : r.mode.isComplete = true) (hc : isNumeral c = false) :
    r.step c = stepAfter r.frames c := by
  obtain ⟨frames, mode⟩ := r
  cases mode <;> first | cases hcomplete | skip
  · rfl
  · exact (stepNumber_of_not_isNumeral hc frames _).trans (if_pos hcomplete)

theorem isVisible_of_stepValue {frames : List Container} (hstep : stepValue frames c = some next) :
    isVisible c = true := by
  rcases eq_some_of_ite hstep with ⟨rfl, _⟩ | ⟨_, hstep⟩
  · rfl
  by_cases hobject : c = '\x7b'
  · rw [hobject]
    rfl
  rw [if_neg hobject] at hstep
  by_cases harray : c = '['
  · rw [harray]
    rfl
  rw [if_neg harray] at hstep
  iterate 7
    rcases eq_some_of_ite hstep with ⟨rfl, _⟩ | ⟨_, hstep⟩
    · rfl
  rcases eq_some_of_ite hstep with ⟨hdigit, _⟩ | ⟨_, hstep⟩
  · exact isVisible_of_isDigit hdigit
  · cases hstep

/-- Between strings a blank of any kind is passed over, or it ends a number that is whole. -/
theorem step_of_textBlank (hfits : r.Fits) (hout : r.mode.isString = false)
    (hblank : Text.isBlank c = true) (hstep : r.step c = some next) :
    next = r ∨ r.mode.isComplete = true ∧ next = ⟨r.frames, .afterValue⟩ := by
  have hvisible {p : Prop} (hc : isVisible c = true) : p := by
    rw [not_isBlank_of_isVisible hc] at hblank
    cases hblank
  have hnumeral : isNumeral c = false := by
    rw [Bool.eq_false_iff]
    exact fun hc => hvisible (isVisible_of_isNumeral hc)
  have hne (m : Char) (hm : isVisible m = true) : c ≠ m := by
    rintro rfl
    exact hvisible hm
  have hafter (hcomplete : r.mode.isComplete = true) (hafter : stepAfter r.frames c = some next) :
      next = r ∨ r.mode.isComplete = true ∧ next = ⟨r.frames, .afterValue⟩ := by
    cases hframes : r.frames with
    | nil =>
      rw [hframes] at hafter
      rcases eq_some_of_ite hafter with ⟨_, rfl⟩ | ⟨_, hafter⟩
      · exact .inr ⟨hcomplete, rfl⟩
      · cases hafter
    | cons k outer =>
      rw [hframes, stepAfter_cons, if_neg (hne ',' rfl),
        if_neg (hne k.closer (by cases k <;> rfl))] at hafter
      rcases eq_some_of_ite hafter with ⟨_, rfl⟩ | ⟨_, hafter⟩
      · exact .inr ⟨hcomplete, rfl⟩
      · cases hafter
  obtain ⟨frames, mode⟩ := r
  cases mode with
  | value =>
    rcases eq_some_of_ite hstep with ⟨_, rfl⟩ | ⟨_, hstep⟩
    · exact .inl rfl
    · exact hvisible (isVisible_of_stepValue hstep)
  | elementOrEnd =>
    rcases eq_some_of_ite hstep with ⟨_, rfl⟩ | ⟨_, hstep⟩
    · exact .inl rfl
    rcases eq_some_of_ite hstep with ⟨hend, _⟩ | ⟨_, hstep⟩
    · exact absurd hend (hne ']' rfl)
    · exact hvisible (isVisible_of_stepValue hstep)
  | keyOrEnd =>
    rcases eq_some_of_ite hstep with ⟨_, rfl⟩ | ⟨_, hstep⟩
    · exact .inl rfl
    rw [if_neg (hne '\x7d' rfl), if_neg (hne '"' rfl)] at hstep
    cases hstep
  | key =>
    rcases eq_some_of_ite hstep with ⟨_, rfl⟩ | ⟨_, hstep⟩
    · exact .inl rfl
    rw [if_neg (hne '"' rfl)] at hstep
    cases hstep
  | colon =>
    rcases eq_some_of_ite hstep with ⟨_, rfl⟩ | ⟨_, hstep⟩
    · exact .inl rfl
    rw [if_neg (hne ':' rfl)] at hstep
    cases hstep
  | afterValue => exact hafter rfl hstep
  | string isKey part => cases hout
  | name rest =>
    cases rest with
    | nil => cases hstep
    | cons expected rest =>
      rcases eq_some_of_ite hstep with ⟨rfl, _⟩ | ⟨_, hstep⟩
      · exact hvisible (isVisible_of_isAlpha (Bool.and_eq_true_iff.1 hfits).1)
      · cases hstep
  | number part =>
    have hwhole := (stepNumber_of_not_isNumeral hnumeral frames part).symm.trans hstep
    by_cases hcomplete : isWhole part = true
    · rw [if_pos hcomplete] at hwhole
      exact hafter hcomplete hwhole
    · rw [if_neg hcomplete] at hwhole
      cases hwhole

theorem run_eq_start_of_textBlank {t : List Char} (hblank : t.all Text.isBlank = true)
    (hrun : start.run t = some r) : r = start := by
  induction t with
  | nil => exact (Option.some.inj hrun).symm
  | cons c rest ih =>
    obtain ⟨hc, hrest⟩ := Bool.and_eq_true_iff.1 hblank
    obtain ⟨middle, hstep, hrun⟩ := Option.bind_eq_some_iff.1 hrun
    rcases step_of_textBlank fits_start rfl hc hstep with rfl | ⟨hcomplete, _⟩
    · exact ih hrest hrun
    · cases hcomplete

theorem accepts_of_textBlank (hfits : r.Fits) {t : List Char} (hblank : t.all Text.isBlank = true)
    (hrun : r.run t = some next) (haccepts : next.accepts = true) : r.accepts = true := by
  induction t generalizing r with
  | nil =>
    cases hrun
    exact haccepts
  | cons c rest ih =>
    obtain ⟨hc, hrest⟩ := Bool.and_eq_true_iff.1 hblank
    obtain ⟨middle, hstep, hrun⟩ := Option.bind_eq_some_iff.1 hrun
    have hmove := move_of_step hfits hstep
    have hmiddle := ih (hfits.move hmove) hrest hrun
    cases hout : r.mode.isString with
    | true =>
      have hquote : c ≠ '"' := by
        rintro rfl
        cases hc
      rw [not_accepts_of_isString (hmove.isString hout hquote)] at hmiddle
      cases hmiddle
    | false =>
      rcases step_of_textBlank hfits hout hc hstep with rfl | ⟨hcomplete, rfl⟩
      · exact hmiddle
      · rw [accepts_eq] at hmiddle ⊢
        rw [hcomplete]
        exact hmiddle

theorem fits_of_run (hfits : r.Fits) {t : List Char} (hrun : r.run t = some next) : next.Fits := by
  induction t generalizing r with
  | nil =>
    cases hrun
    exact hfits
  | cons c rest ih =>
    obtain ⟨middle, hstep, hrun⟩ := Option.bind_eq_some_iff.1 hrun
    exact ih (hfits.move (move_of_step hfits hstep)) hrun

theorem acceptsRest_append (r : Reader) (t u : List Char) :
    r.acceptsRest (t ++ u) = (r.run t).any (·.acceptsRest u) := by
  simp only [acceptsRest, run_append]
  cases r.run t <;> rfl

theorem exists_step_of_acceptsRest {t : List Char} (haccepts : r.acceptsRest (c :: t) = true) :
    ∃ next, r.step c = some next ∧ next.acceptsRest t = true := by
  rw [acceptsRest, Option.any_eq_true] at haccepts
  obtain ⟨last, hrun, haccepts⟩ := haccepts
  obtain ⟨next, hstep, hrest⟩ := Option.bind_eq_some_iff.1 hrun
  refine ⟨next, hstep, ?_⟩
  rw [acceptsRest, hrest, Option.any_some, haccepts]

end Reader

theorem isValid_append (t u : List Char) :
    isValid (t ++ u) = (Reader.start.run t).any (·.acceptsRest u) :=
  Reader.acceptsRest_append .start t u

/-- A document keeps being one when the blanks around it are trimmed, whatever blanks they are. -/
theorem isValid_trim {t : List Char} (hvalid : isValid t = true) :
    isValid (Text.trim t) = true := by
  obtain ⟨before, after, hbefore, hafter, ht⟩ := Text.exists_blanks_around_trim t
  rw [ht, List.append_assoc, isValid_append, Option.any_eq_true] at hvalid
  obtain ⟨r, hrun, haccepts⟩ := hvalid
  obtain rfl := Reader.run_eq_start_of_textBlank hbefore hrun
  rw [← isValid, isValid_append, Option.any_eq_true] at haccepts
  obtain ⟨middle, hmiddle, haccepts⟩ := haccepts
  rw [Reader.acceptsRest, Option.any_eq_true] at haccepts
  obtain ⟨last, hlast, haccepts⟩ := haccepts
  rw [isValid, Reader.acceptsRest, hmiddle, Option.any_some]
  exact Reader.accepts_of_textBlank (Reader.fits_of_run Reader.fits_start hmiddle) hafter hlast haccepts

/-- A document is not blank. -/
theorem trim_ne_nil_of_isValid {t : List Char} (hvalid : isValid t = true) :
    Text.trim t ≠ [] := by
  intro htrim
  have hempty := isValid_trim hvalid
  rw [htrim] at hempty
  cases hempty

end Rejoin.Json
