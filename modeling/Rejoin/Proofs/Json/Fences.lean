import Rejoin.Proofs.Json.Document
import Rejoin.Proofs.Text.Lines
import Rejoin.Structure.Fence

/-!
Code fences in documents. A document has backticks in its strings only, and a string has none of the
characters that end a line but three, which are no controls of ASCII. So a line of a document can be
a fence only if it stands in a string behind one of these three.
-/

namespace Rejoin

open Structure Text

namespace Structure

namespace Fence

/-- A fence line starts with the mark of a fence. -/
theorem marker_prefix_of_isFenceLine {line : List Char} (hfence : isFenceLine line = true) :
    marker <+: line := by
  have htrim : marker <+: trimRight line := by
    rw [isFenceLine] at hfence
    split at hfence
    · next a b c tag htrim =>
      simp only [Bool.and_eq_true, decide_eq_true_eq] at hfence
      obtain ⟨⟨⟨rfl, rfl⟩, rfl⟩, _⟩ := hfence
      rw [htrim]
      exact List.prefix_append _ tag
    · cases hfence
  exact htrim.trans ⟨_, trimRight_append_blanks line⟩

end Fence

namespace FenceScan

/-- Other lines than fences mean nothing to the scan. -/
theorem foldl_step_of_forall_not {ls : List (List Char)} (s : FenceScan)
    (hnone : ∀ line ∈ ls, Fence.isFenceLine line = false) : ls.foldl step s = s := by
  induction ls with
  | nil => rfl
  | cons line rest ih =>
    rw [List.forall_mem_cons] at hnone
    rw [List.foldl_cons, step, hnone.1, if_neg Bool.false_ne_true, ih hnone.2]

/-- A text is inside a code block only behind a fence line. -/
theorem exists_isFenceLine_of_inside {t : List Char} (hinside : (ofText t).inside = true) :
    ∃ line ∈ lines t, Fence.isFenceLine line = true := by
  by_contra hnone
  have hlines : ∀ line ∈ lines t, Fence.isFenceLine line = false := by
    intro line hline
    rw [Bool.eq_false_iff]
    exact fun hfence => hnone ⟨line, hline, hfence⟩
  rw [ofText, foldl_step_of_forall_not _ hlines] at hinside
  cases hinside

/-- A text that is inside a code block is not blank. -/
theorem trim_ne_nil_of_inside {t : List Char} (hinside : (ofText t).inside = true) :
    trim t ≠ [] := by
  obtain ⟨line, hline, hfence⟩ := exists_isFenceLine_of_inside hinside
  have hmarker := (Fence.marker_prefix_of_isFenceLine hfence).isInfix.trans (infix_of_mem_lines hline)
  have htrim : Fence.marker <:+: trim t := trim_infix_trim hmarker
  intro hnil
  rw [hnil] at htrim
  cases List.eq_nil_of_infix_nil htrim

end FenceScan

end Structure

namespace Json

/-- The characters that end a line and that a string may hold as they are. -/
def wideLineEnds : List Char := ['\u0085', '\u2028', '\u2029']

/-- A character that ends a line is one of those that a string may hold, or a control. -/
theorem mem_wideLineEnds_or_lt {c : Char} (hend : isLineEnd c = true) :
    c ∈ wideLineEnds ∨ c < ' ' := by
  simp only [isLineEnd, Bool.or_eq_true, decide_eq_true_eq] at hend
  obtain ((((((((rfl | rfl) | rfl) | rfl) | rfl) | rfl) | rfl) | rfl) | rfl) | rfl := hend <;> decide

namespace Reader

variable {r next : Reader} {c : Char}

theorem not_lt_of_isHexDigit (hc : isHexDigit c = true) : ¬ c < ' ' := by
  simp only [isHexDigit, isDigit, Bool.or_eq_true, Bool.and_eq_true, decide_eq_true_eq, Char.le_def,
    UInt32.le_iff_toNat_le] at hc
  rw [Char.lt_def, UInt32.lt_iff_toNat_lt]
  have hspace : (' ' : Char).val.toNat = 32 := rfl
  have hdigit : ('0' : Char).val.toNat = 48 := rfl
  have hlower : ('a' : Char).val.toNat = 97 := rfl
  have hupper : ('A' : Char).val.toNat = 65 := rfl
  omega

theorem not_lt_of_isEscape (hc : isEscape c = true) : ¬ c < ' ' := by
  simp only [isEscape, Bool.or_eq_true, decide_eq_true_eq] at hc
  obtain ((((((rfl | rfl) | rfl) | rfl) | rfl) | rfl) | rfl) | rfl := hc <;> decide

variable [Limits]

/-- A backtick stands in a string. -/
theorem isString_of_step_tick (hfits : r.Fits) (hstep : r.step Fence.tick = some next) :
    r.mode.isString = true := by
  have hafter (frames : List Container) : stepAfter frames Fence.tick = none := by
    cases frames with
    | nil => rfl
    | cons k outer => cases k <;> rfl
  obtain ⟨frames, mode⟩ := r
  cases mode with
  | value | elementOrEnd | keyOrEnd | key | colon => cases hstep
  | afterValue =>
    rw [step, hafter] at hstep
    cases hstep
  | string => rfl
  | name rest =>
    cases rest with
    | nil => cases hstep
    | cons expected rest =>
      obtain ⟨hc, _⟩ | ⟨_, hstep⟩ := eq_some_of_ite hstep
      · have hletter := (Bool.and_eq_true_iff.1 hfits).1
        rw [← hc] at hletter
        cases hletter
      · cases hstep
  | number part =>
    have hnumber := (stepNumber_of_not_isNumeral (c := Fence.tick) rfl frames part).symm.trans hstep
    rw [hafter, ite_self] at hnumber
    cases hnumber

/-- A string goes on behind a character only if that is no control. -/
theorem not_lt_of_step_isString (hfits : r.Fits) (hstep : r.step c = some next)
    (hin : next.mode.isString = true) (hquote : c ≠ '"') : ¬ c < ' ' := by
  cases hout : r.mode.isString with
  | false =>
    have hnot (h : next.mode.isString = false) : False := by
      rw [hin] at h
      cases h
    cases move_of_step hfits hstep with
    | token _ _ _ hnext => exact (hnot hnext).elim
    | enter k _ _ hnext =>
      subst hnext
      exact (hnot (by cases k <;> rfl)).elim
    | leave _ _ _ _ hnext =>
      rw [hnext] at hin
      cases hin
    | quote _ _ hchar => exact absurd hchar hquote
    | unquote _ hmode | backslash _ hmode | escaped _ _ hmode | literal _ _ _ hmode =>
      rw [hmode] at hout
      cases hout
  | true =>
    obtain ⟨frames, mode⟩ := r
    cases mode with
    | string isKey part =>
      cases part with
      | plain =>
        obtain ⟨hc, _⟩ | ⟨_, hstep⟩ := eq_some_of_ite hstep
        · exact absurd hc hquote
        obtain ⟨rfl, _⟩ | ⟨_, hstep⟩ := eq_some_of_ite hstep
        · decide
        intro hlt
        rw [if_pos hlt] at hstep
        cases hstep
      | escape =>
        obtain ⟨rfl, _⟩ | ⟨_, hstep⟩ := eq_some_of_ite hstep
        · decide
        obtain ⟨hc, _⟩ | ⟨_, hstep⟩ := eq_some_of_ite hstep
        · exact not_lt_of_isEscape hc
        · cases hstep
      | hex needed =>
        obtain ⟨hc, _⟩ | ⟨_, hstep⟩ := eq_some_of_ite hstep
        · exact not_lt_of_isHexDigit hc
        · cases hstep
    | _ => cases hout

end Reader

variable [Limits]

/-- A fence line of a document stands behind a character that ends a line and that a string may
    hold. -/
theorem exists_infix_of_isFenceLine {t line : List Char} (hvalid : isValid t = true)
    (hline : line ∈ lines t) (hfence : Fence.isFenceLine line = true) :
    ∃ c ∈ wideLineEnds, c :: Fence.marker <:+: t := by
  have hmarker := Fence.marker_prefix_of_isFenceLine hfence
  obtain hfirst | ⟨c, hend, hbehind⟩ := prefix_or_standsBehindEnd_of_mem_lines hline
  · -- no document starts with a backtick
    obtain ⟨rest, rfl⟩ := hmarker.trans hfirst
    cases hvalid
  · have hmark : c :: Fence.marker <:+: t :=
      (List.cons_prefix_cons.2 ⟨rfl, hmarker⟩).isInfix.trans hbehind
    refine ⟨c, ?_, hmark⟩
    obtain hwide | hcontrol := mem_wideLineEnds_or_lt hend
    · exact hwide
    obtain ⟨before, after, rfl⟩ := hmark
    rw [List.append_assoc, isValid_append, Option.any_eq_true] at hvalid
    obtain ⟨r, hrun, hrest⟩ := hvalid
    obtain ⟨middle, hstep, hrest⟩ := Reader.exists_step_of_acceptsRest hrest
    obtain ⟨next, htick, _⟩ := Reader.exists_step_of_acceptsRest hrest
    have hfits := Reader.fits_of_run Reader.fits_start hrun
    have hin := Reader.isString_of_step_tick (hfits.move (Reader.move_of_step hfits hstep)) htick
    have hquote : c ≠ '"' := by
      rintro rfl
      cases hend
    exact absurd hcontrol (Reader.not_lt_of_step_isString hfits hstep hin hquote)

/-- A document is inside a code block only if one of its strings holds the mark of a fence behind a
    character that ends a line. -/
theorem inside_eq_false {t : List Char} (hvalid : isValid t = true)
    (hnone : ∀ c ∈ wideLineEnds, ¬ c :: Fence.marker <:+: t) :
    (FenceScan.ofText t).inside = false := by
  rw [Bool.eq_false_iff]
  intro hinside
  obtain ⟨line, hline, hfence⟩ := FenceScan.exists_isFenceLine_of_inside hinside
  obtain ⟨c, hc, hmark⟩ := exists_infix_of_isFenceLine hvalid hline hfence
  exact hnone c hc hmark

end Json

end Rejoin
