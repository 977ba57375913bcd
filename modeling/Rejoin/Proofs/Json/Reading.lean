import Rejoin.Proofs.Json.Agreement
import Rejoin.Proofs.Json.Document
import Rejoin.Proofs.Json.Grammar
import Rejoin.Proofs.Json.Leading

/-!
The reader reads the grammar. Every rule has one lemma, which says where the reader stands behind a
text of the rule. A value is read in the containers that are open around it and leaves them open, so
a text that breaks off behind an element closes to a document.
-/

namespace Rejoin.Json

open Structure

namespace Mode

/-- Whether blanks are passed over here. -/
def isBetween : Mode → Bool
  | .value | .elementOrEnd | .keyOrEnd | .key | .colon | .afterValue => true
  | .string _ _ | .name _ | .number _ => false

/-- Whether a value may start here. -/
def isReady : Mode → Bool
  | .value | .elementOrEnd => true
  | _ => false

theorem isBetween_of_isReady {m : Mode} (hready : m.isReady = true) : m.isBetween = true := by
  cases m <;> first | rfl | cases hready

end Mode

/-- Whether an item of the container may start here: it was just opened, or a comma was read. -/
def Container.StartsItem (k : Container) (m : Mode) : Prop := m = k.entry ∨ m = k.nextItem

theorem not_isNumeral_of_isBlank {c : Char} (hc : isBlank c = true) : isNumeral c = false := by
  simp only [isBlank, Bool.or_eq_true, decide_eq_true_eq] at hc
  rcases hc with ((rfl | rfl) | rfl) | rfl <;> rfl

theorem startsElement_opener (k : Container) : startsElement k.opener = true := by
  cases k <;> rfl

theorem endsElement_closer (k : Container) : endsElement k.closer = true := by
  cases k <;> rfl

theorem IsStringTail.exists_eq_append {t : List Char} (ht : IsStringTail t) :
    ∃ middle, t = middle ++ ['"'] := by
  induction ht with
  | quote => exact ⟨[], rfl⟩
  | @plain c rest _ _ _ _ ih =>
    obtain ⟨middle, rfl⟩ := ih
    exact ⟨c :: middle, rfl⟩
  | @escape c rest _ _ ih =>
    obtain ⟨middle, rfl⟩ := ih
    exact ⟨'\\' :: c :: middle, rfl⟩
  | @unit a b c d rest _ _ ih =>
    obtain ⟨middle, rfl⟩ := ih
    exact ⟨'\\' :: 'u' :: a :: b :: c :: d :: middle, rfl⟩

variable [Limits]

namespace Reader

variable {r next : Reader} {c : Char} {frames : List Container} {m : Mode}

theorem step_of_isBlank (hbetween : r.mode.isBetween = true) (hc : isBlank c = true) :
    r.step c = some r := by
  obtain ⟨frames, mode⟩ := r
  cases mode <;> first | exact if_pos hc | cases hbetween

theorem run_blanks (hbetween : r.mode.isBetween = true) {w : List Char}
    (hw : w.all isBlank = true) : r.run w = some r := by
  induction w with
  | nil => rfl
  | cons c rest ih =>
    obtain ⟨hc, hrest⟩ := Bool.and_eq_true_iff.1 hw
    rw [run_cons_of_step (step_of_isBlank hbetween hc), ih hrest]

/-- Behind a complete value blanks leave the value complete. -/
theorem exists_run_blanks_of_isComplete (hcomplete : m.isComplete = true) {w : List Char}
    (hw : w.all isBlank = true) :
    ∃ m' : Mode, m'.isComplete = true ∧ (⟨frames, m⟩ : Reader).run w = some ⟨frames, m'⟩ := by
  cases w with
  | nil => exact ⟨m, hcomplete, rfl⟩
  | cons c rest =>
    obtain ⟨hc, hrest⟩ := Bool.and_eq_true_iff.1 hw
    have hstep : (⟨frames, m⟩ : Reader).step c = some ⟨frames, .afterValue⟩ := by
      rw [step_of_isComplete hcomplete (not_isNumeral_of_isBlank hc)]
      exact if_pos hc
    exact ⟨.afterValue, rfl, by rw [run_cons_of_step hstep, run_blanks rfl hrest]⟩

theorem step_escape {isKey : Bool} (hc : isEscape c = true) :
    (⟨frames, .string isKey .escape⟩ : Reader).step c = some ⟨frames, .string isKey .plain⟩ := by
  have hu : c ≠ 'u' := by
    rintro rfl
    cases hc
  exact (if_neg hu).trans (if_pos hc)

theorem step_hex {isKey : Bool} {needed : Nat} (hc : isHexDigit c = true) :
    (⟨frames, .string isKey (.hex needed)⟩ : Reader).step c =
      some ⟨frames, .string isKey (if needed ≤ 1 then .plain else .hex (needed - 1))⟩ :=
  if_pos hc

theorem run_unit {isKey : Bool} {digits : List Char} (hlength : digits.length = 4)
    (hhex : digits.all isHexDigit = true) :
    (⟨frames, .string isKey (.hex 4)⟩ : Reader).run digits =
      some ⟨frames, .string isKey .plain⟩ := by
  match digits, hlength with
  | [a, b, c, d], _ =>
    simp only [List.all_cons, List.all_nil, Bool.and_true, Bool.and_eq_true] at hhex
    obtain ⟨ha, hb, hc, hd⟩ := hhex
    simp [run, step_hex ha, step_hex hb, step_hex hc, step_hex hd]

theorem run_stringTail {isKey : Bool} {t : List Char} (ht : IsStringTail t) :
    (⟨frames, .string isKey .plain⟩ : Reader).run t =
      some ⟨frames, if isKey then .colon else .afterValue⟩ := by
  induction ht with
  | quote => rfl
  | @plain c rest hquote hslash hcontrol _ ih =>
    have hstep : (⟨frames, .string isKey .plain⟩ : Reader).step c =
        some ⟨frames, .string isKey .plain⟩ :=
      (if_neg hquote).trans ((if_neg hslash).trans (if_neg hcontrol))
    rw [run_cons_of_step hstep, ih]
  | escape hc _ ih =>
    have hslash : (⟨frames, .string isKey .plain⟩ : Reader).step '\\' =
        some ⟨frames, .string isKey .escape⟩ := rfl
    rw [run_cons_of_step hslash, run_cons_of_step (step_escape hc), ih]
  | @unit a b c d rest hhex _ ih =>
    have hstart : (⟨frames, .string isKey .plain⟩ : Reader).run ['\\', 'u'] =
        some ⟨frames, .string isKey (.hex 4)⟩ := rfl
    have hunit := run_append_of_run hstart ([a, b, c, d] ++ rest)
    rw [run_append_of_run (run_unit rfl hhex), ih] at hunit
    exact hunit

theorem run_string (hready : m.isReady = true) {t : List Char} (ht : IsString t) :
    (⟨frames, m⟩ : Reader).run t = some ⟨frames, .afterValue⟩ := by
  obtain ⟨htail⟩ := ht
  have hstep : (⟨frames, m⟩ : Reader).step '"' = some ⟨frames, .string false .plain⟩ := by
    cases m <;> first | rfl | cases hready
  rw [run_cons_of_step hstep]
  exact run_stringTail htail

theorem run_key (hm : Container.object.StartsItem m) {t : List Char} (ht : IsString t) :
    (⟨frames, m⟩ : Reader).run t = some ⟨frames, .colon⟩ := by
  obtain ⟨htail⟩ := ht
  have hstep : (⟨frames, m⟩ : Reader).step '"' = some ⟨frames, .string true .plain⟩ := by
    rcases hm with rfl | rfl <;> rfl
  rw [run_cons_of_step hstep]
  exact run_stringTail htail

/-- A value that starts with none of the quotation mark and the openers is read alike in a new array
    and elsewhere. -/
theorem step_of_isReady (hready : m.isReady = true) (hblank : isBlank c = false) (hend : c ≠ ']') :
    (⟨frames, m⟩ : Reader).step c = stepValue frames c := by
  have hblank : ¬ isBlank c = true := by
    rw [hblank]
    decide
  cases m with
  | value => exact if_neg hblank
  | elementOrEnd => exact (if_neg hblank).trans (if_neg hend)
  | _ => cases hready

theorem run_digits (part : NumberPart)
    (hstep : ∀ c, isDigit c = true →
      (⟨frames, .number part⟩ : Reader).step c = some ⟨frames, .number part⟩)
    {t : List Char} (ht : t.all isDigit = true) :
    (⟨frames, .number part⟩ : Reader).run t = some ⟨frames, .number part⟩ := by
  induction t with
  | nil => rfl
  | cons c rest ih =>
    obtain ⟨hc, hrest⟩ := Bool.and_eq_true_iff.1 ht
    rw [run_cons_of_step (hstep c hc), ih hrest]

theorem run_integerDigits {n : Nat} {t : List Char} (ht : t.all isDigit = true) :
    (⟨frames, .number (.integer n)⟩ : Reader).run t =
      some ⟨frames, .number (.integer (n + t.length))⟩ := by
  induction t generalizing n with
  | nil => rfl
  | cons c rest ih =>
    obtain ⟨hc, hrest⟩ := Bool.and_eq_true_iff.1 ht
    have hstep : (⟨frames, .number (.integer n)⟩ : Reader).step c =
        some ⟨frames, .number (.integer (n + 1))⟩ := if_pos hc
    rw [run_cons_of_step hstep, ih hrest, List.length_cons, Nat.add_assoc, Nat.add_comm 1]

/-- A number starts with a digit of its whole part, be it the first of the value or behind a sign. -/
theorem step_firstDigit (hm : m.isReady = true ∨ m = .number .minus) (hc : isDigit c = true) :
    (⟨frames, m⟩ : Reader).step c =
      some ⟨frames, .number (if c = '0' then .zero else .integer 1)⟩ := by
  have hvisible := not_isBlank_of_isVisible (isVisible_of_isDigit hc)
  have hne (a : Char) (ha : isDigit a = false) : c ≠ a := by
    rintro rfl
    rw [hc] at ha
    cases ha
  have hblank : isBlank c = false := by
    simp [isBlank, hne ' ' rfl, hne '\t' rfl, hne '\n' rfl, hne '\r' rfl]
  rcases hm with hready | rfl
  · rw [step_of_isReady hready hblank (hne ']' rfl)]
    simp only [stepValue, if_neg (hne '"' rfl), if_neg (hne '\x7b' rfl), if_neg (hne '[' rfl),
      if_neg (hne 'n' rfl), if_neg (hne 't' rfl), if_neg (hne 'f' rfl), if_neg (hne 'N' rfl),
      if_neg (hne 'I' rfl), if_neg (hne '-' rfl), if_pos hc]
    split <;> rfl
  · simp only [step, stepNumber, if_pos hc]
    split <;> rfl

theorem exists_run_wholePart (frames : List Container) (hm : m.isReady = true ∨ m = .number .minus) {t : List Char}
    (ht : IsWholePart t) :
    ∃ part, (part = .zero ∨ part = .integer t.length) ∧
      (⟨frames, m⟩ : Reader).run t = some ⟨frames, .number part⟩ := by
  cases ht with
  | zero =>
    refine ⟨.zero, .inl rfl, ?_⟩
    rw [run_cons_of_step (step_firstDigit hm rfl)]
    rfl
  | @digits d rest hd hzero hrest =>
    refine ⟨.integer (rest.length + 1), .inr rfl, ?_⟩
    rw [run_cons_of_step (step_firstDigit hm hd), if_neg hzero, run_integerDigits hrest,
      Nat.add_comm]

theorem run_fraction {part : NumberPart} (hpart : part = .zero ∨ ∃ n, part = .integer n)
    {d : Char} {rest : List Char} (hd : isDigit d = true) (hrest : rest.all isDigit = true) :
    (⟨frames, .number part⟩ : Reader).run ('.' :: d :: rest) =
      some ⟨frames, .number .fraction⟩ := by
  have hpoint : (⟨frames, .number part⟩ : Reader).step '.' = some ⟨frames, .number .point⟩ := by
    rcases hpart with rfl | ⟨n, rfl⟩ <;> rfl
  have hdigit : (⟨frames, .number .point⟩ : Reader).step d = some ⟨frames, .number .fraction⟩ :=
    if_pos hd
  rw [run_cons_of_step hpoint, run_cons_of_step hdigit]
  exact run_digits .fraction (fun _ hc => if_pos hc) hrest

theorem run_exponent {part : NumberPart}
    (hpart : part = .zero ∨ part = .fraction ∨ ∃ n, part = .integer n)
    {letter d : Char} {sign rest : List Char} (hletter : letter = 'e' ∨ letter = 'E')
    (hsign : sign = [] ∨ sign = ['+'] ∨ sign = ['-']) (hd : isDigit d = true)
    (hrest : rest.all isDigit = true) :
    (⟨frames, .number part⟩ : Reader).run (letter :: (sign ++ d :: rest)) =
      some ⟨frames, .number .exponentDigits⟩ := by
  have hexponent : (⟨frames, .number part⟩ : Reader).step letter =
      some ⟨frames, .number .exponent⟩ := by
    rcases hpart with rfl | rfl | ⟨n, rfl⟩ <;> rcases hletter with rfl | rfl <;> rfl
  have hdigit : (⟨frames, .number .exponent⟩ : Reader).step d =
      some ⟨frames, .number .exponentDigits⟩ := if_pos hd
  have hsigned : (⟨frames, .number .exponentSign⟩ : Reader).step d =
      some ⟨frames, .number .exponentDigits⟩ := if_pos hd
  have hdigits : (⟨frames, .number .exponentDigits⟩ : Reader).run rest =
      some ⟨frames, .number .exponentDigits⟩ :=
    run_digits .exponentDigits (fun _ hc => if_pos hc) hrest
  have hsignStep (c : Char) (hc : c = '+' ∨ c = '-') :
      (⟨frames, .number .exponent⟩ : Reader).step c = some ⟨frames, .number .exponentSign⟩ := by
    rcases hc with rfl | rfl <;> rfl
  rw [run_cons_of_step hexponent]
  rcases hsign with rfl | rfl | rfl
  · rw [List.nil_append, run_cons_of_step hdigit, hdigits]
  · rw [List.singleton_append, run_cons_of_step (hsignStep _ (.inl rfl)),
      run_cons_of_step hsigned, hdigits]
  · rw [List.singleton_append, run_cons_of_step (hsignStep _ (.inr rfl)),
      run_cons_of_step hsigned, hdigits]

/-- Behind a number the reader has a number that is whole. -/
theorem exists_run_number (hready : m.isReady = true) {t : List Char} (ht : IsNumber t) :
    ∃ part, isWhole part = true ∧
      (⟨frames, m⟩ : Reader).run t = some ⟨frames, .number part⟩ := by
  obtain ⟨hsign, hwhole, hfraction, hexponent, hlimit⟩ := ht
  next sign whole fraction exponent =>
  obtain ⟨m', hm', hrunSign⟩ : ∃ m' : Mode, (m'.isReady = true ∨ m' = .number .minus) ∧
      (⟨frames, m⟩ : Reader).run sign = some ⟨frames, m'⟩ := by
    rcases hsign with rfl | rfl
    · exact ⟨m, .inl hready, rfl⟩
    · refine ⟨.number .minus, .inr rfl, ?_⟩
      rw [run_cons_of_step (step_of_isReady hready rfl (by decide))]
      rfl
  obtain ⟨part, hpart, hrunWhole⟩ := exists_run_wholePart frames hm' hwhole
  have hunits : part = .zero ∨ ∃ n, part = .integer n := hpart.imp_right fun h => ⟨_, h⟩
  rw [run_append_of_run hrunSign, run_append_of_run hrunWhole]
  cases hfraction with
  | absent =>
    cases hexponent with
    | absent =>
      refine ⟨part, ?_, rfl⟩
      rcases hpart with rfl | rfl
      · rfl
      · exact decide_eq_true (hlimit rfl rfl)
    | present hletter hexponentSign hd hrest =>
      exact ⟨.exponentDigits, rfl,
        run_exponent (hunits.imp_right .inr) hletter hexponentSign hd hrest⟩
  | present hd hrest =>
    rw [run_append_of_run (run_fraction hunits hd hrest)]
    cases hexponent with
    | absent => exact ⟨.fraction, rfl, rfl⟩
    | present hletter hexponentSign hd hrest =>
      exact ⟨.exponentDigits, rfl, run_exponent (.inr (.inl rfl)) hletter hexponentSign hd hrest⟩

theorem run_name (hready : m.isReady = true) {t : List Char} (ht : t ∈ names) :
    (⟨frames, m⟩ : Reader).run t = some ⟨frames, .afterValue⟩ := by
  simp only [names, List.mem_cons, List.not_mem_nil, or_false] at ht
  cases m with
  | value | elementOrEnd => rcases ht with rfl | rfl | rfl | rfl | rfl | rfl <;> rfl
  | _ => cases hready

/-- What stands before the value of an item leaves the reader before that value. -/
theorem exists_run_lead {k : Container} (hm : k.StartsItem m) {t : List Char} (ht : IsLead k t) :
    ∃ m' : Mode, m'.isReady = true ∧ (⟨frames, m⟩ : Reader).run t = some ⟨frames, m'⟩ := by
  cases ht with
  | element hw =>
    have hready : m.isReady = true := by rcases hm with rfl | rfl <;> rfl
    exact ⟨m, hready, run_blanks (Mode.isBetween_of_isReady hready) hw⟩
  | @member w key before after hw hkey hbefore hafter =>
    have hbetween : m.isBetween = true := by rcases hm with rfl | rfl <;> rfl
    have hcolon : (⟨frames, .colon⟩ : Reader).step ':' = some ⟨frames, .value⟩ := rfl
    refine ⟨.value, rfl, ?_⟩
    rw [run_append_of_run (run_blanks hbetween hw), run_append_of_run (run_key hm hkey),
      run_append_of_run (run_blanks rfl hbefore), run_cons_of_step hcolon, run_blanks rfl hafter]

theorem step_opener (hready : m.isReady = true) (hdepth : frames.length < Limits.depth)
    (k : Container) :
    (⟨frames, m⟩ : Reader).step k.opener = some ⟨k :: frames, k.entry⟩ := by
  have hblank : isBlank k.opener = false := by cases k <;> rfl
  rw [step_of_isReady hready hblank (by cases k <;> decide)]
  cases k <;> exact if_pos hdepth

theorem step_closer_of_isComplete (hcomplete : m.isComplete = true) (k : Container) :
    (⟨k :: frames, m⟩ : Reader).step k.closer = some ⟨frames, .afterValue⟩ := by
  rw [step_of_isComplete hcomplete (by cases k <;> rfl)]
  cases k <;> rfl

theorem step_comma (hcomplete : m.isComplete = true) (k : Container) :
    (⟨k :: frames, m⟩ : Reader).step ',' = some ⟨k :: frames, k.nextItem⟩ := by
  rw [step_of_isComplete hcomplete rfl]
  cases k <;> rfl

theorem step_closer_entry (k : Container) :
    (⟨k :: frames, k.entry⟩ : Reader).step k.closer = some ⟨frames, .afterValue⟩ := by
  cases k <;> rfl

mutual

/-- A string, an array or an object is read to its end, and what was open stays open. -/
theorem run_element {n : Nat} {t : List Char} (ht : IsElement n t) {frames : List Container}
    {m : Mode} (hready : m.isReady = true) (hdepth : frames.length + n ≤ Limits.depth) :
    (⟨frames, m⟩ : Reader).run t = some ⟨frames, .afterValue⟩ := by
  match ht with
  | .string ht => exact run_string hready ht
  | .empty k hw =>
    have hblanks := run_blanks (r := ⟨k :: frames, k.entry⟩) (by cases k <;> rfl) hw
    rw [run_cons_of_step (step_opener hready (by omega) k), run_append_of_run hblanks,
      run_cons_of_step (step_closer_entry k)]
    rfl
  | .filled (n := n) k ht =>
    have hinner : (k :: frames).length + n ≤ Limits.depth := by
      rw [List.length_cons]
      omega
    obtain ⟨m', hcomplete, hitems⟩ := exists_run_items ht (.inl rfl) hinner
    rw [run_cons_of_step (step_opener hready (by omega) k), run_append_of_run hitems,
      run_cons_of_step (step_closer_of_isComplete hcomplete k)]
    rfl
termination_by structural ht

/-- A value is read up to where it may end. -/
theorem exists_run_value {n : Nat} {t : List Char} (ht : IsValue n t) {frames : List Container}
    {m : Mode} (hready : m.isReady = true) (hdepth : frames.length + n ≤ Limits.depth) :
    ∃ m' : Mode, m'.isComplete = true ∧ (⟨frames, m⟩ : Reader).run t = some ⟨frames, m'⟩ := by
  match ht with
  | .element ht => exact ⟨.afterValue, rfl, run_element ht hready hdepth⟩
  | .number ht =>
    obtain ⟨part, hwhole, hrun⟩ := exists_run_number hready ht
    exact ⟨.number part, hwhole, hrun⟩
  | .name ht => exact ⟨.afterValue, rfl, run_name hready ht⟩
termination_by structural ht

/-- The items of a container are read up to where the container may end. -/
theorem exists_run_items {k : Container} {n : Nat} {t : List Char} (ht : IsItems k n t)
    {frames : List Container} {m : Mode} (hm : k.StartsItem m)
    (hdepth : (k :: frames).length + n ≤ Limits.depth) :
    ∃ m' : Mode, m'.isComplete = true ∧
      (⟨k :: frames, m⟩ : Reader).run t = some ⟨k :: frames, m'⟩ := by
  match ht with
  | .last hlead hv hw =>
    obtain ⟨m₁, hready, hrunLead⟩ := exists_run_lead hm hlead
    obtain ⟨m₂, hcomplete, hrunValue⟩ := exists_run_value hv hready hdepth
    obtain ⟨m₃, hcomplete, hrunBlanks⟩ := exists_run_blanks_of_isComplete hcomplete hw
    refine ⟨m₃, hcomplete, ?_⟩
    rw [run_append_of_run hrunLead, run_append_of_run hrunValue, hrunBlanks]
  | .more hlead hv hw hrest =>
    obtain ⟨m₁, hready, hrunLead⟩ := exists_run_lead hm hlead
    obtain ⟨m₂, hcomplete, hrunValue⟩ := exists_run_value hv hready hdepth
    obtain ⟨m₃, hcomplete, hrunBlanks⟩ := exists_run_blanks_of_isComplete hcomplete hw
    obtain ⟨m₄, hlast, hrunRest⟩ := exists_run_items hrest (.inr rfl) hdepth
    refine ⟨m₄, hlast, ?_⟩
    rw [run_append_of_run hrunLead, run_append_of_run hrunValue, run_append_of_run hrunBlanks,
      run_cons_of_step (step_comma hcomplete k), hrunRest]
termination_by structural ht

end

/-- Items with commas behind them leave the reader where the next item starts. -/
theorem exists_run_itemsBefore {k : Container} {n : Nat} {t : List Char}
    (ht : IsItemsBefore k n t) (hm : k.StartsItem m)
    (hdepth : (k :: frames).length + n ≤ Limits.depth) :
    ∃ m', k.StartsItem m' ∧ (⟨k :: frames, m⟩ : Reader).run t = some ⟨k :: frames, m'⟩ := by
  induction ht generalizing m with
  | nil => exact ⟨m, hm, rfl⟩
  | cons hlead hv hw _ ih =>
    obtain ⟨m₁, hready, hrunLead⟩ := exists_run_lead hm hlead
    obtain ⟨m₂, hcomplete, hrunValue⟩ := exists_run_value hv hready hdepth
    obtain ⟨m₃, hcomplete, hrunBlanks⟩ := exists_run_blanks_of_isComplete hcomplete hw
    obtain ⟨m₄, hnext, hrunRest⟩ := ih (.inr rfl)
    refine ⟨m₄, hnext, ?_⟩
    rw [run_append_of_run hrunLead, run_append_of_run hrunValue, run_append_of_run hrunBlanks,
      run_cons_of_step (step_comma hcomplete k), hrunRest]

/-- Behind an open text the reader is behind a value, in the containers that the text opened. -/
theorem exists_run_openText {n : Nat} {t : List Char} (ht : IsOpenText n t)
    (hready : m.isReady = true) (hdepth : frames.length + n ≤ Limits.depth) :
    ∃ inner, (⟨frames, m⟩ : Reader).run t = some ⟨inner, .afterValue⟩ := by
  induction ht generalizing frames m with
  | element ht => exact ⟨frames, run_element ht hready hdepth⟩
  | @inside n items lead t k hitems hlead _ ih =>
    have hinner : (k :: frames).length + n ≤ Limits.depth := by
      rw [List.length_cons]
      omega
    obtain ⟨m₁, hnext, hrunItems⟩ := exists_run_itemsBefore hitems (.inl rfl) hinner
    obtain ⟨m₂, hready', hrunLead⟩ := exists_run_lead hnext hlead
    obtain ⟨inner, hrun⟩ := ih hready' hinner
    refine ⟨inner, ?_⟩
    rw [run_cons_of_step (step_opener hready (by omega) k), run_append_of_run hrunItems,
      run_append_of_run hrunLead, hrun]

theorem run_closers (frames : List Container) :
    (⟨frames, .afterValue⟩ : Reader).run (frames.map Container.closer) = some finished := by
  induction frames with
  | nil => rfl
  | cons k outer ih => rw [List.map_cons, run_cons_of_step (step_closer_of_isComplete rfl k), ih]

end Reader

/-- A text that breaks off behind an element, in containers that are open, closes to a document. -/
theorem isValid_close_of_isOpenText {t : List Char} (ht : IsOpenText Limits.depth t) :
    isValid (close t) = true := by
  obtain ⟨inner, hrun⟩ : ∃ inner, Reader.start.run t = some ⟨inner, .afterValue⟩ :=
    Reader.exists_run_openText ht rfl (Nat.le_of_eq (Nat.zero_add Limits.depth))
  have hclosing : closing t = inner.map Container.closer :=
    (Reader.agrees_start.run hrun).suffix_eq
  rw [close, isValid_append, hrun, Option.any_some, Reader.acceptsRest, hclosing,
    Reader.run_closers]
  rfl

theorem IsElement.exists_ends {n : Nat} {t : List Char} (ht : IsElement n t) :
    ∃ first middle last, t = first :: (middle ++ [last]) ∧ startsElement first = true ∧
      endsElement last = true := by
  cases ht with
  | string ht =>
    obtain ⟨htail⟩ := ht
    obtain ⟨middle, rfl⟩ := htail.exists_eq_append
    exact ⟨'"', middle, '"', rfl, rfl, rfl⟩
  | @empty n w k hw =>
    exact ⟨k.opener, w, k.closer, rfl, startsElement_opener k, endsElement_closer k⟩
  | @filled n t k ht =>
    exact ⟨k.opener, t, k.closer, rfl, startsElement_opener k, endsElement_closer k⟩

/-- An open text starts like an element and, at another character, ends like one. -/
theorem IsOpenText.exists_ends {n : Nat} {t : List Char} (ht : IsOpenText n t) :
    ∃ first middle last, t = first :: (middle ++ [last]) ∧ startsElement first = true ∧
      endsElement last = true := by
  induction ht with
  | element ht => exact ht.exists_ends
  | @inside n items lead t k _ _ _ ih =>
    obtain ⟨first, middle, last, rfl, _, hlast⟩ := ih
    refine ⟨k.opener, items ++ (lead ++ first :: middle), last, ?_, startsElement_opener k, hlast⟩
    simp only [List.append_assoc, List.cons_append]

end Rejoin.Json
