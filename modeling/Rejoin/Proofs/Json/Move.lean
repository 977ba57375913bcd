import Mathlib.Data.List.Basic
import Rejoin.Json.Reader
import Rejoin.Structure.Bracket

/-!
What one character can do to the reader. The reader has many modes, but seen from outside a step is
one of a few moves: it enters or leaves a container, it opens or ends a string, it goes on inside a
string, or it reads a character between strings that no bracket scan looks at.
-/

namespace Rejoin.Json

open Structure

namespace Container

/-- The bracket that a container is written with. -/
def bracket : Container → Bracket
  | array => .square
  | object => .brace

/-- The character that starts a container. -/
def opener (k : Container) : Char := k.bracket.opener

/-- The character that ends a container. -/
def closer (k : Container) : Char := k.bracket.closer

/-- What is expected at the start of a container. -/
def entry : Container → Mode
  | array => .elementOrEnd
  | object => .keyOrEnd

/-- What is expected behind a comma of a container. -/
def nextItem : Container → Mode
  | array => .value
  | object => .key

end Container

namespace Mode

/-- Whether the reader stands inside a string. -/
def isString : Mode → Bool
  | .string _ _ => true
  | _ => false

/-- Whether the reader stands behind a backslash. -/
def isEscaped : Mode → Bool
  | .string _ .escape => true
  | _ => false

/-- Whether the reader stands in a number or a name, or behind a value. -/
def isScalar : Mode → Bool
  | .afterValue | .name _ | .number _ => true
  | _ => false

theorem not_isString_of_isScalar {m : Mode} (hm : m.isScalar = true) : m.isString = false := by
  cases m <;> first | rfl | cases hm

theorem isEscaped_of_not_isString {m : Mode} (hout : m.isString = false) : m.isEscaped = false := by
  cases m <;> first | rfl | cases hout

theorem isEscaped_string {isKey : Bool} {part : StringPart} (hpart : part ≠ .escape) :
    (Mode.string isKey part).isEscaped = false := by
  cases part with
  | escape => exact absurd rfl hpart
  | plain | hex => rfl

end Mode

/-- The characters that mean something to a bracket scan: quotation marks, the backslash, and
    brackets of all kinds. -/
def marks : List Char := ['"', '\'', '\\', '{', '}', '[', ']', '(', ')']

/-- Whether a character means something to a bracket scan. -/
def isMark (c : Char) : Bool := marks.contains c

/-- A class of characters that holds no mark keeps marks out. -/
theorem not_mark_of {p : Char → Bool} (hp : marks.all (!p ·) = true) {c : Char}
    (hc : p c = true) : isMark c = false := by
  cases hmark : isMark c with
  | false => rfl
  | true =>
    have hnot := List.all_eq_true.1 hp c (List.contains_iff_mem.1 hmark)
    rw [hc] at hnot
    cases hnot

theorem not_mark_of_isBlank {c : Char} (hc : isBlank c = true) : isMark c = false :=
  not_mark_of (by decide) hc

theorem not_mark_of_isDigit {c : Char} (hc : isDigit c = true) : isMark c = false :=
  not_mark_of (by decide) hc

theorem ne_of_not_mark {c m : Char} (hc : isMark c = false) (hm : isMark m = true) : c ≠ m := by
  rintro rfl
  rw [hc] at hm
  cases hm

namespace Reader

/-- The mode of a reader suits the innermost container: an element is expected in an array, and a
    key or a colon in an object. Of a name only letters are left to read. -/
def Fits (r : Reader) : Prop :=
  match r.mode with
  | .elementOrEnd => r.frames.head? = some .array
  | .keyOrEnd | .key | .colon | .string true _ => r.frames.head? = some .object
  | .name rest => rest.all Char.isAlpha = true
  | _ => True

theorem fits_start : start.Fits := trivial

/-- What the step from one state to the next on a character is, as a bracket scan sees it. -/
inductive Move (r : Reader) (c : Char) (next : Reader) : Prop where
  | token (hout : r.mode.isString = false) (hmark : isMark c = false)
      (hframes : next.frames = r.frames) (hnext : next.mode.isString = false) (hfits : next.Fits)
  | enter (k : Container) (hout : r.mode.isString = false) (hchar : c = k.opener)
      (hnext : next = ⟨k :: r.frames, k.entry⟩)
  | leave (k : Container) (hout : r.mode.isString = false) (hchar : c = k.closer)
      (hframes : r.frames = k :: next.frames) (hnext : next.mode = .afterValue)
  | quote (isKey : Bool) (hout : r.mode.isString = false) (hchar : c = '"')
      (hnext : next = ⟨r.frames, .string isKey .plain⟩) (hfits : next.Fits)
  | unquote (isKey : Bool) (hmode : r.mode = .string isKey .plain) (hchar : c = '"')
      (hnext : next = ⟨r.frames, if isKey then .colon else .afterValue⟩)
  | backslash (isKey : Bool) (hmode : r.mode = .string isKey .plain) (hchar : c = '\\')
      (hnext : next = ⟨r.frames, .string isKey .escape⟩)
  | escaped (isKey : Bool) (part : StringPart) (hmode : r.mode = .string isKey .escape)
      (hpart : part ≠ .escape) (hnext : next = ⟨r.frames, .string isKey part⟩)
  | literal (isKey : Bool) (before after : StringPart) (hmode : r.mode = .string isKey before)
      (hbefore : before ≠ .escape) (hquote : c ≠ '"') (hslash : c ≠ '\\')
      (hafter : after ≠ .escape) (hnext : next = ⟨r.frames, .string isKey after⟩)

variable {r next : Reader} {c : Char}

/-- A condition in a step decides where the step goes. -/
theorem eq_some_of_ite {p : Prop} [Decidable p] {r next : Reader} {other : Option Reader}
    (h : (if p then some r else other) = some next) : p ∧ r = next ∨ ¬ p ∧ other = some next := by
  by_cases hp : p
  · rw [if_pos hp] at h
    exact .inl ⟨hp, Option.some.inj h⟩
  · rw [if_neg hp] at h
    exact .inr ⟨hp, h⟩

/-- What may follow a value in a container, whichever it is. -/
theorem stepAfter_cons (k : Container) (outer : List Container) (c : Char) :
    stepAfter (k :: outer) c =
      if isBlank c then some ⟨k :: outer, .afterValue⟩
      else if c = ',' then some ⟨k :: outer, k.nextItem⟩
      else if c = k.closer then some ⟨outer, .afterValue⟩
      else none := by
  cases k <;> rfl

private theorem move_of_stepAfter (hout : r.mode.isString = false)
    (hstep : stepAfter r.frames c = some next) : Move r c next := by
  obtain ⟨frames, mode⟩ := r
  cases frames with
  | nil =>
    rcases eq_some_of_ite hstep with ⟨hblank, rfl⟩ | ⟨_, hstep⟩
    · exact .token hout (not_mark_of_isBlank hblank) rfl rfl trivial
    · cases hstep
  | cons k outer =>
    rw [stepAfter_cons] at hstep
    rcases eq_some_of_ite hstep with ⟨hblank, rfl⟩ | ⟨_, hstep⟩
    · exact .token hout (not_mark_of_isBlank hblank) rfl rfl trivial
    rcases eq_some_of_ite hstep with ⟨rfl, rfl⟩ | ⟨_, hstep⟩
    · exact .token hout rfl rfl (by cases k <;> rfl) (by cases k <;> trivial)
    rcases eq_some_of_ite hstep with ⟨hc, rfl⟩ | ⟨_, hstep⟩
    · exact .leave k hout hc rfl rfl
    · cases hstep

/-- A step into a number or a name, or on in one. -/
structure ScalarStep (frames : List Container) (c : Char) (next : Reader) : Prop where
  frames : next.frames = frames
  scalar : next.mode.isScalar = true
  mark : isMark c = false
  fits : next.Fits

private theorem ScalarStep.move (hout : r.mode.isString = false)
    (hscalar : ScalarStep r.frames c next) : Move r c next :=
  .token hout hscalar.mark hscalar.frames (Mode.not_isString_of_isScalar hscalar.scalar)
    hscalar.fits

private theorem move_of_stepString {isKey : Bool} {part : StringPart}
    (hmode : r.mode = .string isKey part) (hstep : stepString r.frames isKey c part = some next) :
    Move r c next := by
  cases part with
  | plain =>
    rcases eq_some_of_ite hstep with ⟨hc, rfl⟩ | ⟨hquote, hstep⟩
    · exact .unquote isKey hmode hc rfl
    rcases eq_some_of_ite hstep with ⟨hc, rfl⟩ | ⟨hslash, hstep⟩
    · exact .backslash isKey hmode hc rfl
    by_cases hcontrol : c < ' '
    · rw [if_pos hcontrol] at hstep
      cases hstep
    · rw [if_neg hcontrol] at hstep
      cases hstep
      exact .literal isKey .plain .plain hmode nofun hquote hslash nofun rfl
  | escape =>
    rcases eq_some_of_ite hstep with ⟨_, rfl⟩ | ⟨_, hstep⟩
    · exact .escaped isKey (.hex 4) hmode nofun rfl
    rcases eq_some_of_ite hstep with ⟨_, rfl⟩ | ⟨_, hstep⟩
    · exact .escaped isKey .plain hmode nofun rfl
    · cases hstep
  | hex needed =>
    rcases eq_some_of_ite hstep with ⟨hc, rfl⟩ | ⟨_, hstep⟩
    · have hmark : isMark c = false := not_mark_of (by decide) hc
      refine .literal isKey (.hex needed) _ hmode nofun (ne_of_not_mark hmark rfl)
        (ne_of_not_mark hmark rfl) ?_ rfl
      split <;> nofun
    · cases hstep

private theorem not_mark_of_or {a b : Char} (ha : isMark a = false) (hb : isMark b = false)
    (hc : (decide (c = a) || decide (c = b)) = true) : isMark c = false := by
  simp only [Bool.or_eq_true, decide_eq_true_eq] at hc
  rcases hc with rfl | rfl
  · exact ha
  · exact hb

theorem stepTail_cases {frames : List Container} (hstep : stepTail frames c = some next) :
    ScalarStep frames c next ∨ stepAfter frames c = some next := by
  rcases eq_some_of_ite hstep with ⟨rfl, rfl⟩ | ⟨_, hstep⟩
  · exact .inl ⟨rfl, rfl, rfl, trivial⟩
  rcases eq_some_of_ite hstep with ⟨hc, rfl⟩ | ⟨_, hstep⟩
  · exact .inl ⟨rfl, rfl, not_mark_of_or rfl rfl hc, trivial⟩
  · exact .inr hstep

/-- The key of a member stands in an object, wherever in the key the reader is. -/
theorem Fits.string {isKey : Bool} {part : StringPart} (hfits : r.Fits)
    (hmode : r.mode = .string isKey part) (other : StringPart) :
    Fits ⟨r.frames, .string isKey other⟩ := by
  cases isKey with
  | true => simpa only [Fits, hmode] using hfits
  | false => trivial

/-- Fitting the containers is kept by every move. -/
theorem Fits.move (hfits : r.Fits) (hmove : Move r c next) : next.Fits := by
  cases hmove with
  | token _ _ _ _ hnext => exact hnext
  | enter k _ _ hnext =>
    subst hnext
    cases k <;> rfl
  | leave k _ _ _ hnext => simp only [Fits, hnext]
  | quote _ _ _ _ hnext => exact hnext
  | unquote isKey hmode _ hnext =>
    subst hnext
    cases isKey with
    | true => exact hfits.string hmode .plain
    | false => trivial
  | backslash isKey hmode _ hnext =>
    subst hnext
    exact hfits.string hmode .escape
  | escaped isKey part hmode _ hnext =>
    subst hnext
    exact hfits.string hmode part
  | literal isKey _ after hmode _ _ _ _ hnext =>
    subst hnext
    exact hfits.string hmode after

/-- A string does not end before its quotation mark. -/
theorem Move.isString (hmove : Move r c next) (hin : r.mode.isString = true) (hc : c ≠ '"') :
    next.mode.isString = true := by
  have hnot {p : Prop} (hout : r.mode.isString = false) : p := by
    rw [hin] at hout
    cases hout
  cases hmove with
  | token hout | enter _ hout | leave _ hout | quote _ hout => exact hnot hout
  | unquote _ _ hchar => exact absurd hchar hc
  | backslash _ _ _ hnext | escaped _ _ _ _ hnext | literal _ _ _ _ _ _ _ _ hnext =>
    rw [hnext]
    rfl

variable [Limits]

theorem run_cons_of_step (hstep : r.step c = some next) (t : List Char) :
    r.run (c :: t) = next.run t := by
  rw [run, hstep, Option.bind_some]

theorem run_append_of_run {t : List Char} (hrun : r.run t = some next) (u : List Char) :
    r.run (t ++ u) = next.run u := by
  rw [run_append, hrun, Option.bind_some]

private theorem move_of_enter {k : Container} (hout : r.mode.isString = false) (hc : c = k.opener)
    (hstep : enter r.frames k = some next) : Move r c next := by
  rcases eq_some_of_ite hstep with ⟨_, rfl⟩ | ⟨_, hstep⟩
  · refine .enter k hout hc ?_
    cases k <;> rfl
  · cases hstep

/-- A value starts with a quotation mark, with an opener, or as a number or a name. -/
theorem stepValue_cases {frames : List Container} (hstep : stepValue frames c = some next) :
    c = '"' ∧ next = ⟨frames, .string false .plain⟩ ∨
      (∃ k : Container, c = k.opener ∧ enter frames k = some next) ∨ ScalarStep frames c next := by
  rcases eq_some_of_ite hstep with ⟨hc, rfl⟩ | ⟨_, hstep⟩
  · exact .inl ⟨hc, rfl⟩
  by_cases hobject : c = '\x7b'
  · rw [if_pos hobject] at hstep
    exact .inr (.inl ⟨.object, hobject, hstep⟩)
  rw [if_neg hobject] at hstep
  by_cases harray : c = '['
  · rw [if_pos harray] at hstep
    exact .inr (.inl ⟨.array, harray, hstep⟩)
  rw [if_neg harray] at hstep
  refine .inr (.inr ?_)
  -- the first letters of the five names, and then the sign and the zero of a number
  iterate 5
    rcases eq_some_of_ite hstep with ⟨rfl, rfl⟩ | ⟨_, hstep⟩
    · exact ⟨rfl, rfl, rfl, rfl⟩
  iterate 2
    rcases eq_some_of_ite hstep with ⟨rfl, rfl⟩ | ⟨_, hstep⟩
    · exact ⟨rfl, rfl, rfl, trivial⟩
  rcases eq_some_of_ite hstep with ⟨hc, rfl⟩ | ⟨_, hstep⟩
  · exact ⟨rfl, rfl, not_mark_of_isDigit hc, trivial⟩
  · cases hstep

private theorem move_of_stepValue (hout : r.mode.isString = false)
    (hstep : stepValue r.frames c = some next) : Move r c next := by
  rcases stepValue_cases hstep with ⟨hc, rfl⟩ | ⟨k, hc, henter⟩ | hscalar
  · exact .quote false hout hc rfl trivial
  · exact move_of_enter hout hc henter
  · exact hscalar.move hout

/-- A number goes on, or what follows it is read as behind any other value. -/
theorem stepNumber_cases {frames : List Container} {part : NumberPart}
    (hstep : stepNumber frames c part = some next) :
    ScalarStep frames c next ∨ stepAfter frames c = some next := by
  have hdigit (part : NumberPart) (hc : isDigit c = true) :
      ScalarStep frames c ⟨frames, .number part⟩ :=
    ⟨rfl, rfl, not_mark_of_isDigit hc, trivial⟩
  cases part with
  | minus =>
    rcases eq_some_of_ite hstep with ⟨rfl, rfl⟩ | ⟨_, hstep⟩
    · exact .inl ⟨rfl, rfl, rfl, trivial⟩
    rcases eq_some_of_ite hstep with ⟨hc, rfl⟩ | ⟨_, hstep⟩
    · exact .inl (hdigit _ hc)
    rcases eq_some_of_ite hstep with ⟨rfl, rfl⟩ | ⟨_, hstep⟩
    · exact .inl ⟨rfl, rfl, rfl, rfl⟩
    · cases hstep
  | zero => exact stepTail_cases hstep
  | integer digits =>
    rcases eq_some_of_ite hstep with ⟨hc, rfl⟩ | ⟨_, hstep⟩
    · exact .inl (hdigit _ hc)
    split at hstep
    · exact stepTail_cases hstep
    · cases hstep
  | point | exponentSign =>
    rcases eq_some_of_ite hstep with ⟨hc, rfl⟩ | ⟨_, hstep⟩
    · exact .inl (hdigit _ hc)
    · cases hstep
  | fraction =>
    rcases eq_some_of_ite hstep with ⟨hc, rfl⟩ | ⟨_, hstep⟩
    · exact .inl (hdigit _ hc)
    rcases eq_some_of_ite hstep with ⟨hc, rfl⟩ | ⟨_, hstep⟩
    · exact .inl ⟨rfl, rfl, not_mark_of_or rfl rfl hc, trivial⟩
    · exact .inr hstep
  | exponent =>
    rcases eq_some_of_ite hstep with ⟨hc, rfl⟩ | ⟨_, hstep⟩
    · exact .inl (hdigit _ hc)
    rcases eq_some_of_ite hstep with ⟨hc, rfl⟩ | ⟨_, hstep⟩
    · exact .inl ⟨rfl, rfl, not_mark_of_or rfl rfl hc, trivial⟩
    · cases hstep
  | exponentDigits =>
    rcases eq_some_of_ite hstep with ⟨hc, rfl⟩ | ⟨_, hstep⟩
    · exact .inl (hdigit _ hc)
    · exact .inr hstep

/-- The letters of a name are read one by one. -/
theorem scalarStep_of_name {frames : List Container} {rest : List Char}
    (hletters : rest.all Char.isAlpha = true)
    (hstep : (⟨frames, .name rest⟩ : Reader).step c = some next) : ScalarStep frames c next := by
  cases rest with
  | nil => cases hstep
  | cons expected rest =>
    obtain ⟨hletter, hrest⟩ := Bool.and_eq_true_iff.1 hletters
    rcases eq_some_of_ite hstep with ⟨rfl, rfl⟩ | ⟨_, hstep⟩
    · have hmark : isMark c = false := not_mark_of (by decide) hletter
      cases rest with
      | nil => exact ⟨rfl, rfl, hmark, trivial⟩
      | cons => exact ⟨rfl, rfl, hmark, hrest⟩
    · cases hstep

/-- Every step is one of the moves. The modes that expect the end of a new container know which
    container it is only because the reader fits. -/
theorem move_of_step (hfits : r.Fits) (hstep : r.step c = some next) : Move r c next := by
  have hstay (hout : r.mode.isString = false) (hc : isBlank c = true) : Move r c r :=
    .token hout (not_mark_of_isBlank hc) rfl hout hfits
  obtain ⟨frames, mode⟩ := r
  cases mode with
  | value =>
    rcases eq_some_of_ite hstep with ⟨hc, rfl⟩ | ⟨_, hstep⟩
    · exact hstay rfl hc
    · exact move_of_stepValue rfl hstep
  | elementOrEnd =>
    rcases eq_some_of_ite hstep with ⟨hc, rfl⟩ | ⟨_, hstep⟩
    · exact hstay rfl hc
    rcases eq_some_of_ite hstep with ⟨hc, rfl⟩ | ⟨_, hstep⟩
    · exact .leave .array rfl hc (List.eq_cons_of_mem_head? hfits) rfl
    · exact move_of_stepValue rfl hstep
  | keyOrEnd =>
    rcases eq_some_of_ite hstep with ⟨hc, rfl⟩ | ⟨_, hstep⟩
    · exact hstay rfl hc
    rcases eq_some_of_ite hstep with ⟨hc, rfl⟩ | ⟨_, hstep⟩
    · exact .leave .object rfl hc (List.eq_cons_of_mem_head? hfits) rfl
    rcases eq_some_of_ite hstep with ⟨hc, rfl⟩ | ⟨_, hstep⟩
    · exact .quote true rfl hc rfl hfits
    · cases hstep
  | key =>
    rcases eq_some_of_ite hstep with ⟨hc, rfl⟩ | ⟨_, hstep⟩
    · exact hstay rfl hc
    rcases eq_some_of_ite hstep with ⟨hc, rfl⟩ | ⟨_, hstep⟩
    · exact .quote true rfl hc rfl hfits
    · cases hstep
  | colon =>
    rcases eq_some_of_ite hstep with ⟨hc, rfl⟩ | ⟨_, hstep⟩
    · exact hstay rfl hc
    rcases eq_some_of_ite hstep with ⟨rfl, rfl⟩ | ⟨_, hstep⟩
    · exact .token rfl rfl rfl rfl trivial
    · cases hstep
  | afterValue => exact move_of_stepAfter rfl hstep
  | string isKey part => exact move_of_stepString rfl hstep
  | name rest => exact (scalarStep_of_name hfits hstep).move rfl
  | number part =>
    rcases stepNumber_cases hstep with hscalar | hafter
    · exact hscalar.move rfl
    · exact move_of_stepAfter rfl hafter

end Reader

end Rejoin.Json
