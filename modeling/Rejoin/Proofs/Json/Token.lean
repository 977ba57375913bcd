import Mathlib.Data.List.Infix
import Rejoin.Proofs.Json.Reading
import Rejoin.Proofs.Text.Lines

/-!
The tokens of JSON. A text is cut into strings, runs of characters that numbers and names are made
of, and the characters between them that stand for themselves; blanks divide tokens and belong to
none. Where a text is cut between tokens a space can be inserted: the tokens stay the same, and what
was a document is one still.
-/

namespace Rejoin.Json

/-- The characters that are tokens by themselves. -/
def punctuation : List Char := ['{', '}', '[', ']', ':', ',']

/-- The characters that no number and no name holds: the blanks, the quotation mark, and
punctuation. -/
def separators : List Char := [' ', '\t', '\n', '\r', '"'] ++ punctuation

/-- Whether a character may stand in a number or a name. -/
def isWordChar (c : Char) : Bool := !separators.contains c

theorem not_isWordChar_iff {c : Char} : isWordChar c = false ↔ c ∈ separators := by
  simp [isWordChar]

/-- A class of characters that holds no separator is one of characters of numbers and names. -/
theorem isWordChar_of {p : Char → Bool} (hp : separators.all (!p ·) = true) {c : Char}
    (hc : p c = true) : isWordChar c = true := by
  by_contra hword
  rw [Bool.not_eq_true, not_isWordChar_iff] at hword
  have hnot := List.all_eq_true.1 hp c hword
  rw [hc] at hnot
  cases hnot

/-- Where a text stands among its tokens: behind a blank or behind a token that is complete, behind
    a character of a number or a name, or in a string, there perhaps behind a backslash. -/
inductive Place where
  | between
  | word
  | string (escaped : Bool)
  deriving DecidableEq, Repr

namespace Place

/-- Whether the token that was begun goes on with the next character. -/
def goesOn : Place → Char → Bool
  | between, _ => false
  | word, c => isWordChar c
  | string _, _ => true

/-- The place behind one more character. -/
def after : Place → Char → Place
  | string true, _ => string false
  | string false, c => if c = '"' then between else string (c = '\\')
  | _, c => if c = '"' then string false else if isWordChar c then word else between

/-- The place behind a text. -/
def run (p : Place) (t : List Char) : Place := t.foldl after p

/-- Whether the place is outside strings. -/
def isOutside : Place → Bool
  | string _ => false
  | _ => true

theorem isOutside_of_not_goesOn {p : Place} {c : Char} (hgo : p.goesOn c = false) :
    p.isOutside = true := by
  cases p <;> first | rfl | cases hgo

/-- Behind a space that is outside strings the text stands between tokens. -/
theorem after_space {p : Place} (hout : p.isOutside = true) : p.after ' ' = between := by
  cases p <;> first | rfl | cases hout

theorem after_of_isOutside {p : Place} (hout : p.isOutside = true) (c : Char) :
    p.after c = if c = '"' then string false else if isWordChar c then word else between := by
  cases p <;> first | rfl | cases hout

end Place

/-- The tokens of a text, from a given place on. If the text goes on with a token that was begun
    before, the first is the rest of that. -/
def tokensFrom (p : Place) : List Char → List (List Char)
  | [] => []
  | c :: rest =>
    let later := tokensFrom (p.after c) rest
    if isBlank c && !p.goesOn c then later
    else if rest.head?.any (p.after c).goesOn then Text.consToFirst c later
    else [c] :: later

/-- The tokens of a text in order. -/
def tokens (t : List Char) : List (List Char) := tokensFrom .between t

/-- Whether a position in a text is inside a token: the token that stands before it goes on. -/
def isInsideToken (t : List Char) (n : Nat) : Bool :=
  t[n]?.any (Place.between.run (t.take n)).goesOn

/-- Whether the seams between the pieces of a text are all between its tokens or in the blanks
there. -/
def IsCutBetweenTokens (pieces : List (List Char)) : Prop :=
  ∀ before, before <+: pieces → isInsideToken pieces.flatten before.flatten.length = false

instance (pieces : List (List Char)) : Decidable (IsCutBetweenTokens pieces) :=
  decidable_of_iff (∀ before ∈ pieces.inits,
      isInsideToken pieces.flatten before.flatten.length = false) (by
    simp only [IsCutBetweenTokens, List.mem_inits])

/-- Whether no token that was begun goes on behind one of the seams. -/
def Place.Separates (p : Place) (pieces : List (List Char)) : Prop :=
  ∀ before after, pieces = before ++ after →
    ∀ c, after.flatten.head? = some c → (p.run before.flatten).goesOn c = false

section Seams

variable {p : Place} {f : List Char} {c : Char} {t u : List Char} {pieces : List (List Char)}

theorem separates_of_isCutBetweenTokens (hcut : IsCutBetweenTokens pieces) :
    Place.between.Separates pieces := by
  rintro before after rfl c hc
  have hnot := hcut before (List.prefix_append before after)
  rw [isInsideToken, List.flatten_append, List.take_left,
    List.getElem?_append_right (Nat.le_refl _), Nat.sub_self, ← List.head?_eq_getElem?, hc] at hnot
  exact hnot

theorem Place.Separates.cons (hsep : p.Separates (f :: pieces)) : (p.run f).Separates pieces := by
  rintro before after rfl c hc
  have hgo := hsep (f :: before) after rfl c hc
  rw [List.flatten_cons, run, List.foldl_append] at hgo
  exact hgo

/-- Where no token goes on, the tokens are those of a text that starts there. -/
theorem tokensFrom_of_not_goesOn (hgo : p.goesOn c = false) (t : List Char) :
    tokensFrom p (c :: t) = tokensFrom .between (c :: t) := by
  have hafter : p.after c = Place.between.after c := by
    rw [Place.after_of_isOutside (Place.isOutside_of_not_goesOn hgo), Place.after_of_isOutside rfl]
  have hstart : Place.between.goesOn c = false := rfl
  rw [tokensFrom, tokensFrom, hafter, hgo, hstart]

theorem goesOn_space (hout : p.isOutside = true) : p.goesOn ' ' = false := by
  cases p <;> first | rfl | cases hout

/-- A space outside strings divides tokens, and adds none. -/
theorem tokensFrom_space (hout : p.isOutside = true) (t : List Char) :
    tokensFrom p (' ' :: t) = tokensFrom .between t := by
  rw [tokensFrom, Place.after_space hout, goesOn_space hout]
  rfl

theorem tokensFrom_ne_nil (hgo : p.goesOn c = true) (t : List Char) :
    tokensFrom p (c :: t) ≠ [] := by
  rw [tokensFrom, hgo, Bool.not_true, Bool.and_false, if_neg Bool.false_ne_true]
  split
  · cases tokensFrom (p.after c) t <;> exact List.cons_ne_nil _ _
  · exact List.cons_ne_nil _ _

/-- A text that is cut where no token goes on has the tokens of its parts. -/
theorem tokensFrom_append (hgo : ∀ c, u.head? = some c → (p.run t).goesOn c = false) :
    tokensFrom p (t ++ u) = tokensFrom p t ++ tokensFrom (p.run t) u := by
  induction t generalizing p with
  | nil => rfl
  | cons c rest ih =>
    have hrest : tokensFrom (p.after c) (rest ++ u) = tokensFrom (p.after c) rest ++
        tokensFrom (p.run (c :: rest)) u := ih hgo
    have hnext : (rest ++ u).head?.any (p.after c).goesOn = rest.head?.any (p.after c).goesOn := by
      cases rest with
      | nil =>
        cases hu : u.head? with
        | none => simp [hu]
        | some d =>
          have hgo : (p.after c).goesOn d = false := hgo d hu
          simp [hu, hgo]
      | cons d rest => rfl
    rw [List.cons_append, tokensFrom, tokensFrom, hnext, hrest]
    split
    · rfl
    split
    · next hgoes =>
      obtain ⟨d, hd, hon⟩ := (Option.any_eq_true ..).1 hgoes
      obtain ⟨rest, rfl⟩ := List.head?_eq_some_iff.1 hd
      exact Text.consToFirst_append c (tokensFrom_ne_nil hon rest) _
    · rfl

theorem exists_intercalate_cons (c : Char) (f : List Char) (pieces : List (List Char)) :
    ∃ others, [' '].intercalate ((c :: f) :: pieces) = c :: others := by
  cases pieces with
  | nil => exact ⟨f, List.intercalate_singleton⟩
  | cons g pieces => exact ⟨_, by rw [List.intercalate_cons_cons, List.append_assoc]; rfl⟩

/-- Single spaces at seams between tokens change no token. -/
theorem tokensFrom_intercalate (hne : ∀ f ∈ pieces, f ≠ []) (hsep : p.Separates pieces) :
    tokensFrom p ([' '].intercalate pieces) = tokensFrom p pieces.flatten := by
  induction pieces generalizing p with
  | nil => rfl
  | cons f pieces ih =>
    rw [List.forall_mem_cons] at hne
    cases pieces with
    | nil => rw [List.intercalate_singleton, List.flatten_singleton]
    | cons g pieces =>
      obtain ⟨d, rest, rfl⟩ := List.exists_cons_of_ne_nil (hne.2 g List.mem_cons_self)
      have hgo : (p.run f).goesOn d = false := hsep.cons [] _ rfl d rfl
      have hout := Place.isOutside_of_not_goesOn hgo
      have htail := ih hne.2 hsep.cons
      obtain ⟨others, hothers⟩ := exists_intercalate_cons d rest pieces
      rw [List.intercalate_cons_cons, List.append_assoc, List.singleton_append,
        tokensFrom_append fun c hc => by cases hc; exact goesOn_space hout, tokensFrom_space hout]
      rw [List.flatten_cons, tokensFrom_append fun c hc => by cases hc; exact hgo, ← htail, hothers,
        tokensFrom_of_not_goesOn hgo]

end Seams

/-- Whether the reader stands in a number or a name. -/
def Mode.isWord : Mode → Bool
  | .name _ | .number _ => true
  | _ => false

/-- Whether a place among tokens is that of the reader: in strings it is behind a backslash where
    the reader is, and in a number or a name it is in one. -/
def Place.Agrees (p : Place) (r : Reader) : Prop :=
  match r.mode with
  | .string _ part => p = .string (part = .escape)
  | .name _ | .number _ => p = .word
  | _ => p.isOutside = true

namespace Reader

variable {r next : Reader} {c : Char} {frames : List Container}

theorem not_isWord_of_stepAfter (hstep : stepAfter frames c = some next) :
    next.mode.isWord = false := by
  cases frames with
  | nil =>
    obtain ⟨_, rfl⟩ | ⟨_, hstep⟩ := eq_some_of_ite hstep
    · rfl
    · cases hstep
  | cons k outer =>
    rw [stepAfter_cons] at hstep
    obtain ⟨_, rfl⟩ | ⟨_, hstep⟩ := eq_some_of_ite hstep
    · rfl
    obtain ⟨_, rfl⟩ | ⟨_, hstep⟩ := eq_some_of_ite hstep
    · cases k <;> rfl
    obtain ⟨_, rfl⟩ | ⟨_, hstep⟩ := eq_some_of_ite hstep
    · rfl
    · cases hstep

theorem not_isNumeral_of_not_isWordChar (hc : isWordChar c = false) : isNumeral c = false := by
  rw [Bool.eq_false_iff]
  intro hnumeral
  rw [isWordChar_of (p := isNumeral) (by decide) hnumeral] at hc
  cases hc

theorem isWordChar_of_isAlpha (hc : c.isAlpha = true) : isWordChar c = true :=
  isWordChar_of (by decide) hc

variable [Limits]

/-- A value that starts with a separator is a string or a container. -/
theorem not_isWord_of_stepValue (hc : c ∈ separators) (hstep : stepValue frames c = some next) :
    next.mode.isWord = false := by
  obtain ⟨_, rfl⟩ | ⟨k, _, henter⟩ | hscalar := stepValue_cases hstep
  · rfl
  · obtain ⟨_, rfl⟩ | ⟨_, henter⟩ := eq_some_of_ite henter
    · cases k <;> rfl
    · cases henter
  · have hmark := hscalar.mark
    simp only [separators, punctuation, List.cons_append, List.nil_append, List.mem_cons,
      List.not_mem_nil, or_false] at hc
    rcases hc with rfl | rfl | rfl | rfl | rfl | rfl | rfl | rfl | rfl | rfl | rfl <;>
      first | exact absurd hmark (by decide) | cases hstep

theorem isWordChar_of_step_name {rest : List Char}
    (hfits : (⟨frames, .name rest⟩ : Reader).Fits)
    (hstep : (⟨frames, .name rest⟩ : Reader).step c = some next) : isWordChar c = true := by
  cases rest with
  | nil => cases hstep
  | cons expected rest =>
    obtain ⟨rfl, _⟩ | ⟨_, hstep⟩ := eq_some_of_ite hstep
    · exact isWordChar_of_isAlpha (Bool.and_eq_true_iff.1 hfits).1
    · cases hstep

/-- Behind a number that ends there are only the characters that stand behind a value. -/
theorem stepAfter_of_step_number {part : NumberPart} (hc : isWordChar c = false)
    (hstep : (⟨frames, .number part⟩ : Reader).step c = some next) :
    isWhole part = true ∧ stepAfter frames c = some next := by
  have hwhole := (stepNumber_of_not_isNumeral (not_isNumeral_of_not_isWordChar hc) frames
    part).symm.trans hstep
  split at hwhole
  · next hpart => exact ⟨hpart, hwhole⟩
  · cases hwhole

/-- A character that stands in no number and no name leads out of one. -/
theorem not_isWord_of_step (hfits : r.Fits) (hout : r.mode.isString = false)
    (hc : isWordChar c = false) (hstep : r.step c = some next) : next.mode.isWord = false := by
  have hseparator := not_isWordChar_iff.1 hc
  obtain ⟨frames, mode⟩ := r
  cases mode with
  | value =>
    obtain ⟨_, rfl⟩ | ⟨_, hstep⟩ := eq_some_of_ite hstep
    · rfl
    · exact not_isWord_of_stepValue hseparator hstep
  | elementOrEnd =>
    obtain ⟨_, rfl⟩ | ⟨_, hstep⟩ := eq_some_of_ite hstep
    · rfl
    obtain ⟨_, rfl⟩ | ⟨_, hstep⟩ := eq_some_of_ite hstep
    · rfl
    · exact not_isWord_of_stepValue hseparator hstep
  | keyOrEnd =>
    obtain ⟨_, rfl⟩ | ⟨_, hstep⟩ := eq_some_of_ite hstep
    · rfl
    obtain ⟨_, rfl⟩ | ⟨_, hstep⟩ := eq_some_of_ite hstep
    · rfl
    obtain ⟨_, rfl⟩ | ⟨_, hstep⟩ := eq_some_of_ite hstep
    · rfl
    · cases hstep
  | key | colon =>
    obtain ⟨_, rfl⟩ | ⟨_, hstep⟩ := eq_some_of_ite hstep
    · rfl
    obtain ⟨_, rfl⟩ | ⟨_, hstep⟩ := eq_some_of_ite hstep
    · rfl
    · cases hstep
  | afterValue => exact not_isWord_of_stepAfter hstep
  | string isKey part => cases hout
  | name rest =>
    rw [isWordChar_of_step_name hfits hstep] at hc
    cases hc
  | number part => exact not_isWord_of_stepAfter (stepAfter_of_step_number hc hstep).2

/-- A number ends with a space as it ends with any other character that no number holds. -/
theorem acceptsRest_space_of_number {part : NumberPart} {t : List Char}
    (hc : isWordChar c = false)
    (haccepts : (⟨frames, .number part⟩ : Reader).acceptsRest (c :: t) = true) :
    (⟨frames, .number part⟩ : Reader).acceptsRest (' ' :: c :: t) = true := by
  obtain ⟨next, hstep, hrest⟩ := exists_step_of_acceptsRest haccepts
  obtain ⟨hwhole, hafter⟩ := stepAfter_of_step_number hc hstep
  have hspace : (⟨frames, .number part⟩ : Reader).step ' ' = some ⟨frames, .afterValue⟩ :=
    step_of_isComplete (r := ⟨frames, .number part⟩) hwhole rfl
  have hnext : (⟨frames, .afterValue⟩ : Reader).step c = some next := hafter
  rw [acceptsRest, run_cons_of_step hspace, run_cons_of_step hnext]
  exact hrest

end Reader

section Agrees

variable {p : Place} {r next : Reader} {c : Char} {t : List Char} {pieces : List (List Char)}

theorem Place.agrees_start : Place.between.Agrees .start := rfl

theorem Place.Agrees.isOutside (hagrees : p.Agrees r) (hout : r.mode.isString = false) :
    p.isOutside = true := by
  obtain ⟨frames, mode⟩ := r
  cases mode with
  | string => cases hout
  | name | number =>
    obtain rfl : p = .word := hagrees
    rfl
  | _ => exact hagrees

theorem Place.Agrees.eq_string {isKey : Bool} {part : StringPart} (hagrees : p.Agrees r)
    (hmode : r.mode = .string isKey part) : p = .string (part = .escape) := by
  rw [Agrees, hmode] at hagrees
  exact hagrees

/-- Outside strings the place agrees if it is outside too, and in a word where the reader is in one.
-/
theorem Place.agrees_of_isOutside (hp : p.isOutside = true) (hout : r.mode.isString = false)
    (hword : r.mode.isWord = true → p = .word) : p.Agrees r := by
  obtain ⟨frames, mode⟩ := r
  cases mode with
  | string => cases hout
  | name | number => exact hword rfl
  | _ => exact hp

variable [Limits]

/-- The place goes along with the reader. -/
theorem Place.Agrees.step (hagrees : p.Agrees r) (hfits : r.Fits) (hstep : r.step c = some next) :
    (p.after c).Agrees next := by
  have houtside (hout : r.mode.isString = false) (hquote : c ≠ '"')
      (hnext : next.mode.isString = false) : (p.after c).Agrees next := by
    rw [after_of_isOutside (hagrees.isOutside hout), if_neg hquote]
    cases hc : isWordChar c with
    | true => exact agrees_of_isOutside rfl hnext fun _ => rfl
    | false =>
      have hword := Reader.not_isWord_of_step hfits hout hc hstep
      refine agrees_of_isOutside rfl hnext fun h => ?_
      rw [hword] at h
      cases h
  have hmove := Reader.move_of_step hfits hstep
  cases hmove with
  | token hout hmark _ hnext => exact houtside hout (ne_of_not_mark hmark rfl) hnext
  | enter k hout hchar hnext =>
    refine houtside hout ?_ (by rw [hnext]; cases k <;> rfl)
    rw [hchar]
    cases k <;> decide
  | leave k hout hchar _ hnext =>
    refine houtside hout ?_ (by rw [hnext]; rfl)
    rw [hchar]
    cases k <;> decide
  | quote isKey hout hchar hnext =>
    rw [after_of_isOutside (hagrees.isOutside hout), if_pos hchar, hnext]
    rfl
  | unquote isKey hmode hchar hnext =>
    rw [hagrees.eq_string hmode, hchar, hnext]
    cases isKey <;> rfl
  | backslash isKey hmode hchar hnext =>
    rw [hagrees.eq_string hmode, hchar, hnext]
    rfl
  | escaped isKey part hmode hpart hnext =>
    rw [hagrees.eq_string hmode, hnext]
    simp [Agrees, after, hpart]
  | literal isKey before after hmode hbefore hquote hslash hafter hnext =>
    rw [hagrees.eq_string hmode, hnext]
    simp [Agrees, Place.after, hbefore, hafter, hquote, hslash]

theorem Place.Agrees.run (hagrees : p.Agrees r) (hfits : r.Fits) (hrun : r.run t = some next) :
    (p.run t).Agrees next := by
  induction t generalizing p r with
  | nil =>
    cases hrun
    exact hagrees
  | cons c rest ih =>
    obtain ⟨middle, hstep, hrest⟩ := Option.bind_eq_some_iff.1 hrun
    exact ih (hagrees.step hfits hstep) (hfits.move (Reader.move_of_step hfits hstep)) hrest

/-- Where no token goes on, the reader is behind a number or between tokens. -/
theorem Place.Agrees.number_or_isBetween (hagrees : p.Agrees r) (hfits : r.Fits)
    (hgo : p.goesOn c = false) (hstep : r.step c = some next) :
    (∃ part, r.mode = .number part ∧ isWordChar c = false) ∨ r.mode.isBetween = true := by
  obtain ⟨frames, mode⟩ := r
  cases mode with
  | string isKey part =>
    rw [hagrees.eq_string rfl] at hgo
    cases hgo
  | name rest =>
    obtain rfl : p = .word := hagrees
    rw [goesOn, Reader.isWordChar_of_step_name hfits hstep] at hgo
    cases hgo
  | number part =>
    obtain rfl : p = .word := hagrees
    exact .inl ⟨part, rfl, hgo⟩
  | _ => exact .inr rfl

/-- Where no token goes on, the reader goes on as well behind a space. -/
theorem Place.Agrees.acceptsRest_space (hagrees : p.Agrees r) (hfits : r.Fits)
    (hgo : p.goesOn c = false) (haccepts : r.acceptsRest (c :: t) = true) :
    r.acceptsRest (' ' :: c :: t) = true := by
  obtain ⟨next, hstep, _⟩ := Reader.exists_step_of_acceptsRest haccepts
  obtain ⟨part, hmode, hc⟩ | hbetween := hagrees.number_or_isBetween hfits hgo hstep
  · obtain ⟨frames, mode⟩ := r
    obtain rfl : mode = .number part := hmode
    exact Reader.acceptsRest_space_of_number hc haccepts
  · rw [Reader.acceptsRest, Reader.run_cons_of_step (Reader.step_of_isBlank hbetween rfl)]
    exact haccepts

/-- Single spaces at seams between tokens keep a document. -/
theorem Place.Agrees.acceptsRest_intercalate (hagrees : p.Agrees r) (hfits : r.Fits)
    (hne : ∀ f ∈ pieces, f ≠ []) (hsep : p.Separates pieces)
    (haccepts : r.acceptsRest pieces.flatten = true) :
    r.acceptsRest ([' '].intercalate pieces) = true := by
  induction pieces generalizing p r with
  | nil => exact haccepts
  | cons f pieces ih =>
    rw [List.forall_mem_cons] at hne
    cases pieces with
    | nil =>
      rw [List.flatten_singleton] at haccepts
      rw [List.intercalate_singleton]
      exact haccepts
    | cons g pieces =>
      rw [List.flatten_cons, Reader.acceptsRest_append, Option.any_eq_true] at haccepts
      obtain ⟨middle, hrun, hrest⟩ := haccepts
      have hmiddle := hagrees.run hfits hrun
      have hfitsMiddle := Reader.fits_of_run hfits hrun
      have htail := ih hmiddle hfitsMiddle hne.2 hsep.cons hrest
      obtain ⟨d, rest, rfl⟩ := List.exists_cons_of_ne_nil (hne.2 g List.mem_cons_self)
      have hgo : (p.run f).goesOn d = false := hsep.cons [] _ rfl d rfl
      obtain ⟨others, hothers⟩ := exists_intercalate_cons d rest pieces
      rw [hothers] at htail
      rw [List.intercalate_cons_cons, List.append_assoc, Reader.acceptsRest_append, hrun, hothers]
      exact hmiddle.acceptsRest_space hfitsMiddle hgo htail

end Agrees

/-- A document that is cut between tokens stays a document with the same tokens when single spaces
    are put between its parts. -/
theorem isValid_and_tokens_intercalate [Limits] {pieces : List (List Char)}
    (hne : ∀ f ∈ pieces, f ≠ []) (hcut : IsCutBetweenTokens pieces)
    (hvalid : isValid pieces.flatten = true) :
    isValid ([' '].intercalate pieces) = true ∧
      tokens ([' '].intercalate pieces) = tokens pieces.flatten := by
  have hsep := separates_of_isCutBetweenTokens hcut
  exact ⟨Place.agrees_start.acceptsRest_intercalate Reader.fits_start hne hsep hvalid,
    tokensFrom_intercalate hne hsep⟩

end Rejoin.Json
