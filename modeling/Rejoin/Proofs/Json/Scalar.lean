import Rejoin.Proofs.Json.Extent
import Rejoin.Proofs.Json.Token

/-!
What the tokens of a document are. Each is a character of punctuation, or a string, a number or a
name, which means that it is a document by itself, and either stands between quotation marks or
holds no separator. A reader that reads the token alone goes along with the one that reads all of
the document.
-/

namespace Rejoin.Json

/-- Whether a text is a character of punctuation, a string, or a number or a name. -/
def IsToken [Limits] (t : List Char) : Prop :=
  (∃ c ∈ punctuation, t = [c]) ∨
    isValid t = true ∧
      (t.head? = some '"' ∧ t.getLast? = some '"' ∨ t.all isWordChar = true)

/-- What is expected in a token that stands alone. It makes no difference that a string is a key. -/
def Mode.alone : Mode → Mode
  | .string _ part => .string false part
  | .colon => .afterValue
  | m => m

theorem Mode.alone_of_isScalar {m : Mode} (hm : m.isScalar = true) : m.alone = m := by
  cases m <;> first | rfl | cases hm

theorem Place.isWordChar_of_goesOn {p : Place} {c : Char} (hout : p.isOutside = true)
    (hgo : p.goesOn c = true) : isWordChar c = true := by
  cases p with
  | between => cases hgo
  | word => exact hgo
  | string => cases hout

theorem Place.after_of_isWordChar {p : Place} {c : Char} (hout : p.isOutside = true)
    (hc : isWordChar c = true) : p.after c = word := by
  have hquote : c ≠ '"' := by
    rintro rfl
    cases hc
  rw [after_of_isOutside hout, if_neg hquote, if_pos hc]

/-- Whether a text can be the rest of a token that was begun: nothing if it is complete, more
    characters of a number or a name, or what a string holds up to its quotation mark. -/
def Place.IsEndedBy (p : Place) (k : List Char) : Prop :=
  match p with
  | between => k = []
  | word => k.all isWordChar = true
  | string _ => k.getLast? = some '"'

theorem Place.IsEndedBy.cons {p : Place} {c : Char} {k : List Char} (hgo : p.goesOn c = true)
    (hended : (p.after c).IsEndedBy k) : p.IsEndedBy (c :: k) := by
  have hstring (hk : k.getLast? = some '"') : (c :: k).getLast? = some '"' := by
    rw [List.getLast?_cons, hk]
    rfl
  cases p with
  | between => cases hgo
  | word =>
    have hc : isWordChar c = true := hgo
    rw [after_of_isWordChar rfl hc] at hended
    rw [IsEndedBy, List.all_cons, hc]
    exact hended
  | string escaped =>
    cases escaped with
    | true => exact hstring hended
    | false =>
      by_cases hquote : c = '"'
      · rw [after, if_pos hquote] at hended
        obtain rfl : k = [] := hended
        rw [hquote]
        rfl
      · rw [after, if_neg hquote] at hended
        exact hstring hended

namespace Reader

/-- The reader of a token that stands alone. -/
def alone (r : Reader) : Reader := ⟨[], r.mode.alone⟩

/-- Whether the reader stands in a string, a number or a name, or behind one. -/
def IsAtToken (r : Reader) : Prop :=
  r.mode.isString = true ∨ r.mode.isScalar = true ∨ r.mode = .colon

variable {p : Place} {r next : Reader} {c : Char} {frames : List Container} {t : List Char}

theorem mem_punctuation_of_closer (k : Container) : k.closer ∈ punctuation := by
  cases k <;> decide

theorem mem_punctuation_of_opener (k : Container) : k.opener ∈ punctuation := by
  cases k <;> decide

/-- Behind a value there are blanks and punctuation only. -/
theorem mem_punctuation_of_stepAfter (hblank : isBlank c = false)
    (hstep : stepAfter frames c = some next) : c ∈ punctuation := by
  cases frames with
  | nil =>
    obtain ⟨hc, _⟩ | ⟨_, hstep⟩ := eq_some_of_ite hstep
    · rw [hblank] at hc
      cases hc
    · cases hstep
  | cons k outer =>
    rw [stepAfter_cons] at hstep
    obtain ⟨hc, _⟩ | ⟨_, hstep⟩ := eq_some_of_ite hstep
    · rw [hblank] at hc
      cases hc
    obtain ⟨rfl, _⟩ | ⟨_, hstep⟩ := eq_some_of_ite hstep
    · decide
    obtain ⟨rfl, _⟩ | ⟨_, hstep⟩ := eq_some_of_ite hstep
    · exact mem_punctuation_of_closer k
    · cases hstep

theorem not_isBlank_of_isWordChar (hc : isWordChar c = true) : isBlank c = false := by
  rw [Bool.eq_false_iff]
  intro hblank
  simp only [isBlank, Bool.or_eq_true, decide_eq_true_eq] at hblank
  rcases hblank with ((rfl | rfl) | rfl) | rfl <;> cases hc

theorem not_mem_punctuation_of_isWordChar (hc : isWordChar c = true) : c ∉ punctuation := by
  intro hmember
  have hseparator : c ∈ separators := List.mem_append_right _ hmember
  rw [not_isWordChar_iff.2 hseparator] at hc
  cases hc

theorem stepAfter_of_isWordChar (hc : isWordChar c = true) (frames : List Container) :
    stepAfter frames c = none := by
  rw [Option.eq_none_iff_forall_ne_some]
  intro next hstep
  exact not_mem_punctuation_of_isWordChar hc
    (mem_punctuation_of_stepAfter (not_isBlank_of_isWordChar hc) hstep)

/-- It makes no difference to a string whether it is a key, and in which containers it stands. -/
theorem stepString_alone {isKey : Bool} {part : StringPart}
    (hstep : stepString frames isKey c part = some next) :
    stepString [] false c part = some next.alone ∧ next.IsAtToken := by
  cases part with
  | plain =>
    obtain ⟨rfl, rfl⟩ | ⟨hquote, hstep⟩ := eq_some_of_ite hstep
    · cases isKey
      · exact ⟨rfl, .inr (.inl rfl)⟩
      · exact ⟨rfl, .inr (.inr rfl)⟩
    obtain ⟨rfl, rfl⟩ | ⟨hslash, hstep⟩ := eq_some_of_ite hstep
    · exact ⟨rfl, .inl rfl⟩
    by_cases hcontrol : c < ' '
    · rw [if_pos hcontrol] at hstep
      cases hstep
    · rw [if_neg hcontrol] at hstep
      cases hstep
      exact ⟨(if_neg hquote).trans ((if_neg hslash).trans (if_neg hcontrol)), .inl rfl⟩
  | escape =>
    obtain ⟨rfl, rfl⟩ | ⟨hunit, hstep⟩ := eq_some_of_ite hstep
    · exact ⟨rfl, .inl rfl⟩
    obtain ⟨hescape, rfl⟩ | ⟨_, hstep⟩ := eq_some_of_ite hstep
    · exact ⟨(if_neg hunit).trans (if_pos hescape), .inl rfl⟩
    · cases hstep
  | hex needed =>
    obtain ⟨hdigit, rfl⟩ | ⟨_, hstep⟩ := eq_some_of_ite hstep
    · exact ⟨if_pos hdigit, .inl rfl⟩
    · cases hstep

variable [Limits]

/-- A value that is no container is read alike when it stands alone. -/
theorem stepValue_alone (hc : c ∉ punctuation) (hstep : stepValue frames c = some next) :
    stepValue [] c = some next.alone ∧ next.IsAtToken := by
  obtain ⟨above, hframes, halone⟩ := retains_stepValue [] frames c next hstep
  obtain ⟨rfl, rfl⟩ | ⟨k, rfl, _⟩ | hscalar := stepValue_cases hstep
  · exact ⟨rfl, .inl rfl⟩
  · exact absurd (mem_punctuation_of_opener k) hc
  · obtain rfl : above = [] := by
      rw [hscalar.frames] at hframes
      simpa using hframes
    rw [halone, alone, Mode.alone_of_isScalar hscalar.scalar]
    exact ⟨rfl, .inr (.inl hscalar.scalar)⟩

/-- A token that is no punctuation starts alike when it stands alone. -/
theorem step_alone_of_starts (hfits : r.Fits) (hagrees : p.Agrees r) (hgo : p.goesOn c = false)
    (hblank : isBlank c = false) (hc : c ∉ punctuation) (hstep : r.step c = some next) :
    start.step c = some next.alone ∧ next.IsAtToken := by
  have hnotBlank : ¬ isBlank c = true := by
    rw [hblank]
    exact Bool.false_ne_true
  have hvalue (hread : stepValue r.frames c = some next) :
      start.step c = some next.alone ∧ next.IsAtToken := by
    rw [show start.step c = stepValue [] c from if_neg hnotBlank]
    exact stepValue_alone hc hread
  have hafter (hread : stepAfter r.frames c = some next) :
      start.step c = some next.alone ∧ next.IsAtToken :=
    absurd (mem_punctuation_of_stepAfter hblank hread) hc
  have hplace := hagrees.number_or_isBetween hfits hgo hstep
  obtain ⟨frames, mode⟩ := r
  obtain ⟨part, hmode, hword⟩ | hbetween := hplace
  · obtain rfl : mode = .number part := hmode
    exact hafter (stepAfter_of_step_number hword hstep).2
  cases mode with
  | value => exact hvalue ((if_neg hnotBlank).symm.trans hstep)
  | elementOrEnd =>
    replace hstep := (if_neg hnotBlank).symm.trans hstep
    obtain ⟨rfl, _⟩ | ⟨_, hstep⟩ := eq_some_of_ite hstep
    · exact absurd (by decide) hc
    · exact hvalue hstep
  | keyOrEnd =>
    replace hstep := (if_neg hnotBlank).symm.trans hstep
    obtain ⟨rfl, _⟩ | ⟨_, hstep⟩ := eq_some_of_ite hstep
    · exact absurd (by decide) hc
    obtain ⟨rfl, rfl⟩ | ⟨_, hstep⟩ := eq_some_of_ite hstep
    · exact ⟨rfl, .inl rfl⟩
    · cases hstep
  | key =>
    replace hstep := (if_neg hnotBlank).symm.trans hstep
    obtain ⟨rfl, rfl⟩ | ⟨_, hstep⟩ := eq_some_of_ite hstep
    · exact ⟨rfl, .inl rfl⟩
    · cases hstep
  | colon =>
    replace hstep := (if_neg hnotBlank).symm.trans hstep
    obtain ⟨rfl, _⟩ | ⟨_, hstep⟩ := eq_some_of_ite hstep
    · exact absurd (by decide) hc
    · cases hstep
  | afterValue => exact hafter hstep
  | string | name | number => cases hbetween

/-- A number goes on alike when it stands alone. -/
theorem stepNumber_alone {part : NumberPart} (hc : isWordChar c = true)
    (hstep : stepNumber frames c part = some next) :
    stepNumber [] c part = some next.alone ∧ next.mode.isScalar = true := by
  have hnone (frames : List Container) := stepAfter_of_isWordChar hc frames
  cases part <;> simp only [stepNumber, stepTail, hnone] at hstep ⊢ <;> split_ifs at hstep ⊢ <;>
    (cases hstep; exact ⟨rfl, rfl⟩)

/-- A token goes on alike when it stands alone. -/
theorem step_alone_of_goesOn (hfits : r.Fits) (hagrees : p.Agrees r) (htoken : r.IsAtToken)
    (hgo : p.goesOn c = true) (hstep : r.step c = some next) :
    r.alone.step c = some next.alone ∧ next.IsAtToken := by
  obtain ⟨frames, mode⟩ := r
  cases mode with
  | string isKey part => exact stepString_alone hstep
  | name rest =>
    have hletters := scalarStep_of_name hfits hstep
    cases rest with
    | nil => cases hstep
    | cons expected rest =>
      obtain ⟨rfl, rfl⟩ | ⟨_, hstep⟩ := eq_some_of_ite hstep
      · have halone := Mode.alone_of_isScalar hletters.scalar
        refine ⟨?_, .inr (.inl hletters.scalar)⟩
        rw [alone.eq_def ⟨frames, if rest.isEmpty then .afterValue else .name rest⟩, halone]
        exact if_pos rfl
      · cases hstep
  | number part =>
    obtain rfl : p = .word := hagrees
    obtain ⟨halone, hscalar⟩ := stepNumber_alone hgo hstep
    exact ⟨halone, .inr (.inl hscalar)⟩
  | afterValue =>
    have hword : isWordChar c = true := Place.isWordChar_of_goesOn hagrees hgo
    have hnone : stepAfter frames c = some next := hstep
    rw [stepAfter_of_isWordChar hword] at hnone
    cases hnone
  | colon =>
    have hword : isWordChar c = true := Place.isWordChar_of_goesOn hagrees hgo
    obtain ⟨hblank, _⟩ | ⟨_, hstep⟩ := eq_some_of_ite hstep
    · rw [not_isBlank_of_isWordChar hword] at hblank
      cases hblank
    obtain ⟨rfl, _⟩ | ⟨_, hstep⟩ := eq_some_of_ite hstep
    · cases hword
    · cases hstep
  | value | elementOrEnd | keyOrEnd | key =>
    obtain hmode | hmode | hmode := htoken <;> cases hmode

/-- A token that ends in a document is complete when it stands alone. -/
theorem accepts_alone (hagrees : p.Agrees r) (htoken : r.IsAtToken) (hfits : r.Fits)
    (haccepts : r.acceptsRest t = true) (hend : ∀ c, t.head? = some c → p.goesOn c = false) :
    r.alone.accepts = true := by
  have hnext : t = [] ∧ r.accepts = true ∨
      ∃ c next, p.goesOn c = false ∧ r.step c = some next := by
    cases t with
    | nil => exact .inl ⟨rfl, haccepts⟩
    | cons c rest =>
      obtain ⟨next, hstep, _⟩ := exists_step_of_acceptsRest haccepts
      exact .inr ⟨c, next, hend c rfl, hstep⟩
  obtain ⟨_, hdone⟩ | ⟨c, next, hgo, hstep⟩ := hnext
  · obtain ⟨frames, mode⟩ := r
    rw [accepts_eq, Bool.and_eq_true] at hdone
    cases mode <;> first | exact hdone.2 | cases hdone.2
  have hplace := hagrees.number_or_isBetween hfits hgo hstep
  obtain ⟨frames, mode⟩ := r
  obtain ⟨part, hmode, hword⟩ | hbetween := hplace
  · obtain rfl : mode = .number part := hmode
    exact (stepAfter_of_step_number hword hstep).1
  cases mode with
  | afterValue | colon => rfl
  | value | elementOrEnd | keyOrEnd | key =>
    obtain hmode | hmode | hmode := htoken <;> cases hmode
  | string | name | number => cases hbetween

end Reader

/-- What the tokens of the rest of a text are: the rest of one that was begun, if the text goes on
    with it, and otherwise complete. -/
structure HasTokens [Limits] (p : Place) (r : Reader) (t : List Char) : Prop where
  begun : t.head?.any p.goesOn = true → r.IsAtToken → ∃ k ks, tokensFrom p t = k :: ks ∧
    r.alone.acceptsRest k = true ∧ p.IsEndedBy k ∧ ∀ k ∈ ks, IsToken k
  complete : t.head?.any p.goesOn = false → ∀ k ∈ tokensFrom p t, IsToken k

section Tokens

variable {p : Place} {r next : Reader} {c : Char} {t : List Char}

theorem head?_any_goesOn_between (t : List Char) : t.head?.any Place.between.goesOn = false := by
  cases t <;> rfl

theorem after_eq_between (hgo : p.goesOn c = false) (hc : isBlank c = true ∨ c ∈ punctuation) :
    p.after c = .between := by
  have hquote : c ≠ '"' := by
    rintro rfl
    revert hc
    decide
  have hword : isWordChar c = false := by
    rw [Bool.eq_false_iff]
    intro hword
    obtain hblank | hpunctuation := hc
    · rw [Reader.not_isBlank_of_isWordChar hword] at hblank
      cases hblank
    · exact Reader.not_mem_punctuation_of_isWordChar hword hpunctuation
  rw [Place.after_of_isOutside (Place.isOutside_of_not_goesOn hgo), if_neg hquote, hword]
  rfl

theorem eq_quote_of_not_isWordChar (hword : isWordChar c = false) (hblank : isBlank c = false)
    (hc : c ∉ punctuation) : c = '"' := by
  obtain hother | hpunctuation := List.mem_append.1 (not_isWordChar_iff.1 hword)
  · simp only [List.mem_cons, List.not_mem_nil, or_false] at hother
    rcases hother with rfl | rfl | rfl | rfl | rfl <;> first | rfl | cases hblank
  · exact absurd hpunctuation hc

variable [Limits]

/-- No string of a document stops without its quotation mark. -/
theorem isEndedBy_nil (hagrees : p.Agrees r) (haccepts : r.acceptsRest t = true)
    (hgo : t.head?.any p.goesOn = false) : p.IsEndedBy [] := by
  cases p with
  | between | word => rfl
  | string escaped =>
    have hin : r.mode.isString = true := by
      by_contra hout
      cases hagrees.isOutside (Bool.eq_false_iff.2 hout)
    cases t with
    | nil =>
      have hdone : r.accepts = true := haccepts
      rw [Reader.not_accepts_of_isString hin] at hdone
      cases hdone
    | cons d rest => cases hgo

/-- A character that belongs to a token is the first of it or of its rest. -/
theorem exists_tokensFrom_cons (hkept : (isBlank c && !p.goesOn c) = false)
    (htoken : next.IsAtToken) (hagrees : (p.after c).Agrees next) (hfits : next.Fits)
    (haccepts : next.acceptsRest t = true) (htokens : HasTokens (p.after c) next t) :
    ∃ k ks, tokensFrom p (c :: t) = (c :: k) :: ks ∧ next.alone.acceptsRest k = true ∧
      (p.after c).IsEndedBy k ∧ ∀ k ∈ ks, IsToken k := by
  rw [tokensFrom, hkept, if_neg Bool.false_ne_true]
  cases hgo : t.head?.any (p.after c).goesOn with
  | true =>
    obtain ⟨k, ks, htail, hk, hended, hks⟩ := htokens.begun hgo htoken
    exact ⟨k, ks, by rw [htail]; rfl, hk, hended, hks⟩
  | false =>
    have hend : ∀ d, t.head? = some d → (p.after c).goesOn d = false := by
      intro d hd
      rw [hd] at hgo
      exact hgo
    exact ⟨[], tokensFrom (p.after c) t, rfl,
      Reader.accepts_alone hagrees htoken hfits haccepts hend,
      isEndedBy_nil hagrees haccepts hgo, htokens.complete hgo⟩

theorem hasTokens (hagrees : p.Agrees r) (hfits : r.Fits) (haccepts : r.acceptsRest t = true) :
    HasTokens p r t := by
  induction t generalizing p r with
  | nil => exact ⟨nofun, nofun⟩
  | cons c rest ih =>
    obtain ⟨next, hstep, hrest⟩ := Reader.exists_step_of_acceptsRest haccepts
    have hagreesNext := hagrees.step hfits hstep
    have hfitsNext := hfits.move (Reader.move_of_step hfits hstep)
    have htokens := ih hagreesNext hfitsNext hrest
    refine ⟨fun hgo htoken => ?_, fun hgo => ?_⟩
    · have hgo : p.goesOn c = true := hgo
      obtain ⟨halone, htokenNext⟩ := Reader.step_alone_of_goesOn hfits hagrees htoken hgo hstep
      have hkept : (isBlank c && !p.goesOn c) = false := by
        rw [hgo, Bool.not_true, Bool.and_false]
      obtain ⟨k, ks, htail, hk, hended, hks⟩ :=
        exists_tokensFrom_cons hkept htokenNext hagreesNext hfitsNext hrest htokens
      refine ⟨c :: k, ks, htail, ?_, hended.cons hgo, hks⟩
      rw [Reader.acceptsRest, Reader.run_cons_of_step halone]
      exact hk
    · have hgo : p.goesOn c = false := hgo
      have hout := Place.isOutside_of_not_goesOn hgo
      by_cases hblank : isBlank c = true
      · -- a blank between tokens
        have hlater := htokens.complete
        rw [after_eq_between hgo (.inl hblank)] at hlater
        rw [tokensFrom, hblank, hgo, after_eq_between hgo (.inl hblank)]
        exact hlater (head?_any_goesOn_between rest)
      rw [Bool.not_eq_true] at hblank
      have hkept : (isBlank c && !p.goesOn c) = false := by rw [hblank, Bool.false_and]
      by_cases hc : c ∈ punctuation
      · have hlater := htokens.complete
        rw [after_eq_between hgo (.inr hc)] at hlater
        rw [tokensFrom, hkept, after_eq_between hgo (.inr hc), head?_any_goesOn_between]
        exact List.forall_mem_cons.2
          ⟨.inl ⟨c, hc, rfl⟩, hlater (head?_any_goesOn_between rest)⟩
      -- the first character of a string, a number or a name
      obtain ⟨hstart, htokenNext⟩ :=
        Reader.step_alone_of_starts hfits hagrees hgo hblank hc hstep
      obtain ⟨k, ks, htail, hk, hended, hks⟩ :=
        exists_tokensFrom_cons hkept htokenNext hagreesNext hfitsNext hrest htokens
      rw [htail, List.forall_mem_cons]
      refine ⟨.inr ⟨?_, ?_⟩, hks⟩
      · rw [isValid, Reader.acceptsRest, Reader.run_cons_of_step hstart]
        exact hk
      · cases hchar : isWordChar c with
        | true =>
          right
          rw [Place.after_of_isWordChar hout hchar] at hended
          rw [List.all_cons, hchar]
          exact hended
        | false =>
          left
          obtain rfl := eq_quote_of_not_isWordChar hchar hblank hc
          have hstring : p.after '"' = .string false := by
            rw [Place.after_of_isOutside hout, if_pos rfl]
          rw [hstring] at hended
          have hlast : k.getLast? = some '"' := hended
          exact ⟨rfl, by rw [List.getLast?_cons, hlast]; rfl⟩

/-- Every token of a document is a character of punctuation, a string, or a number or a name. -/
theorem isToken_of_mem_tokens {k : List Char} (hvalid : isValid t = true) (hk : k ∈ tokens t) :
    IsToken k :=
  (hasTokens Place.agrees_start Reader.fits_start hvalid).complete (head?_any_goesOn_between t) k hk

end Tokens

end Rejoin.Json
