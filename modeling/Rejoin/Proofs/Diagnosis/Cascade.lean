import Rejoin.Diagnosis.Detector

/-!
How the signs of truncation rank. A stop code that is in the table decides by itself. Otherwise the
text decides, its structure before its ending. So a stricter detector finds every truncation that
another one finds: it may give an open bracket or an open code block as the reason where the other
sees only the ending of the text, and in all other cases both say the same.
-/

namespace Rejoin

/-- Whether one detector looks at no less than another. It examines what the other examines, it
    takes no text for short that the other does not, and no character ends a text for it alone. -/
structure DetectorOptions.IsAtLeastAsStrict (b a : DetectorOptions) : Prop where
  structural : a.structural = true → b.structural = true
  heuristic : a.heuristic = true → b.heuristic = true
  minLength : b.minLength ≤ a.minLength
  terminators : b.terminators ⊆ a.terminators
  markers : b.markers ⊆ a.markers

/-- Whether a reason lies in the structure of a text. -/
def Reason.isStructural : Reason → Bool
  | .unbalancedStructure | .incompleteCodeBlock => true
  | _ => false

namespace Diagnosis

variable {o a b : DetectorOptions} {r : Option Response} {t : List Char} {d : Diagnosis}
  {reason : Reason}

/-- The stop codes that mean truncation, in lower case, and what each of them means. -/
def stopCodes : List (String × Reason) :=
  [("length", .tokenLimit), ("max_tokens", .tokenLimit),
    ("model_context_window_exceeded", .contextWindowExceeded),
    ("content_filter", .contentFiltered), ("safety", .contentFiltered),
    ("recitation", .recitation), ("refusal", .refusal)]

/-- The stop code of a response as it is looked up: without the blanks around it, in lower case. -/
def codeName? (r : Option Response) : Option String :=
  (Response.codeOf? r).map fun code => String.ofList (Text.lower code)

/-- The reason that is listed for the stop code of a response. -/
def listedReason? (r : Option Response) : Option Reason :=
  (codeName? r).bind fun name => stopCodes.lookup name

section StopCode

/-- A code is known if and only if it is listed, and then it means what is listed for it. -/
theorem exists_ofKnownCode?_eq (name code : String) :
    ∃ details, ofKnownCode? name code = (stopCodes.lookup name).map (truncated · details) := by
  unfold ofKnownCode?
  split
  case h_8 =>
    have hnot : stopCodes.lookup name = none := by
      simp_all [stopCodes, List.lookup_eq_none_iff]
    exact ⟨"", by rw [hnot]; rfl⟩
  all_goals exact ⟨_, rfl⟩

theorem exists_ofStopCode?_eq (r : Option Response) :
    ∃ details, (Response.codeOf? r).bind ofStopCode? =
      (listedReason? r).map (truncated · details) := by
  rw [listedReason?, codeName?]
  cases Response.codeOf? r with
  | none => exact ⟨"", rfl⟩
  | some code => exact exists_ofKnownCode?_eq _ _

theorem exists_ofResponse_of_listed (hlisted : listedReason? r = some reason) :
    ∃ details, ∀ o, ofResponse o r = truncated reason details := by
  obtain ⟨details, hcode⟩ := exists_ofStopCode?_eq r
  refine ⟨details, fun o => ?_⟩
  rw [ofResponse, hcode, hlisted]
  rfl

theorem ofResponse_of_not_listed (hlisted : listedReason? r = none) (o : DetectorOptions) :
    ofResponse o r = ofText o (Response.textOf r) := by
  obtain ⟨details, hcode⟩ := exists_ofStopCode?_eq r
  rw [ofResponse, hcode, hlisted]
  rfl

theorem ne_none_of_listed (hlisted : listedReason? r = some reason) : reason ≠ .none := by
  obtain ⟨name, _, hlookup⟩ := Option.bind_eq_some_iff.1 hlisted
  obtain ⟨before, after, hcodes, _⟩ := List.lookup_eq_some_iff.1 hlookup
  have hmember : (name, reason) ∈ stopCodes := by simp [hcodes]
  have hreasons : ∀ entry ∈ stopCodes, entry.2 ≠ .none := by decide
  exact hreasons _ hmember

end StopCode

section Text

theorem ofStructure?_eq_some (hd : ofStructure? t = some d) :
    d.isTruncated = true ∧ d.reason.isStructural = true := by
  simp only [ofStructure?] at hd
  split at hd
  · cases hd
    exact ⟨rfl, rfl⟩
  split at hd
  · cases hd
    exact ⟨rfl, rfl⟩
  · cases hd

theorem ofEnding?_eq_some_iff :
    ofEnding? o t = some d ↔ o.minLength ≤ t.length ∧ endsProperly o t = false ∧
      d = truncated .midSentence "Response appears to end mid-sentence" := by
  rw [ofEnding?, Option.ite_none_right_eq_some, Bool.and_eq_true, decide_eq_true_eq,
    Bool.not_eq_true', Option.some.injEq, and_assoc, eq_comm (b := d)]

/-- An empty text has neither sign, so that it need not be set apart. -/
theorem ofText_eq (o : DetectorOptions) (t : List Char) :
    ofText o t = ((if o.structural then ofStructure? t else none).or
      (if o.heuristic then ofEnding? o t else none)).getD .complete := by
  cases t with
  | nil =>
    have hstructure : ofStructure? [] = none := rfl
    have hending : ofEnding? o [] = none := by simp [ofEnding?, endsProperly]
    simp [ofText, hstructure, hending]
  | cons c rest => rfl

theorem ofText_of_structure (ho : o.structural = true) (hd : ofStructure? t = some d) :
    ofText o t = d := by
  simp [ofText_eq, ho, hd]

theorem ofText_of_ending (hstructure : o.structural = true → ofStructure? t = none)
    (ho : o.heuristic = true) (hd : ofEnding? o t = some d) : ofText o t = d := by
  by_cases hstructural : o.structural = true
  · simp [ofText_eq, hstructure hstructural, ho, hd]
  · simp [ofText_eq, hstructural, ho, hd]

/-- A text is found truncated by its structure, or else by its ending, or not at all. -/
theorem ofText_cases (o : DetectorOptions) (t : List Char) :
    (o.structural = true ∧ ofStructure? t = some (ofText o t)) ∨
    (o.heuristic = true ∧ ofEnding? o t = some (ofText o t)) ∨
    ofText o t = .complete := by
  cases hstructure : if o.structural then ofStructure? t else none with
  | some d =>
    obtain ⟨ho, hd⟩ := Option.ite_none_right_eq_some.1 hstructure
    exact .inl ⟨ho, by rw [ofText_of_structure ho hd, hd]⟩
  | none =>
    cases hending : if o.heuristic then ofEnding? o t else none with
    | some d =>
      obtain ⟨ho, hd⟩ := Option.ite_none_right_eq_some.1 hending
      exact .inr (.inl ⟨ho, by rw [ofText_eq, hstructure, hending, hd]; rfl⟩)
    | none => exact .inr (.inr (by rw [ofText_eq, hstructure, hending]; rfl))

theorem isTruncated_ofText_iff (o : DetectorOptions) (t : List Char) :
    (ofText o t).isTruncated = true ↔ (ofText o t).reason ≠ .none := by
  obtain ⟨_, hfound⟩ | ⟨_, hfound⟩ | hcomplete := ofText_cases o t
  · obtain ⟨htruncated, hreason⟩ := ofStructure?_eq_some hfound
    refine iff_of_true htruncated fun hnone => ?_
    rw [hnone] at hreason
    cases hreason
  · rw [(ofEnding?_eq_some_iff.1 hfound).2.2]
    exact iff_of_true rfl nofun
  · rw [hcomplete]
    exact iff_of_false nofun fun hnone => hnone rfl

/-- What does not end properly for one detector does not end properly for a stricter one. -/
theorem endsProperly_of_isAtLeastAsStrict (hstrict : b.IsAtLeastAsStrict a)
    (hend : endsProperly b t = true) : endsProperly a t = true := by
  rw [endsProperly] at hend ⊢
  split
  · rfl
  next last hlast =>
  rw [hlast] at hend
  simp only [Bool.or_eq_true, List.contains_iff_mem] at hend ⊢
  obtain (hfence | hterminator) | hmarker := hend
  · exact .inl (.inl hfence)
  · exact .inl (.inr (hstrict.terminators hterminator))
  · exact .inr (hstrict.markers hmarker)

theorem ofEnding?_of_isAtLeastAsStrict (hstrict : b.IsAtLeastAsStrict a)
    (hd : ofEnding? a t = some d) : ofEnding? b t = some d := by
  obtain ⟨hlong, hend, hd⟩ := ofEnding?_eq_some_iff.1 hd
  refine ofEnding?_eq_some_iff.2 ⟨Nat.le_trans hstrict.minLength hlong, ?_, hd⟩
  rw [Bool.eq_false_iff] at hend ⊢
  exact fun hproper => hend (endsProperly_of_isAtLeastAsStrict hstrict hproper)

/-- A stricter detector finds every text truncated that another one does. It gives another reason
    only if it examines the structure of the text and the other does not. -/
theorem isTruncated_ofText_of_isAtLeastAsStrict (hstrict : b.IsAtLeastAsStrict a)
    (htruncated : (ofText a t).isTruncated = true) :
    (ofText b t).isTruncated = true ∧
      (ofText b t = ofText a t ∨
        (ofText a t).reason = .midSentence ∧ (ofText b t).reason.isStructural = true) := by
  obtain ⟨ho, hfound⟩ | ⟨ho, hfound⟩ | hcomplete := ofText_cases a t
  · have hsame : ofText b t = ofText a t := ofText_of_structure (hstrict.structural ho) hfound
    rw [hsame]
    exact ⟨htruncated, .inl rfl⟩
  · have hending := ofEnding?_of_isAtLeastAsStrict hstrict hfound
    by_cases hsearched : b.structural = true ∧ ∃ d, ofStructure? t = some d
    · obtain ⟨hb, d, hd⟩ := hsearched
      obtain ⟨hdTruncated, hdReason⟩ := ofStructure?_eq_some hd
      have hreason : (ofText a t).reason = .midSentence := by
        rw [(ofEnding?_eq_some_iff.1 hfound).2.2]
        rfl
      rw [ofText_of_structure hb hd]
      exact ⟨hdTruncated, .inr ⟨hreason, hdReason⟩⟩
    · have hnone (hb : b.structural = true) : ofStructure? t = none := by
        rw [Option.eq_none_iff_forall_ne_some]
        exact fun d hd => hsearched ⟨hb, d, hd⟩
      have hsame : ofText b t = ofText a t :=
        ofText_of_ending hnone (hstrict.heuristic ho) hending
      rw [hsame]
      exact ⟨htruncated, .inl rfl⟩
  · rw [hcomplete] at htruncated
    cases htruncated

end Text

theorem isTruncated_ofResponse_iff (o : DetectorOptions) (r : Option Response) :
    (ofResponse o r).isTruncated = true ↔ (ofResponse o r).reason ≠ .none := by
  cases hlisted : listedReason? r with
  | none =>
    rw [ofResponse_of_not_listed hlisted]
    exact isTruncated_ofText_iff o _
  | some reason =>
    obtain ⟨details, hcode⟩ := exists_ofResponse_of_listed hlisted
    rw [hcode]
    exact iff_of_true rfl (ne_none_of_listed hlisted)

/-- The signs of truncation are authoritative in their order, and looking closer never hides one. If
the stop code of a response is listed, its reason is the listed one, whatever the text is and
whatever the options are; otherwise the diagnosis is that of the text alone. So the verdict and the
reason depend only on the text and on what is listed for the code, and thus not on blanks around the
code nor on the case of its letters. A stricter detector finds a response truncated whenever another
one does, with the same diagnosis, unless it sees a fault in the structure where the other sees only
the ending. A response is truncated exactly if there is a reason. -/
theorem ofResponse_authoritative_and_monotone (r : Option Response) :
    (∀ reason, listedReason? r = some reason →
      ∀ o, (ofResponse o r).isTruncated = true ∧ (ofResponse o r).reason = reason) ∧
    (listedReason? r = none → ∀ o, ofResponse o r = ofText o (Response.textOf r)) ∧
    (∀ r', Response.textOf r' = Response.textOf r → listedReason? r' = listedReason? r →
      ∀ o, (ofResponse o r').isTruncated = (ofResponse o r).isTruncated ∧
        (ofResponse o r').reason = (ofResponse o r).reason) ∧
    (∀ a b : DetectorOptions, b.IsAtLeastAsStrict a → (ofResponse a r).isTruncated = true →
      (ofResponse b r).isTruncated = true ∧
        (ofResponse b r = ofResponse a r ∨
          (ofResponse a r).reason = .midSentence ∧
            (ofResponse b r).reason.isStructural = true)) ∧
    ∀ o, (ofResponse o r).isTruncated = true ↔ (ofResponse o r).reason ≠ .none := by
  refine ⟨fun reason hlisted o => ?_, ofResponse_of_not_listed, fun r' htext hsame o => ?_,
    fun a b hstrict htruncated => ?_, fun o => isTruncated_ofResponse_iff o r⟩
  · obtain ⟨details, hcode⟩ := exists_ofResponse_of_listed hlisted
    rw [hcode]
    exact ⟨rfl, rfl⟩
  · cases hlisted : listedReason? r with
    | none =>
      rw [ofResponse_of_not_listed hlisted, ofResponse_of_not_listed (hsame.trans hlisted), htext]
      exact ⟨rfl, rfl⟩
    | some reason =>
      obtain ⟨details, hcode⟩ := exists_ofResponse_of_listed hlisted
      obtain ⟨details', hcode'⟩ := exists_ofResponse_of_listed (hsame.trans hlisted)
      rw [hcode, hcode']
      exact ⟨rfl, rfl⟩
  · cases hlisted : listedReason? r with
    | none =>
      rw [ofResponse_of_not_listed hlisted] at htruncated
      rw [ofResponse_of_not_listed hlisted, ofResponse_of_not_listed hlisted]
      exact isTruncated_ofText_of_isAtLeastAsStrict hstrict htruncated
    | some reason =>
      obtain ⟨details, hcode⟩ := exists_ofResponse_of_listed hlisted
      rw [hcode, hcode]
      exact ⟨rfl, .inl rfl⟩

/-- A code between blanks and in mixed case is listed, and a blank one is none; then an open bracket
counts only for the detector that looks at it. -/
theorem ofResponse_authoritative_and_monotone_of_open_bracket :
    let a : DetectorOptions := ⟨false, true, 2, ['.', '!'], [':']⟩
    let b : DetectorOptions := ⟨true, true, 0, ['.'], []⟩
    let coded : Option Response :=
      some (.chat (.ofText ['O', 'K', '.'] (some (.own (.text " Safety\n")))))
    let uncoded : Option Response :=
      some (.adapter ⟨.text "", some (.own (.text "\t")), [.text "(a"], false⟩)
    listedReason? coded = some .contentFiltered ∧ (ofResponse a coded).reason = .contentFiltered ∧
      listedReason? uncoded = none ∧ b.IsAtLeastAsStrict a ∧
      (ofResponse a uncoded).reason = .midSentence ∧
      (ofResponse b uncoded).isTruncated = true ∧
      (ofResponse b uncoded).reason = .unbalancedStructure := by
  intro a b coded uncoded
  have hcoded : listedReason? coded = some .contentFiltered := by decide
  have huncoded : listedReason? uncoded = none := by decide
  have hstrict : b.IsAtLeastAsStrict a := ⟨by decide, by decide, by decide, by decide, by decide⟩
  have htruncated : (ofResponse a uncoded).isTruncated = true := by decide
  obtain ⟨hcode, _⟩ := ofResponse_authoritative_and_monotone coded
  obtain ⟨_, htext, _, hmonotone, _⟩ := ofResponse_authoritative_and_monotone uncoded
  refine ⟨hcoded, (hcode _ hcoded a).2, huncoded, hstrict, ?_,
    (hmonotone a b hstrict htruncated).1, ?_⟩
  · rw [htext huncoded]
    decide
  · rw [htext huncoded]
    decide

end Diagnosis

end Rejoin
