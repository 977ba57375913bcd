import Rejoin.Proofs.Repair.Search

/-!
Completing a JSON text with a quotation mark and closers. The containers and the string that the
reader has open leave a single way to do so, which is the closing text of the bracket scan.
-/

namespace Rejoin

open Structure Text

namespace Json

/-- Whether a text only closes: it has at most one quotation mark, at its start, and otherwise
    closers of objects and arrays. -/
def IsClosing (s : List Char) : Prop :=
  ∃ quote closers, s = quote ++ closers ∧ (quote = [] ∨ quote = ['"']) ∧
    ∀ c ∈ closers, c = '}' ∨ c = ']'

namespace Reader

variable {r next : Reader} {c : Char} {s : List Char}

/-- A closer between strings ends the innermost container. -/
theorem Move.leave_of_closer (hmove : Move r c next) (hout : r.mode.isString = false)
    (hc : c = '}' ∨ c = ']') :
    ∃ k : Container, c = k.closer ∧ r.frames = k :: next.frames ∧ next.mode = .afterValue := by
  have hnot {isKey : Bool} {part : StringPart} {p : Prop} (hmode : r.mode = .string isKey part) :
      p := by
    rw [hmode] at hout
    cases hout
  cases hmove with
  | token _ hmark =>
    rcases hc with rfl | rfl <;> cases hmark
  | enter k _ hchar =>
    subst hchar
    exact absurd hc (by cases k <;> decide)
  | leave k _ hchar hframes hnext => exact ⟨k, hchar, hframes, hnext⟩
  | quote _ _ hchar =>
    subst hchar
    exact absurd hc (by decide)
  | unquote _ hmode | backslash _ hmode | escaped _ _ hmode | literal _ _ _ hmode => exact hnot hmode

/-- A quotation mark ends the string that is open, or it leads into a string or stays in one. -/
theorem Move.quotation (hmove : Move r '"' next) :
    next.mode.isString = true ∨
      r.mode.isString = true ∧ next.mode.isString = false ∧ next.frames = r.frames := by
  cases hmove with
  | token _ hmark => cases hmark
  | enter k _ hchar => exact absurd hchar (by cases k <;> decide)
  | leave k _ hchar => exact absurd hchar (by cases k <;> decide)
  | quote _ _ _ hnext =>
    rw [hnext]
    exact .inl rfl
  | unquote isKey hmode _ hnext =>
    rw [hnext, hmode]
    exact .inr ⟨rfl, by cases isKey <;> rfl, rfl⟩
  | backslash _ _ hchar => exact absurd hchar (by decide)
  | escaped _ _ _ _ hnext =>
    rw [hnext]
    exact .inl rfl
  | literal _ _ _ _ _ hquote => exact absurd rfl hquote

variable [Limits]

/-- No text without a quotation mark ends a string. -/
theorem not_acceptsRest_of_isString (hfits : r.Fits) (hin : r.mode.isString = true)
    (hs : ∀ c ∈ s, c ≠ '"') : r.acceptsRest s = false := by
  induction s generalizing r with
  | nil => exact not_accepts_of_isString hin
  | cons c rest ih =>
    rw [Bool.eq_false_iff]
    intro haccepts
    obtain ⟨next, hstep, hrest⟩ := exists_step_of_acceptsRest haccepts
    have hmove := move_of_step hfits hstep
    have hnext := hmove.isString hin (hs c List.mem_cons_self)
    rw [ih (hfits.move hmove) hnext fun c hc => hs c (List.mem_cons_of_mem _ hc)] at hrest
    cases hrest

/-- Between strings, closers complete a text only if they are those of the open containers. -/
theorem closers_eq_of_acceptsRest (hfits : r.Fits) (hout : r.mode.isString = false)
    (hs : ∀ c ∈ s, c = '}' ∨ c = ']') (haccepts : r.acceptsRest s = true) :
    s = r.frames.map Container.closer := by
  induction s generalizing r with
  | nil =>
    have hend : r.accepts = true := haccepts
    rw [accepts_eq, Bool.and_eq_true, List.isEmpty_iff] at hend
    rw [hend.1, List.map_nil]
  | cons c rest ih =>
    obtain ⟨next, hstep, hrest⟩ := exists_step_of_acceptsRest haccepts
    have hmove := move_of_step hfits hstep
    obtain ⟨k, hc, hframes, hnext⟩ := hmove.leave_of_closer hout (hs c List.mem_cons_self)
    rw [hframes, List.map_cons, ← hc, ← ih (hfits.move hmove) (by rw [hnext]; rfl)
      (fun c hc => hs c (List.mem_cons_of_mem _ hc)) hrest]

/-- A text that only closes completes what the reader has read in at most one way, and that is the
    closing text of the scan. -/
theorem Agrees.suffix_eq_of_acceptsRest {scan : Scan} (hagree : Agrees r scan) (hs : IsClosing s)
    (haccepts : r.acceptsRest s = true) : s = scan.suffix := by
  have hnoquote {closers : List Char} (hclosers : ∀ c ∈ closers, c = '}' ∨ c = ']') :
      ∀ c ∈ closers, c ≠ '"' := by
    rintro c hc rfl
    exact absurd (hclosers _ hc) (by decide)
  -- a string that is open needs the quotation mark, and one that is not would be opened by it
  obtain ⟨quote, closers, rfl, rfl | rfl, hclosers⟩ := hs
  · cases hin : r.mode.isString with
    | true =>
      rw [List.nil_append, not_acceptsRest_of_isString hagree.fits hin (hnoquote hclosers)] at haccepts
      cases haccepts
    | false =>
      rw [hagree.suffix_eq, hin]
      exact closers_eq_of_acceptsRest hagree.fits hin hclosers haccepts
  · rw [List.singleton_append] at haccepts
    obtain ⟨next, hstep, hrest⟩ := exists_step_of_acceptsRest haccepts
    have hmove := move_of_step hagree.fits hstep
    have hfits := hagree.fits.move hmove
    rcases hmove.quotation with hin | ⟨hin, hout, hframes⟩
    · rw [not_acceptsRest_of_isString hfits hin (hnoquote hclosers)] at hrest
      cases hrest
    · rw [hagree.suffix_eq, hin, closers_eq_of_acceptsRest hfits hout hclosers hrest, hframes]
      rfl

end Reader

/-- The only text that closes and completes another is its closing text. -/
theorem eq_closing_of_isValid [Limits] {t s : List Char} (hs : IsClosing s)
    (hvalid : isValid (t ++ s) = true) : s = closing t := by
  rw [isValid_append, Option.any_eq_true] at hvalid
  obtain ⟨r, hrun, haccepts⟩ := hvalid
  exact (Reader.agrees_start.run hrun).suffix_eq_of_acceptsRest hs haccepts

/-- Whether the reader stands in a number or a name, or behind a value, and in no container. -/
def Reader.IsScalar (r : Reader) : Prop := r.frames = [] ∧ r.mode.isScalar = true

namespace Reader

variable {r next : Reader} {c : Char}

theorem ScalarStep.isScalar (hscalar : ScalarStep [] c next) : next.IsScalar :=
  ⟨hscalar.frames, hscalar.scalar⟩

theorem isScalar_of_stepAfter (hstep : stepAfter [] c = some next) : next.IsScalar := by
  rcases eq_some_of_ite hstep with ⟨_, rfl⟩ | ⟨_, hstep⟩
  · exact ⟨rfl, rfl⟩
  · cases hstep

variable [Limits]

/-- A number or a name that stands in no container leads nowhere else. -/
theorem IsScalar.step (hscalar : r.IsScalar) (hfits : r.Fits) (hstep : r.step c = some next) :
    next.IsScalar := by
  obtain ⟨frames, mode⟩ := r
  obtain ⟨rfl, hmode⟩ := hscalar
  cases mode with
  | afterValue => exact isScalar_of_stepAfter hstep
  | name rest => exact (scalarStep_of_name hfits hstep).isScalar
  | number part =>
    rcases stepNumber_cases hstep with hscalar | hafter
    · exact hscalar.isScalar
    · exact isScalar_of_stepAfter hafter
  | _ => cases hmode

theorem IsScalar.run (hscalar : r.IsScalar) (hfits : r.Fits) {t : List Char}
    (hrun : r.run t = some next) : next.IsScalar := by
  induction t generalizing r with
  | nil =>
    cases hrun
    exact hscalar
  | cons c rest ih =>
    obtain ⟨middle, hstep, hrun⟩ := Option.bind_eq_some_iff.1 hrun
    exact ih (hscalar.step hfits hstep) (hfits.move (move_of_step hfits hstep)) hrun

theorem step_start (c : Char) :
    start.step c = if isBlank c then some start else stepValue [] c := rfl

/-- A value that starts neither a container nor a string is a scalar. -/
theorem scalarStep_of_stepValue {frames : List Container} (hc : startsElement c = false)
    (hstep : stepValue frames c = some next) : ScalarStep frames c next := by
  rcases stepValue_cases hstep with ⟨rfl, _⟩ | ⟨k, rfl, _⟩ | hscalar
  · cases hc
  · cases k <;> cases hc
  · exact hscalar

end Reader

/-- A text in which something is left to close starts with a container or a string. -/
theorem startsElement_of_closing_ne_nil [Limits] {first : Char} {rest : List Char} {r : Reader}
    (hfirst : Text.isBlank first = false) (hrun : Reader.start.run (first :: rest) = some r)
    (hclosing : closing (first :: rest) ≠ []) : startsElement first = true := by
  by_contra hnot
  rw [Bool.not_eq_true] at hnot
  obtain ⟨next, hstep, hrest⟩ := Option.bind_eq_some_iff.1 hrun
  have hblank : ¬ isBlank first = true := by
    intro hblank
    rw [isBlank_text_of_isBlank hblank] at hfirst
    cases hfirst
  rw [Reader.step_start, if_neg hblank] at hstep
  have hscalar := Reader.scalarStep_of_stepValue hnot hstep
  obtain ⟨hframes, hmode⟩ := hscalar.isScalar.run hscalar.fits hrest
  apply hclosing
  rw [closing, Scan.ofText, (Reader.agrees_start.run hrun).suffix_eq, hframes,
    Mode.not_isString_of_isScalar hmode]
  rfl

end Json

namespace Repair

/-- The plain search is over when closing what is open makes the trimmed text a document. -/
theorem plain_of_isValid_close [Json.Limits] {t : List Char} (hblank : trim t ≠ [])
    (hinvalid : Json.isValid (trim t) = false)
    (hclosed : Json.isValid (Json.close (trim t)) = true) :
    plain t = (.recovered, Json.close (trim t)) := by
  have htext : ¬ Json.isValid t = true := by
    intro hvalid
    rw [Json.isValid_trim hvalid] at hinvalid
    cases hinvalid
  have hclosing : Json.closing (trim t) ≠ [] := by
    intro hnil
    rw [Json.close, hnil, List.append_nil, hinvalid] at hclosed
    cases hclosed
  cases htrim : trim t with
  | nil => exact absurd htrim hblank
  | cons first rest =>
    rw [htrim] at hclosed hclosing
    have hread := hclosed
    rw [Json.close, Json.isValid_append, Option.any_eq_true] at hread
    obtain ⟨r, hrun, _⟩ := hread
    have hstart := Json.startsElement_of_closing_ne_nil (not_isBlank_of_trim_eq_cons htrim) hrun hclosing
    have hne : Json.close (first :: rest) ≠ first :: rest := by
      rw [Json.close]
      simpa using hclosing
    simp [plain, htrim, htext, hstart, hne, hclosed]

/-- A text that is not a document is repaired by exactly the closing text that makes it one, if there
is such a text: at most one quotation mark and then closers. No other text of this form makes it a
document, so a document that was cut within its last closers is restored as it was. -/
theorem json_recovered_iff_isValid [Json.Limits] {t : List Char} (hblank : trim t ≠ [])
    (hinvalid : Json.isValid (trim t) = false) :
    (∀ s, Json.IsClosing s →
      ((json (some t)).status = .recovered ∧ (json (some t)).content = trim t ++ s ↔
        Json.isValid (trim t ++ s) = true)) ∧
    ∀ s s', Json.IsClosing s → Json.IsClosing s' → Json.isValid (trim t ++ s) = true →
      Json.isValid (trim t ++ s') = true → s = s' := by
  refine ⟨fun s hs => ⟨?_, ?_⟩, ?_⟩
  · rintro ⟨hstatus, hcontent⟩
    rw [← hcontent]
    exact isValid_content_json (by rw [hstatus]; decide)
  · intro hvalid
    have hclosing := Json.eq_closing_of_isValid hs hvalid
    subst hclosing
    have hplain := status_content_json t
    rw [plain_of_isValid_close hblank hinvalid hvalid] at hplain
    exact Prod.ext_iff.1 hplain
  · intro s s' hs hs' hvalid hvalid'
    rw [Json.eq_closing_of_isValid hs hvalid, Json.eq_closing_of_isValid hs' hvalid']

/-- A member that is cut off within its string. -/
theorem json_recovers_open_member :
    let t := [' ', '{', '"', 'a', '"', ':', '[', '"', 'x']
    let s := ['"', ']', '}']
    trim t ≠ [] ∧ Json.isValid (trim t) = false ∧ (json (some t)).status = .recovered ∧
      (json (some t)).content = trim t ++ s := by
  intro t s
  have hblank : trim t ≠ [] := by decide
  have hinvalid : Json.isValid (trim t) = false := by decide
  have hs : Json.IsClosing s := ⟨['"'], [']', '}'], rfl, .inr rfl, by simp⟩
  have hvalid : Json.isValid (trim t ++ s) = true := by decide
  exact ⟨hblank, hinvalid, ((json_recovered_iff_isValid hblank hinvalid).1 s hs).2 hvalid⟩

end Repair

end Rejoin
