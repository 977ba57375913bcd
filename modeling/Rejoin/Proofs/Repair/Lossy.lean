import Rejoin.Proofs.Repair.Closure

/-!
What is lost when a repair says that it loses something. A cut keeps the text up to some place and
drops the rest, and the rest is some of the text, with one exception: a text may be no document only
because of the blanks around it, which are no blanks in JSON. Trimming alone makes it a document then.
It is not closed, because there is nothing to close, and so it is cut behind its last character.
-/

namespace Rejoin

open Structure Text

namespace Json

variable [Limits]

variable {t : List Char}

section Whole

variable {r last : Reader}

/-- Whatever is left again is finished somewhere. -/
theorem Reader.exists_valueEnd? (hfits : r.Fits) (hinside : r.IsInside) (hrun : r.run t = some last)
    (hlast : ¬ last.IsInside) : ∃ n, valueEnd? r t = some n := by
  induction t generalizing r with
  | nil =>
    cases hrun
    exact absurd hinside hlast
  | cons c rest ih =>
    obtain ⟨next, hstep, hrest⟩ := Option.bind_eq_some_iff.1 hrun
    have hmove := move_of_step hfits hstep
    obtain hnext | ⟨rfl, _⟩ := hmove.isInside_or_finished hfits hinside
    · obtain ⟨n, hn⟩ := ih (hfits.move hmove) hnext hrest
      exact ⟨n + 1, by rw [valueEnd?_cons_of_isInside hstep hnext, hn, Option.map_some]⟩
    · refine ⟨1, ?_⟩
      rw [valueEnd?, hstep]
      rfl

/-- A reader that may stop is in no container and in no string. -/
theorem Reader.not_isInside_of_accepts (haccepts : r.accepts = true) : ¬ r.IsInside := by
  rintro (hframes | hin)
  · rw [accepts_eq, Bool.and_eq_true, List.isEmpty_iff] at haccepts
    exact hframes haccepts.1
  · rw [not_accepts_of_isString hin] at haccepts
    cases haccepts

/-- A document that is an element and has no blanks around it is one value from its first character to
    its last. -/
theorem leadingValueEnd?_of_isValid (hvalid : isValid t = true) (htrim : trim t = t)
    (hstart : t.head?.any startsElement = true) : leadingValueEnd? t = some t.length := by
  rw [isValid, Reader.acceptsRest, Option.any_eq_true] at hvalid
  obtain ⟨last, hrun, haccepts⟩ := hvalid
  obtain ⟨n, hend⟩ : ∃ n, leadingValueEnd? t = some n := by
    cases t with
    | nil => cases hstart
    | cons c rest =>
      obtain ⟨next, hstep, hinside⟩ := Reader.isInside_of_startsElement hstart
      rw [Reader.run_cons_of_step hstep] at hrun
      obtain ⟨n, hn⟩ := Reader.exists_valueEnd?
        (Reader.fits_start.move (Reader.move_of_step Reader.fits_start hstep)) hinside hrun
        (Reader.not_isInside_of_accepts haccepts)
      refine ⟨n + 1, ?_⟩
      rw [leadingValueEnd?, Reader.valueEnd?_cons_of_isInside hstep hinside, hn, Option.map_some]
  obtain ⟨_, hread, hends⟩ := leadingValueEnd?_eq_some hstart hend
  have hle : n ≤ t.length := by
    obtain ⟨c, hc, _⟩ := Option.any_eq_true _ _ |>.1 hends
    have hlt := (List.getElem?_eq_some_iff.1 hc).1
    omega
  have hge : t.length ≤ n := by
    -- behind the value stand only blanks, and the text ends with none
    by_contra hlt
    rw [← List.take_append_drop n t, Reader.run_append, hread, Option.bind_some] at hrun
    exact not_all_isBlank_drop htrim (Nat.lt_of_not_le hlt) (Reader.all_isBlank_of_run_finished hrun)
  rw [hend, Nat.le_antisymm hle hge]

theorem run_of_isValid (hvalid : isValid t = true) (htrim : trim t = t)
    (hstart : t.head?.any startsElement = true) : Reader.start.run t = some .finished := by
  obtain ⟨_, hread, _⟩ :=
    leadingValueEnd?_eq_some hstart (leadingValueEnd?_of_isValid hvalid htrim hstart)
  rwa [List.take_length] at hread

/-- Such a document is cut behind its last character. -/
theorem cutBack?_of_isValid (hvalid : isValid t = true) (htrim : trim t = t)
    (hstart : t.head?.any startsElement = true) : cutBack? t = some ⟨t, [], [], true⟩ := by
  rw [cutBack?, leadingValueEnd?_of_isValid hvalid htrim hstart]
  dsimp only
  rw [List.take_length, List.drop_length]

end Whole

/-- The blanks that the reader passes over before a document are those of JSON. -/
theorem Reader.run_start_blanks_iff {w : List Char} (hw : w.all Text.isBlank = true) :
    start.run w = some start ↔ w.all isBlank = true := by
  induction w with
  | nil => simp [Reader.run]
  | cons c rest ih =>
    obtain ⟨hc, hrest⟩ := Bool.and_eq_true_iff.1 hw
    rw [Reader.run, Reader.step_start, List.all_cons]
    cases hblank : isBlank c with
    | true => rw [if_pos rfl, Option.bind_some, ih hrest, Bool.true_and]
    | false =>
      rw [if_neg Bool.false_ne_true, Bool.false_and]
      constructor
      · intro hrun
        obtain ⟨next, hstep, _⟩ := Option.bind_eq_some_iff.1 hrun
        have hvisible := not_isBlank_of_isVisible (Reader.isVisible_of_stepValue hstep)
        rw [hc] at hvisible
        cases hvisible
      · intro hfalse
        cases hfalse

/-- Behind a document the reader passes over the blanks of JSON. -/
theorem Reader.run_finished_blanks {w : List Char} (hw : w.all isBlank = true) :
    finished.run w = some finished := by
  induction w with
  | nil => rfl
  | cons c rest ih =>
    obtain ⟨hc, hrest⟩ := Bool.and_eq_true_iff.1 hw
    rw [Reader.run, step_finished, if_pos hc, Option.bind_some, ih hrest]

/-- Around a document that is an element stand the blanks of JSON and no other. -/
theorem isValid_iff_of_isValid_trim (hvalid : isValid (trim t) = true)
    (hstart : (trim t).head?.any startsElement = true) :
    isValid t = true ↔ ∃ before after, before.all isBlank = true ∧ after.all isBlank = true ∧
      t = before ++ trim t ++ after := by
  have hread := run_of_isValid hvalid (trim_trim t) hstart
  constructor
  · intro hwhole
    obtain ⟨before, after, hbefore, hafter, ht⟩ := exists_blanks_around_trim t
    rw [ht, List.append_assoc, isValid_append, Option.any_eq_true] at hwhole
    obtain ⟨r, hrun, haccepts⟩ := hwhole
    obtain rfl := Reader.run_eq_start_of_textBlank hbefore hrun
    rw [← isValid, isValid_append, hread, Option.any_some, Reader.acceptsRest,
      Option.any_eq_true] at haccepts
    obtain ⟨last, hlast, _⟩ := haccepts
    exact ⟨before, after, (Reader.run_start_blanks_iff hbefore).1 hrun,
      Reader.all_isBlank_of_run_finished hlast, ht⟩
  · rintro ⟨before, after, hbefore, hafter, ht⟩
    have hblank : before.all Text.isBlank = true := by
      rw [List.all_eq_true] at hbefore ⊢
      exact fun c hc => isBlank_text_of_isBlank (hbefore c hc)
    rw [ht, isValid, Reader.acceptsRest, Reader.run_append, Reader.run_append,
      (Reader.run_start_blanks_iff hblank).2 hbefore, Option.bind_some, hread, Option.bind_some,
      Reader.run_finished_blanks hafter]
    rfl

end Json

namespace Repair

variable {t : List Char}

/-- The repairs that are marked as lossy are the cuts. -/
theorem isLossy_iff {r : Repair} : r.isLossy = true ↔ ∃ cut, r = .cutBack cut := by
  cases r <;> simp [isLossy, status]

/-- A cut that drops nothing was not needed: trimming alone had made a document. -/
theorem isValid_trim_of_dropped_eq_nil [Json.Limits] {cut : Cut}
    (hcut : json (some t) = .cutBack cut) (hdropped : cut.dropped = []) : Json.isValid (trim t) = true := by
  have hcontent : Json.isValid (json (some t)).content = true := by
    apply isValid_content_json
    rw [hcut]
    nofun
  obtain ⟨_, hstart, hopen, hback⟩ := json_eq_cutBack hcut
  rw [hcut] at hcontent
  obtain ⟨hsplit, hclosing⟩ := Json.cutBack?_eq_some hstart hback
  rw [hdropped, List.append_nil] at hsplit
  rw [hsplit] at hclosing
  rw [content, Cut.content, hsplit, hclosing] at hcontent
  -- something to close would have been closed before the text was cut
  by_cases hnone : Json.closing (trim t) = []
  · rwa [hnone, List.append_nil] at hcontent
  · rw [← Json.close, hopen hnone] at hcontent
    cases hcontent

theorem json_of_isValid_trim [Json.Limits] (hvalid : Json.isValid (trim t) = true)
    (hnot : Json.isValid t = false) (hstart : (trim t).head?.any Json.startsElement = true) :
    json (some t) = .cutBack ⟨trim t, [], [], true⟩ := by
  have hclosing : Json.closing (trim t) = [] :=
    Json.closing_eq_nil_of_run (Json.run_of_isValid hvalid (trim_trim t) hstart)
  have hback := Json.cutBack?_of_isValid hvalid (trim_trim t) hstart
  rw [json]
  cases htrim : trim t with
  | nil =>
    rw [htrim] at hvalid
    cases hvalid
  | cons first rest =>
    rw [htrim] at hclosing hback hstart
    dsimp only
    rw [if_neg (by rw [hnot]; exact Bool.false_ne_true)]
    rw [List.head?_cons, Option.any_some] at hstart
    rw [hstart, hclosing, hback]
    rfl

/-- A repair that is marked as lossy keeps a part of the trimmed text from its start and adds what
closes it. Something is lost exactly if the trimmed text is no document. If it is one, the mark is
there nevertheless exactly if the document is an object, an array or a string and the blanks around it
are not all blanks of JSON. -/
theorem json_isLossy_iff [Json.Limits] (t : List Char) :
    (∀ cut, json (some t) = .cutBack cut →
      cut.kept ++ cut.dropped = trim t ∧ cut.closing = Json.closing cut.kept ∧
        (cut.dropped ≠ [] ↔ Json.isValid (trim t) = false)) ∧
    (Json.isValid (trim t) = true →
      ((json (some t)).isLossy = true ↔ (trim t).head?.any Json.startsElement = true ∧
        ¬ ∃ before after, before.all Json.isBlank = true ∧ after.all Json.isBlank = true ∧
          t = before ++ trim t ++ after)) := by
  refine ⟨fun cut hcut => ?_, fun hvalid => ?_⟩
  · obtain ⟨hnot, hstart, _, hback⟩ := json_eq_cutBack hcut
    obtain ⟨hsplit, hclosing⟩ := Json.cutBack?_eq_some hstart hback
    refine ⟨hsplit, hclosing, ?_, ?_⟩
    · intro hdropped
      rw [Bool.eq_false_iff]
      intro hvalid
      rw [json_of_isValid_trim hvalid hnot hstart] at hcut
      cases hcut
      exact hdropped rfl
    · intro hinvalid hdropped
      rw [isValid_trim_of_dropped_eq_nil hcut hdropped] at hinvalid
      cases hinvalid
  · constructor
    · intro hlossy
      obtain ⟨cut, hcut⟩ := isLossy_iff.1 hlossy
      obtain ⟨hnot, hstart, _⟩ := json_eq_cutBack hcut
      rw [← Json.isValid_iff_of_isValid_trim hvalid hstart, hnot]
      exact ⟨hstart, Bool.false_ne_true⟩
    · rintro ⟨hstart, hnone⟩
      rw [← Json.isValid_iff_of_isValid_trim hvalid hstart, Bool.not_eq_true] at hnone
      rw [json_of_isValid_trim hvalid hnone hstart]
      rfl

/-- A document behind a blank that is none of JSON: the repair only trims it, and marks it as lossy. -/
theorem json_isLossy_of_wide_space :
    (json (some ['\u00a0', '[', '1', ']'])).isLossy = true ∧
      (json (some ['\u00a0', '[', '1', ']'])).content = trim ['\u00a0', '[', '1', ']'] ∧
      Json.isValid (trim ['\u00a0', '[', '1', ']']) = true := by
  decide

end Repair

end Rejoin
