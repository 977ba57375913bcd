import Mathlib.Data.List.Count
import Rejoin.Diagnosis.Detector
import Rejoin.Proofs.Json.Document
import Rejoin.Proofs.Json.Extent

/-!
The structure of a document that breaks off. A detector that looks at the structure of a text finds
every cut through an object or an array, and tells how many objects and arrays the cut goes through.
A document that is whole is never found unbalanced.
-/

namespace Rejoin

open Structure Text

namespace Json

namespace Reader

variable {r next : Reader} {c : Char}

/-- A container is left only by finishing it. -/
theorem Move.nested_or_finished (hnested : r.frames ≠ []) (hmove : Move r c next) :
    next.frames ≠ [] ∨ next = finished := by
  obtain ⟨frames, mode⟩ := next
  cases hmove with
  | token _ _ hframes => exact .inl (by rw [hframes]; exact hnested)
  | enter k _ _ hnext =>
    cases hnext
    exact .inl (List.cons_ne_nil _ _)
  | leave k _ _ _ hnext =>
    cases frames with
    | nil => exact .inr (by rw [finished, ← hnext])
    | cons => exact .inl (List.cons_ne_nil _ _)
  | quote _ _ _ hnext | unquote _ _ _ hnext | backslash _ _ _ hnext | escaped _ _ _ _ hnext
  | literal _ _ _ _ _ _ _ _ hnext =>
    cases hnext
    exact .inl hnested

variable [Limits]

/-- Behind the start of a container the reader is in a container, or it has read all of it. -/
theorem nested_or_finished_of_run {t : List Char} (hfits : r.Fits)
    (hr : r.frames ≠ [] ∨ r = finished) (hrun : r.run t = some next) :
    next.frames ≠ [] ∨ next = finished := by
  induction t generalizing r with
  | nil =>
    cases hrun
    exact hr
  | cons c rest ih =>
    obtain ⟨middle, hstep, hrest⟩ := Option.bind_eq_some_iff.1 hrun
    have hmove := move_of_step hfits hstep
    refine ih (hfits.move hmove) ?_ hrest
    obtain hnested | rfl := hr
    · exact hmove.nested_or_finished hnested
    · rw [step_finished] at hstep
      split at hstep
      · exact .inr (Option.some.inj hstep).symm
      · cases hstep

end Reader

variable [Limits]

/-- The position behind a container that starts at a position and is complete in the text. -/
def containerEnd? (t : List Char) (k : Container) (i : Nat) : Option Nat :=
  if startsAt t k i then (leadingValueEnd? (t.drop i)).map (i + ·) else none

/-- How many containers of a kind start before a position and end behind it. -/
def openAfter (t : List Char) (k : Container) (n : Nat) : Nat :=
  (List.range n).countP fun i => (containerEnd? t k i).any (n < ·)

/-- Whether a text is an object or an array, without blanks around it. -/
structure IsContainerText (t : List Char) : Prop where
  valid : isValid t = true
  trimmed : trim t = t
  opens : ∃ k : Container, t.head? = some k.opener

section Cut

variable {r : Reader} {t : List Char} {k : Container} {i n : Nat}

/-- A value that is complete in a text is complete in every part of it that is long enough. -/
theorem isNone_valueEnd?_take {stop : Nat} (hend : valueEnd? r t = some stop) (n : Nat) :
    (valueEnd? r (t.take n)).isNone = decide (n < stop) := by
  induction t generalizing r n stop with
  | nil => cases hend
  | cons c rest ih =>
    cases hstep : r.step c with
    | none =>
      rw [valueEnd?, hstep] at hend
      cases hend
    | some next =>
      rw [valueEnd?_cons hstep] at hend
      cases n with
      | zero =>
        have hpos : 0 < stop := by
          split at hend
          · cases hend
            exact Nat.one_pos
          · obtain ⟨m, _, rfl⟩ := Option.map_eq_some_iff.1 hend
            exact Nat.succ_pos m
        rw [decide_eq_true hpos]
        rfl
      | succ n =>
        rw [List.take_succ_cons, valueEnd?_cons hstep]
        split
        · next hfinished =>
          rw [if_pos hfinished] at hend
          cases hend
          simp
        · next hnot =>
          rw [if_neg hnot, Option.map_eq_some_iff] at hend
          obtain ⟨m, hm, rfl⟩ := hend
          rw [Option.isNone_map, ih hm, decide_eq_decide]
          omega

theorem startsAt_take (hi : i < n) : startsAt (t.take n) k i = startsAt t k i := by
  rw [startsAt, startsAt, List.getElem?_take_of_lt hi, List.take_take, Nat.min_eq_left (by omega)]

/-- In a text that leaves nothing open, the containers that a cut leaves open are those it goes
    through. -/
theorem openCount_take (hclosed : openCount t k = 0) (hn : n ≤ t.length) :
    openCount (t.take n) k = openAfter t k n := by
  rw [openCount, List.length_take_of_le hn]
  apply List.countP_congr
  intro i hi
  rw [List.mem_range] at hi
  rw [isOpenAt, startsAt_take hi, containerEnd?]
  cases hstarts : startsAt t k i with
  | false => simp
  | true =>
    have hcomplete := List.countP_eq_zero.1 hclosed i (List.mem_range.2 (by omega))
    rw [isOpenAt, hstarts, Bool.true_and, Bool.not_eq_true, Option.isNone_eq_false_iff,
      Option.isSome_iff_exists] at hcomplete
    obtain ⟨stop, hstop⟩ := hcomplete
    rw [if_pos rfl, hstop, Bool.true_and, List.drop_take, leadingValueEnd?,
      isNone_valueEnd?_take hstop, Option.map_some, Option.any_some, decide_eq_true_eq,
      decide_eq_true_eq]
    omega

end Cut

namespace IsContainerText

variable {t : List Char} {n : Nat}

/-- Nothing is open behind an object or an array that is whole. -/
theorem openCount_eq_zero (ht : IsContainerText t) (k : Container) : openCount t k = 0 := by
  have hvalid := ht.valid
  rw [isValid, Reader.acceptsRest, Option.any_eq_true] at hvalid
  obtain ⟨r, hrun, haccepts⟩ := hvalid
  rw [Reader.accepts_eq, Bool.and_eq_true, List.isEmpty_iff] at haccepts
  rw [← count_frames hrun, haccepts.1, List.count_nil]

/-- A cut through an object or an array leaves the reader in it. -/
theorem exists_run_take (ht : IsContainerText t) (hpos : 0 < n) (hn : n < t.length) :
    ∃ r, Reader.start.run (t.take n) = some r ∧ r.frames ≠ [] := by
  have hvalid := ht.valid
  rw [← List.take_append_drop n t, isValid_append, Option.any_eq_true] at hvalid
  obtain ⟨r, hrun, hrest⟩ := hvalid
  refine ⟨r, hrun, ?_⟩
  obtain ⟨k, hopens⟩ := ht.opens
  obtain ⟨rest, rfl⟩ := List.head?_eq_some_iff.1 hopens
  obtain ⟨n, rfl⟩ := Nat.exists_eq_succ_of_ne_zero (Nat.ne_of_gt hpos)
  rw [List.take_succ_cons, Reader.run_cons_of_step (step_start_opener k)] at hrun
  have hfits := Reader.fits_start.move (Reader.move_of_step Reader.fits_start (step_start_opener k))
  obtain hnested | rfl := Reader.nested_or_finished_of_run hfits (.inl (List.cons_ne_nil _ _)) hrun
  · exact hnested
  · rw [Reader.acceptsRest, Option.any_eq_true] at hrest
    obtain ⟨last, hlast, _⟩ := hrest
    exact absurd (Reader.all_isBlank_of_run_finished hlast) (not_all_isBlank_drop ht.trimmed hn)

end IsContainerText

end Json

namespace Diagnosis

variable {o : DetectorOptions} {t : List Char} {n : Nat}

theorem ofText_of_unclosed (ho : o.structural = true)
    (hunclosed : (Scan.ofText .prose t).tally.unclosed ≠ []) :
    ofText o t = .truncated .unbalancedStructure
      (String.intercalate ", " ((Scan.ofText .prose t).tally.unclosed.map unclosedText)) := by
  have hne : t ≠ [] := by
    rintro rfl
    exact hunclosed rfl
  rw [ofText, List.isEmpty_eq_false_iff.2 hne, if_neg Bool.false_ne_true, ho, if_pos rfl,
    ofStructure?, List.isEmpty_eq_false_iff.2 hunclosed]
  rfl

/-- A text whose brackets are closed may be found truncated for another reason only. -/
theorem reason_ofText_of_closed (hclosed : (Scan.ofText .prose t).tally.unclosed = []) :
    (ofText o t).reason ≠ .unbalancedStructure := by
  have hstructure (d : Diagnosis) (hd : ofStructure? t = some d) :
      d.reason ≠ .unbalancedStructure := by
    simp only [ofStructure?, hclosed, List.isEmpty_nil, Bool.not_true, Bool.false_eq_true,
      if_false] at hd
    split at hd <;> cases hd
    exact nofun
  have hending (d : Diagnosis) (hd : ofEnding? o t = some d) :
      d.reason ≠ .unbalancedStructure := by
    rw [ofEnding?] at hd
    split at hd <;> cases hd
    exact nofun
  rw [ofText]
  dsimp only
  split
  · exact nofun
  generalize hfound : Option.or _ _ = found
  cases found with
  | none => exact nofun
  | some d =>
    obtain hd | ⟨_, hd⟩ := Option.or_eq_some_iff.1 hfound <;> split at hd <;> first | cases hd | skip
    · exact hstructure d hd
    · exact hending d hd

/-- The tally of so many open objects and arrays, those kinds left out of which none is open. -/
def unclosedContainers (objects arrays : Nat) : Tally Bracket :=
  Tally.unclosed [(.brace, (objects : Int)), (.square, (arrays : Int))]

theorem unclosedContainers_ne_nil {objects arrays : Nat} (hpos : 0 < objects + arrays) :
    unclosedContainers objects arrays ≠ [] := by
  intro hnil
  simp only [unclosedContainers, Tally.unclosed, List.filter_eq_nil_iff, List.mem_cons,
    List.not_mem_nil, or_false, forall_eq_or_imp, forall_eq, decide_eq_true_eq] at hnil
  omega

/-- The brackets that are open in a text that the reader reads are those of its open objects and
    arrays. -/
theorem unclosed_of_run [Json.Limits] {r : Json.Reader}
    (hrun : Json.Reader.start.run t = some r) :
    (Scan.ofText .prose t).tally.unclosed =
      unclosedContainers (Json.openCount t .object) (Json.openCount t .array) := by
  have hcount (k : Json.Container) :
      (r.frames.map Json.Container.bracket).count k.bracket = Json.openCount t k := by
    rw [← Json.count_frames hrun]
    exact List.count_map_of_injective _ _ (fun a b h => by cases a <;> cases b <;> trivial) k
  have hbrace : (r.frames.map Json.Container.bracket).count .brace = _ := hcount .object
  have hsquare : (r.frames.map Json.Container.bracket).count .square = _ := hcount .array
  have hround : (r.frames.map Json.Container.bracket).count .round = 0 := by
    rw [List.count_eq_zero, List.mem_map]
    rintro ⟨k, _, hk⟩
    cases k <;> cases hk
  rw [Json.Reader.tally_of_run (d := .prose) hrun]
  simp only [Dialect.prose, List.map_cons, List.map_nil, hbrace, hsquare, hround]
  simp [unclosedContainers, Tally.unclosed, List.filter_cons]

/-- What is reported of a cut that goes through so many objects and arrays. -/
def unclosedDetails (objects arrays : Nat) : String :=
  String.intercalate ", " ((unclosedContainers objects arrays).map unclosedText)

/-- A cut through an object or an array goes through some container, and it is found. -/
theorem ofText_take [Json.Limits] (ht : Json.IsContainerText t) (ho : o.structural = true)
    (hpos : 0 < n) (hlt : n < t.length) :
    0 < Json.openAfter t .object n + Json.openAfter t .array n ∧
      ofText o (t.take n) = .truncated .unbalancedStructure
        (unclosedDetails (Json.openAfter t .object n) (Json.openAfter t .array n)) := by
  obtain ⟨r, hrun, hnested⟩ := ht.exists_run_take hpos hlt
  have hopen (k : Json.Container) : Json.openCount (t.take n) k = Json.openAfter t k n :=
    Json.openCount_take (ht.openCount_eq_zero k) (by omega)
  have hsome : 0 < Json.openAfter t .object n + Json.openAfter t .array n := by
    obtain ⟨k, hk⟩ := List.exists_mem_of_ne_nil _ hnested
    have hcount := List.count_pos_iff.2 hk
    rw [Json.count_frames hrun, hopen] at hcount
    cases k <;> omega
  have hunclosed := unclosed_of_run hrun
  rw [hopen, hopen] at hunclosed
  refine ⟨hsome, ?_⟩
  rw [ofText_of_unclosed ho, hunclosed, unclosedDetails]
  rw [hunclosed]
  exact unclosedContainers_ne_nil hsome

/-- An object or an array that is whole is not found unbalanced. -/
theorem reason_ofText_of_isContainerText [Json.Limits] (ht : Json.IsContainerText t) :
    (ofText o t).reason ≠ .unbalancedStructure := by
  have hvalid := ht.valid
  rw [Json.isValid, Json.Reader.acceptsRest, Option.any_eq_true] at hvalid
  obtain ⟨r, hrun, _⟩ := hvalid
  apply reason_ofText_of_closed
  rw [unclosed_of_run hrun, ht.openCount_eq_zero, ht.openCount_eq_zero]
  rfl

/-- Every cut through an object or an array is found, and nothing else: a detector that looks at the
structure of a text finds the first characters of an object or an array unbalanced exactly if they
are not all of it. It then tells how many objects and how many arrays the cut goes through, and
reports no bracket of another kind. -/
theorem unbalancedStructure_take_iff [Json.Limits] (ht : Json.IsContainerText t)
    (ho : o.structural = true) (hpos : 0 < n) (hn : n ≤ t.length) :
    ((ofText o (t.take n)).reason = .unbalancedStructure ↔ n < t.length) ∧
    (n < t.length →
      0 < Json.openAfter t .object n + Json.openAfter t .array n ∧
      ofText o (t.take n) = .truncated .unbalancedStructure
        (unclosedDetails (Json.openAfter t .object n) (Json.openAfter t .array n))) := by
  refine ⟨⟨fun hreason => ?_, fun hlt => ?_⟩, ofText_take ht ho hpos⟩
  · by_contra hnot
    obtain rfl : n = t.length := by omega
    rw [List.take_length] at hreason
    exact reason_ofText_of_isContainerText ht hreason
  · rw [(ofText_take ht ho hpos hlt).2]
    rfl

/-- A cut in an array of a member, behind brackets and quotation marks in a string. -/
theorem unbalancedStructure_take_of_member :
    let t := ['{', '"', '[', '(', '\'', '"', ':', '[', '{', '}', ',', '1', ']', '}']
    Json.IsContainerText t ∧ DetectorOptions.default.structural = true ∧ 0 < 12 ∧
      12 ≤ t.length ∧ (ofText .default (t.take 12)).reason = .unbalancedStructure ∧
      (ofText .default (t.take 12)).details = "1 unclosed '\x7b' brace(s), 1 unclosed '[' bracket(s)" := by
  intro t
  have ht : Json.IsContainerText t := ⟨by decide, by decide, .object, rfl⟩
  have ho : DetectorOptions.default.structural = true := rfl
  have hpos : 0 < 12 := by decide
  have hn : 12 ≤ t.length := by decide
  obtain ⟨hiff, hdetails⟩ := unbalancedStructure_take_iff ht ho hpos hn
  refine ⟨ht, ho, hpos, hn, hiff.2 (by decide), ?_⟩
  rw [(hdetails (by decide)).2]
  decide

end Diagnosis

end Rejoin
