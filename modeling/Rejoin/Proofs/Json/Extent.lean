import Mathlib.Data.List.Induction
import Mathlib.Data.List.Nodup
import Rejoin.Proofs.Json.Document
import Rejoin.Proofs.Json.Leading

/-!
Where the containers of a text start and end. A container starts where the reader, outside of
strings, finds its opener, and it is open until the value that starts there is complete. The reader
has exactly the open containers on its stack, so the depth of its stack is a count of values in the
text.
-/

namespace Rejoin.Json

namespace Reader

variable {r next : Reader} {c : Char} {inner outer : List Container}

/-- What a step gives above some containers is what it gives without them, apart from these. -/
def Retains (outer : List Container) (full alone : Option Reader) : Prop :=
  ∀ next, full = some next →
    ∃ frames, next.frames = frames ++ outer ∧ alone = some ⟨frames, next.mode⟩

theorem retains_none (outer : List Container) (alone : Option Reader) :
    Retains outer none alone := nofun

theorem retains_some (inner outer : List Container) (m : Mode) :
    Retains outer (some ⟨inner ++ outer, m⟩) (some ⟨inner, m⟩) := by
  intro next hnext
  cases hnext
  exact ⟨inner, rfl, rfl⟩

theorem Retains.ite {p : Prop} [Decidable p] {full full' alone alone' : Option Reader}
    (hthen : Retains outer full alone) (helse : Retains outer full' alone') :
    Retains outer (if p then full else full') (if p then alone else alone') := by
  split
  · exact hthen
  · exact helse

theorem retains_stepAfter (hinner : inner ≠ []) (outer : List Container) (c : Char) :
    Retains outer (stepAfter (inner ++ outer) c) (stepAfter inner c) := by
  cases inner with
  | nil => exact absurd rfl hinner
  | cons k rest =>
    have hstay (m : Mode) := retains_some (k :: rest) outer m
    rw [List.cons_append, stepAfter_cons, stepAfter_cons]
    exact .ite (hstay _) <| .ite (hstay _) <| .ite (retains_some rest outer _) (retains_none _ _)

theorem retains_stepString (inner outer : List Container) (isKey : Bool) (c : Char)
    (part : StringPart) :
    Retains outer (stepString (inner ++ outer) isKey c part) (stepString inner isKey c part) := by
  have hstay (m : Mode) := retains_some inner outer m
  cases part with
  | plain => exact .ite (hstay _) <| .ite (hstay _) <| .ite (retains_none _ _) (hstay _)
  | escape => exact .ite (hstay _) <| .ite (hstay _) (retains_none _ _)
  | hex => exact .ite (hstay _) (retains_none _ _)

variable [Limits]

/-- Without the containers around it there is more room for another one. -/
theorem retains_enter (inner outer : List Container) (k : Container) :
    Retains outer (enter (inner ++ outer) k) (enter inner k) := by
  intro next hnext
  obtain ⟨hdepth, rfl⟩ | ⟨_, hnext⟩ := eq_some_of_ite hnext
  · rw [List.length_append] at hdepth
    exact ⟨k :: inner, rfl, if_pos (by omega)⟩
  · cases hnext

theorem retains_stepValue (inner outer : List Container) (c : Char) :
    Retains outer (stepValue (inner ++ outer) c) (stepValue inner c) := by
  have hstay (m : Mode) := retains_some inner outer m
  exact .ite (hstay _) <| .ite (retains_enter _ _ _) <| .ite (retains_enter _ _ _) <| .ite (hstay _) <|
    .ite (hstay _) <| .ite (hstay _) <| .ite (hstay _) <| .ite (hstay _) <| .ite (hstay _) <|
    .ite (hstay _) <| .ite (hstay _) (retains_none _ _)

theorem retains_stepNumber (hinner : inner ≠ []) (outer : List Container) (c : Char)
    (part : NumberPart) :
    Retains outer (stepNumber (inner ++ outer) c part) (stepNumber inner c part) := by
  have hstay (m : Mode) := retains_some inner outer m
  have hafter := retains_stepAfter hinner outer c
  have htail : Retains outer (stepTail (inner ++ outer) c) (stepTail inner c) :=
    .ite (hstay _) <| .ite (hstay _) hafter
  cases part with
  | minus => exact .ite (hstay _) <| .ite (hstay _) <| .ite (hstay _) (retains_none _ _)
  | zero => exact htail
  | integer digits => exact .ite (hstay _) <| .ite htail (retains_none _ _)
  | point | exponentSign => exact .ite (hstay _) (retains_none _ _)
  | fraction => exact .ite (hstay _) <| .ite (hstay _) hafter
  | exponent => exact .ite (hstay _) <| .ite (hstay _) (retains_none _ _)
  | exponentDigits => exact .ite (hstay _) hafter

/-- Inside a container the reader does not look at the containers around it. -/
theorem retains_step (hinner : inner ≠ []) (outer : List Container) (m : Mode) (c : Char) :
    Retains outer (step ⟨inner ++ outer, m⟩ c) (step ⟨inner, m⟩ c) := by
  have hstay (m : Mode) := retains_some inner outer m
  have hleave : Retains outer (some ⟨(inner ++ outer).tail, .afterValue⟩)
      (some ⟨inner.tail, .afterValue⟩) := by
    rw [List.tail_append_of_ne_nil hinner]
    exact retains_some inner.tail outer _
  cases m with
  | value => exact .ite (hstay _) (retains_stepValue _ _ _)
  | elementOrEnd => exact .ite (hstay _) <| .ite hleave (retains_stepValue _ _ _)
  | keyOrEnd => exact .ite (hstay _) <| .ite hleave <| .ite (hstay _) (retains_none _ _)
  | key | colon => exact .ite (hstay _) <| .ite (hstay _) (retains_none _ _)
  | afterValue => exact retains_stepAfter hinner outer c
  | string isKey part => exact retains_stepString _ _ _ _ _
  | name rest =>
    cases rest with
    | nil => exact retains_none _ _
    | cons expected rest => exact .ite (hstay _) (retains_none _ _)
  | number part => exact retains_stepNumber hinner outer c part

end Reader

variable [Limits]

section ValueEnd

variable {r s next : Reader} {c : Char} {t : List Char} {n : Nat}

theorem valueEnd?_cons (hstep : r.step c = some next) (t : List Char) :
    valueEnd? r (c :: t) =
      if next = Reader.finished then some 1 else (valueEnd? next t).map (· + 1) := by
  obtain ⟨frames, mode⟩ := next
  simp only [valueEnd?, hstep, Reader.finished, Reader.mk.injEq, Bool.and_eq_true,
    List.isEmpty_iff, decide_eq_true_eq]

/-- A value that is complete stays so, whatever follows. -/
theorem valueEnd?_append (hend : valueEnd? r t = some n) (u : List Char) :
    valueEnd? r (t ++ u) = some n := by
  induction t generalizing r n with
  | nil => cases hend
  | cons c rest ih =>
    cases hstep : r.step c with
    | none =>
      rw [valueEnd?, hstep] at hend
      cases hend
    | some next =>
      rw [valueEnd?_cons hstep] at hend
      rw [List.cons_append, valueEnd?_cons hstep]
      split
      · next hfinished =>
        rw [if_pos hfinished] at hend
        exact hend
      · next hnot =>
        rw [if_neg hnot, Option.map_eq_some_iff] at hend
        obtain ⟨m, hm, rfl⟩ := hend
        rw [ih hm, Option.map_some]

/-- A value that is not complete is completed by the character that finishes it. -/
theorem valueEnd?_concat_eq_none_iff (hend : valueEnd? r t = none) (hrun : r.run t = some s) :
    valueEnd? r (t ++ [c]) = none ↔ s.step c ≠ some Reader.finished := by
  induction t generalizing r with
  | nil =>
    obtain rfl : r = s := Option.some.inj hrun
    cases hstep : r.step c with
    | none => simp [valueEnd?, hstep]
    | some next => simp [valueEnd?_cons hstep, valueEnd?]
  | cons first rest ih =>
    obtain ⟨middle, hstep, hrest⟩ := Option.bind_eq_some_iff.1 hrun
    rw [valueEnd?_cons hstep] at hend
    split at hend
    · cases hend
    · next hnot =>
      rw [Option.map_eq_none_iff] at hend
      rw [List.cons_append, valueEnd?_cons hstep, if_neg hnot, Option.map_eq_none_iff, ih hend hrest]

end ValueEnd

/-- Whether a container of a kind starts at a position: the reader comes there outside of strings,
    and finds the container's opener. -/
def startsAt (t : List Char) (k : Container) (i : Nat) : Bool :=
  t[i]? = some k.opener && (Reader.start.run (t.take i)).any fun r => !r.mode.isString

/-- Whether a container of a kind starts at a position and is not complete in the text. -/
def isOpenAt (t : List Char) (k : Container) (i : Nat) : Bool :=
  startsAt t k i && (leadingValueEnd? (t.drop i)).isNone

/-- How many containers of a kind start in the text and are not complete in it. -/
def openCount (t : List Char) (k : Container) : Nat := (List.range t.length).countP (isOpenAt t k)

section Open

variable {t : List Char} {r next : Reader} {c : Char} {k : Container} {i : Nat}

theorem lt_length_of_startsAt (hstarts : startsAt t k i = true) : i < t.length := by
  rw [startsAt, Bool.and_eq_true, decide_eq_true_eq] at hstarts
  exact (List.getElem?_eq_some_iff.1 hstarts.1).1

theorem startsAt_concat (hi : i < t.length) (c : Char) :
    startsAt (t ++ [c]) k i = startsAt t k i := by
  rw [startsAt, startsAt, List.getElem?_append_left hi, List.take_append_of_le_length (by omega)]

theorem startsAt_concat_length (hrun : Reader.start.run t = some r) :
    startsAt (t ++ [c]) k t.length = (decide (c = k.opener) && !r.mode.isString) := by
  rw [startsAt, List.take_left, hrun, List.getElem?_append_right (Nat.le_refl _)]
  simp only [Nat.sub_self, List.getElem?_cons_zero, Option.some.injEq, Option.any_some]

/-- A document may start with a container. -/
theorem step_start_opener (k : Container) : Reader.start.step k.opener = some ⟨[k], k.entry⟩ := by
  cases k <;> exact if_pos Limits.depth_pos

theorem leadingValueEnd?_opener (k : Container) : leadingValueEnd? [k.opener] = none := by
  rw [leadingValueEnd?, valueEnd?, step_start_opener]
  rfl

/-- An opener alone is no complete value. -/
theorem isOpenAt_concat_length (hrun : Reader.start.run t = some r) :
    isOpenAt (t ++ [c]) k t.length = (decide (c = k.opener) && !r.mode.isString) := by
  rw [isOpenAt, startsAt_concat_length hrun, List.drop_left]
  by_cases hc : c = k.opener
  · subst hc
    rw [leadingValueEnd?_opener, Option.isNone_none, Bool.and_true]
  · rw [decide_eq_false hc, Bool.false_and, Bool.false_and]

/-- What is complete is never open again. -/
theorem isOpenAt_of_concat (hi : i < t.length) (hopen : isOpenAt (t ++ [c]) k i = true) :
    isOpenAt t k i = true := by
  rw [isOpenAt, Bool.and_eq_true, startsAt_concat hi, List.drop_append_of_le_length (by omega)]
    at hopen
  obtain ⟨hstarts, hnone⟩ := hopen
  rw [isOpenAt, hstarts, Bool.true_and]
  cases hend : leadingValueEnd? (t.drop i) with
  | none => rfl
  | some n =>
    rw [leadingValueEnd?, valueEnd?_append hend] at hnone
    cases hnone

end Open

/-- The open containers of a text that the reader has read, innermost first and each with the
    position where it starts. What was read from there on is a container that is still open, with
    the containers in it. -/
structure IsStack (t : List Char) (r : Reader) (stack : List (Container × Nat)) : Prop where
  frames : r.frames = stack.map Prod.fst
  mem_iff : ∀ k i, (k, i) ∈ stack ↔ isOpenAt t k i = true
  nodup : stack.Nodup
  inside : ∀ above k i below, stack = above ++ (k, i) :: below →
    Reader.start.run (t.drop i) = some ⟨above.map Prod.fst ++ [k], r.mode⟩

namespace IsStack

variable {t : List Char} {r next : Reader} {c : Char} {k : Container} {i : Nat}
  {stack above below : List (Container × Nat)}

theorem lt_length (hstack : IsStack t r stack) (hmem : (k, i) ∈ stack) : i < t.length := by
  have hopen := (hstack.mem_iff k i).1 hmem
  rw [isOpenAt, Bool.and_eq_true] at hopen
  exact lt_length_of_startsAt hopen.1

/-- One more character, seen from inside an open container. The container stays open unless this
    character finishes it. -/
theorem exists_step (hstack : IsStack t r stack) (hstep : r.step c = some next)
    (hsplit : stack = above ++ (k, i) :: below) :
    ∃ frames, next.frames = frames ++ below.map Prod.fst ∧
      Reader.start.run ((t ++ [c]).drop i) = some ⟨frames, next.mode⟩ ∧
      (isOpenAt (t ++ [c]) k i = true ↔ (⟨frames, next.mode⟩ : Reader) ≠ Reader.finished) := by
  have hmem : (k, i) ∈ stack := by simp [hsplit]
  have hi := hstack.lt_length hmem
  have hinside := hstack.inside above k i below hsplit
  have hr : r = ⟨(above.map Prod.fst ++ [k]) ++ below.map Prod.fst, r.mode⟩ := by
    have hframes := hstack.frames
    rw [hsplit, List.map_append, List.map_cons] at hframes
    rw [List.append_assoc, List.singleton_append, ← hframes]
  rw [hr] at hstep
  obtain ⟨frames, hframes, halone⟩ :=
    Reader.retains_step (by simp) (below.map Prod.fst) r.mode c next hstep
  have hdrop : (t ++ [c]).drop i = t.drop i ++ [c] := List.drop_append_of_le_length (by omega)
  refine ⟨frames, hframes, ?_, ?_⟩
  · rw [hdrop, Reader.run_append_of_run hinside, Reader.run, halone]
    rfl
  · have hopen := (hstack.mem_iff k i).1 hmem
    rw [isOpenAt, Bool.and_eq_true, Option.isNone_iff_eq_none] at hopen
    rw [isOpenAt, startsAt_concat hi, hopen.1, Bool.true_and, Option.isNone_iff_eq_none, hdrop,
      leadingValueEnd?, valueEnd?_concat_eq_none_iff hopen.2 hinside, halone, Ne, Option.some.injEq]

/-- What is open behind one more character was open before, or starts with it. -/
theorem mem_or_starts (hstack : IsStack t r stack) (hrun : Reader.start.run t = some r)
    (hopen : isOpenAt (t ++ [c]) k i = true) :
    (k, i) ∈ stack ∨ i = t.length ∧ c = k.opener ∧ r.mode.isString = false := by
  have hstarts := hopen
  rw [isOpenAt, Bool.and_eq_true] at hstarts
  have hle := lt_length_of_startsAt hstarts.1
  rw [List.length_append, List.length_singleton] at hle
  by_cases hi : i = t.length
  · rw [hi, isOpenAt_concat_length hrun, Bool.and_eq_true, decide_eq_true_eq,
      Bool.not_eq_true'] at hopen
    exact .inr ⟨hi, hopen⟩
  · exact .inl ((hstack.mem_iff k i).2 (isOpenAt_of_concat (by omega) hopen))

/-- A character that neither enters nor leaves a container. -/
theorem stay (hstack : IsStack t r stack) (hrun : Reader.start.run t = some r)
    (hstep : r.step c = some next) (hframes : next.frames = r.frames)
    (hnot : ∀ k : Container, c = k.opener → r.mode.isString = true) :
    IsStack (t ++ [c]) next stack := by
  have hinner {above below : List (Container × Nat)} {k : Container} {i : Nat}
      (hsplit : stack = above ++ (k, i) :: below) :
      Reader.start.run ((t ++ [c]).drop i) = some ⟨above.map Prod.fst ++ [k], next.mode⟩ ∧
        isOpenAt (t ++ [c]) k i = true := by
    obtain ⟨frames, hbelow, hread, hopen⟩ := hstack.exists_step hstep hsplit
    rw [hframes, hstack.frames, hsplit, List.map_append, List.map_cons, List.append_cons] at hbelow
    have heq := List.append_cancel_right hbelow
    rw [← heq] at hread hopen
    refine ⟨hread, hopen.2 fun hfinished => ?_⟩
    simp [Reader.finished] at hfinished
  refine ⟨hframes.trans hstack.frames, fun k i => ⟨fun hmem => ?_, fun hopen => ?_⟩, hstack.nodup,
    fun above k i below hsplit => (hinner hsplit).1⟩
  · obtain ⟨above, below, hsplit⟩ := List.append_of_mem hmem
    exact (hinner hsplit).2
  · obtain hmem | ⟨_, hc, hout⟩ := hstack.mem_or_starts hrun hopen
    · exact hmem
    · rw [hnot k hc] at hout
      cases hout

/-- A character that opens a container. -/
theorem push (hstack : IsStack t r stack) (hrun : Reader.start.run t = some r)
    (hstep : r.step k.opener = some ⟨k :: r.frames, k.entry⟩) (hout : r.mode.isString = false) :
    IsStack (t ++ [k.opener]) ⟨k :: r.frames, k.entry⟩ ((k, t.length) :: stack) := by
  have hinner {above below : List (Container × Nat)} {k' : Container} {i : Nat}
      (hsplit : stack = above ++ (k', i) :: below) :
      Reader.start.run ((t ++ [k.opener]).drop i) =
          some ⟨k :: (above.map Prod.fst ++ [k']), k.entry⟩ ∧
        isOpenAt (t ++ [k.opener]) k' i = true := by
    obtain ⟨frames, hbelow, hread, hopen⟩ := hstack.exists_step hstep hsplit
    dsimp only at hbelow
    rw [hstack.frames, hsplit, List.map_append, List.map_cons, List.append_cons,
      ← List.cons_append] at hbelow
    have heq := List.append_cancel_right hbelow
    rw [← heq] at hread hopen
    refine ⟨hread, hopen.2 fun hfinished => ?_⟩
    simp [Reader.finished] at hfinished
  refine ⟨congrArg (k :: ·) hstack.frames, fun k' i => ⟨fun hmem => ?_, fun hopen => ?_⟩, ?_,
    fun above k' i below hsplit => ?_⟩
  · obtain hnew | hmem := List.mem_cons.1 hmem
    · cases hnew
      rw [isOpenAt_concat_length hrun, hout, decide_eq_true rfl]
      rfl
    · obtain ⟨above, below, hsplit⟩ := List.append_of_mem hmem
      exact (hinner hsplit).2
  · obtain hmem | ⟨rfl, hc, _⟩ := hstack.mem_or_starts hrun hopen
    · exact List.mem_cons_of_mem _ hmem
    · have hk : k = k' := by cases k <;> cases k' <;> first | rfl | exact absurd hc (by decide)
      rw [hk]
      exact List.mem_cons_self
  · refine List.nodup_cons.2 ⟨fun hmem => ?_, hstack.nodup⟩
    exact Nat.lt_irrefl _ (hstack.lt_length hmem)
  · cases above with
    | nil =>
      cases hsplit
      rw [List.drop_left, Reader.run, step_start_opener]
      rfl
    | cons first above =>
      rw [List.cons_append, List.cons.injEq] at hsplit
      rw [← hsplit.1]
      exact (hinner hsplit.2).1

/-- A character that closes the innermost container. -/
theorem pop {j : Nat} (hstack : IsStack t r ((k, j) :: stack))
    (hrun : Reader.start.run t = some r) (hstep : r.step c = some next)
    (hframes : r.frames = k :: next.frames) (hnext : next.mode = .afterValue)
    (hnot : ∀ k : Container, c ≠ k.opener) :
    IsStack (t ++ [c]) next stack := by
  have hbelow : next.frames = stack.map Prod.fst := by
    have hall := hstack.frames
    rw [hframes, List.map_cons, List.cons.injEq] at hall
    exact hall.2
  have hinner {above below : List (Container × Nat)} {k' : Container} {i : Nat}
      (hsplit : stack = above ++ (k', i) :: below) :
      Reader.start.run ((t ++ [c]).drop i) = some ⟨above.map Prod.fst ++ [k'], next.mode⟩ ∧
        isOpenAt (t ++ [c]) k' i = true := by
    have hsplit' : (k, j) :: stack = ((k, j) :: above) ++ (k', i) :: below := by
      rw [hsplit, List.cons_append]
    obtain ⟨frames, hframes', hread, hopen⟩ := hstack.exists_step hstep hsplit'
    rw [hbelow, hsplit, List.map_append, List.map_cons, List.append_cons] at hframes'
    have heq := List.append_cancel_right hframes'
    rw [← heq] at hread hopen
    refine ⟨hread, hopen.2 fun hfinished => ?_⟩
    simp [Reader.finished] at hfinished
  -- the innermost container is complete now
  have hclosed : isOpenAt (t ++ [c]) k j = false := by
    have hsplit : (k, j) :: stack = [] ++ (k, j) :: stack := rfl
    obtain ⟨frames, hframes', _, hopen⟩ := hstack.exists_step hstep hsplit
    rw [hbelow] at hframes'
    have hnil : frames = [] := List.append_cancel_right (hframes'.symm.trans (List.nil_append _).symm)
    rw [Bool.eq_false_iff, Ne, hopen, hnil, hnext]
    exact fun hne => hne rfl
  refine ⟨hbelow, fun k' i => ⟨fun hmem => ?_, fun hopen => ?_⟩, (List.nodup_cons.1 hstack.nodup).2,
    fun above k' i below hsplit => (hinner hsplit).1⟩
  · obtain ⟨above, below, hsplit⟩ := List.append_of_mem hmem
    exact (hinner hsplit).2
  · obtain hmem | ⟨_, hc, _⟩ := hstack.mem_or_starts hrun hopen
    · obtain hfirst | hmem := List.mem_cons.1 hmem
      · cases hfirst
        rw [hclosed] at hopen
        cases hopen
      · exact hmem
    · exact absurd hc (hnot k')

end IsStack

section Count

variable {t : List Char} {r : Reader}

/-- The reader's containers are those that are open in the text. -/
theorem exists_isStack (hrun : Reader.start.run t = some r) : ∃ stack, IsStack t r stack := by
  induction t using List.reverseRecOn generalizing r with
  | nil =>
    cases hrun
    exact ⟨[], rfl, fun k i => by simp [isOpenAt, startsAt], List.nodup_nil, by simp⟩
  | append_singleton t c ih =>
    rw [Reader.run_append, Option.bind_eq_some_iff] at hrun
    obtain ⟨middle, hmiddle, hlast⟩ := hrun
    obtain ⟨stack, hstack⟩ := ih hmiddle
    have hstep : middle.step c = some r := by
      rw [Reader.run, Option.bind_eq_some_iff] at hlast
      obtain ⟨next, hstep, hnext⟩ := hlast
      cases hnext
      exact hstep
    have hstring {isKey : Bool} {part : StringPart} (hmode : middle.mode = .string isKey part) :
        middle.mode.isString = true := by
      rw [hmode]
      rfl
    have hmove := Reader.move_of_step (Reader.fits_of_run Reader.fits_start hmiddle) hstep
    cases hmove with
    | token _ hmark hframes =>
      refine ⟨stack, hstack.stay hmiddle hstep hframes fun k hc => ?_⟩
      rw [hc] at hmark
      cases k <;> cases hmark
    | enter k hout hc hnext =>
      subst hc hnext
      exact ⟨_, hstack.push hmiddle hstep hout⟩
    | leave k _ hc hframes hnext =>
      have hnot (k' : Container) : c ≠ k'.opener := by
        rw [hc]
        cases k <;> cases k' <;> decide
      cases stack with
      | nil =>
        have hnil := hstack.frames
        rw [hframes] at hnil
        cases hnil
      | cons first stack =>
        obtain ⟨k', j⟩ := first
        have hk := hstack.frames
        rw [hframes, List.map_cons, List.cons.injEq] at hk
        obtain rfl : k = k' := hk.1
        exact ⟨stack, hstack.pop hmiddle hstep hframes hnext hnot⟩
    | quote _ _ hc hnext =>
      refine ⟨stack, hstack.stay hmiddle hstep (by rw [hnext]) fun k hopener => ?_⟩
      rw [hc] at hopener
      cases k <;> cases hopener
    | unquote _ hmode _ hnext | backslash _ hmode _ hnext | escaped _ _ hmode _ hnext
    | literal _ _ _ hmode _ _ _ _ hnext =>
      exact ⟨stack, hstack.stay hmiddle hstep (by rw [hnext]) fun _ _ => hstring hmode⟩

/-- The reader has as many containers of a kind on its stack as are open in the text. -/
theorem count_frames (hrun : Reader.start.run t = some r) (k : Container) :
    r.frames.count k = openCount t k := by
  obtain ⟨stack, hstack⟩ := exists_isStack hrun
  -- the positions of one kind on the stack, and the open positions of that kind in the text
  have hperm : ((stack.filter (·.1 = k)).map Prod.snd).Perm
      ((List.range t.length).filter (isOpenAt t k)) := by
    rw [List.perm_ext_iff_of_nodup _ (List.nodup_range.filter _)]
    · intro i
      simp only [List.mem_map, List.mem_filter, List.mem_range, decide_eq_true_eq]
      constructor
      · rintro ⟨⟨k', j⟩, ⟨hmem, rfl⟩, rfl⟩
        exact ⟨hstack.lt_length hmem, (hstack.mem_iff _ _).1 hmem⟩
      · rintro ⟨_, hopen⟩
        exact ⟨(k, i), ⟨(hstack.mem_iff k i).2 hopen, rfl⟩, rfl⟩
    · refine List.Nodup.map_on ?_ (hstack.nodup.filter _)
      rintro ⟨k₁, i₁⟩ h₁ ⟨k₂, i₂⟩ h₂ rfl
      simp only [List.mem_filter, decide_eq_true_eq] at h₁ h₂
      rw [h₁.2, h₂.2]
  have hlength := hperm.length_eq
  rw [List.length_map, ← List.countP_eq_length_filter, ← List.countP_eq_length_filter] at hlength
  rw [openCount, ← hlength, hstack.frames, List.count, List.countP_map]
  apply List.countP_congr
  intro e _
  simp

end Count

end Rejoin.Json
