import Mathlib.Algebra.Order.Ring.Rat
import Mathlib.Tactic.Linarith
import Rejoin.Timeline.Race

/-!
What the signal does to waiting. A wait for time, or for work, ends by the signal exactly if the
signal becomes raised before the wait is over; and if it does not, the signal is not raised at the
end of the wait, unless the work raised it.
-/

namespace Rejoin

namespace Signal

variable {s : Signal} {now later : Instant}

theorem check_some (s : Signal) (now : Instant) (message : String) :
    check (some s) now message = if s.isRaised now then some (.cancelled message) else none := rfl

theorem isRaised_eq_false_iff :
    s.isRaised now = false ↔ s.raised = false ∧ ∀ due, s.due = some due → now ≤ due := by
  obtain ⟨raised, due⟩ := s
  cases due <;> simp [isRaised, not_lt]

theorem wasRaised_iff :
    s.wasRaised now = true ↔ s.raised = true ∨ ∃ due, s.due = some due ∧ due ≤ now := by
  obtain ⟨raised, due⟩ := s
  cases due <;> simp [wasRaised]

theorem raisedBetween?_eq_some_iff {start t : Instant} {stop : Option Instant} :
    s.raisedBetween? start stop = some t ↔
      s.due = some t ∧ start ≤ t ∧ ∀ e, stop = some e → t < e := by
  cases stop <;> simp [raisedBetween?, Option.filter_eq_some_iff]

/-- A signal that does not become raised in between is not raised later. -/
theorem isRaised_of_raisedBetween?_eq_none (hnow : s.isRaised now = false)
    (hnone : s.raisedBetween? now (some later) = none) : s.isRaised later = false := by
  rw [isRaised_eq_false_iff] at hnow ⊢
  refine ⟨hnow.1, fun due hdue => ?_⟩
  by_contra hbefore
  have hsome : s.raisedBetween? now (some later) = some due :=
    raisedBetween?_eq_some_iff.2 ⟨hdue, hnow.2 due hdue, fun e he => by cases he; exact not_le.1 hbefore⟩
  rw [hnone] at hsome
  cases hsome

theorem shiftedBy_zero (s : Signal) : s.shiftedBy 0 = s := by
  simp [shiftedBy]

end Signal

theorem timeOf_nonneg (delay : Option Rat) : 0 ≤ timeOf delay := by
  rw [timeOf.eq_def]
  split
  · split
    · next hpos => exact le_of_lt hpos
    · exact le_refl 0
  · exact le_refl 0

theorem le_add_timeOf (now : Instant) (delay : Option Rat) : now ≤ now + timeOf delay :=
  le_add_of_nonneg_right (timeOf_nonneg delay)

namespace Work

variable {α : Type} {w : Work α} {start t e : Instant}

/-- No work ends before it starts. -/
theorem le_of_finishAt? (hfinish : w.finishAt? start = some e) : start ≤ e := by
  unfold finishAt? at hfinish
  split at hfinish
  · cases hfinish
    exact le_refl start
  · cases hfinish
    exact le_add_timeOf start _
  · cases hfinish

theorem isBusyAt_iff :
    w.isBusyAt start t = true ↔ start ≤ t ∧ ∀ e, w.finishAt? start = some e → t < e := by
  rw [isBusyAt]
  cases w.finishAt? start <;> simp

/-- Whether work that nobody cancels ends, and how. -/
def EndsAs (w : Work α) (ending : Ending α) : Prop := w.duration ≠ .endless ∧ w.ending = ending

/-- Whether work raises the signal, if nobody cancels it: as it starts, or at its end, if it has one. -/
def RaisesSignal (w : Work α) : Prop :=
  w.raises = some .atStart ∨ w.raises = some .atEnd ∧ w.duration ≠ .endless

theorem raisesSignal_iff (hends : w.duration ≠ .endless) :
    w.RaisesSignal ↔ w.raises.isSome = true := by
  rw [RaisesSignal]
  obtain _ | ⟨⟨⟩⟩ := w.raises <;> simp [hends]

/-- Work that takes no time ends as it says. -/
theorem endsAs_of_atOnce (hduration : w.duration = .atOnce) : w.EndsAs w.ending := by
  refine ⟨?_, rfl⟩
  rw [hduration]
  rintro ⟨⟩

theorem finishAt?_eq_none_iff : w.finishAt? start = none ↔ w.duration = .endless := by
  rw [finishAt?]
  cases w.duration <;> simp

theorem ne_endless_of_finishAt? (hfinish : w.finishAt? start = some e) : w.duration ≠ .endless := by
  rw [Ne, ← finishAt?_eq_none_iff, hfinish]
  exact Option.some_ne_none e

theorem finishAt?_of_atOnce (hduration : w.duration = .atOnce) : w.finishAt? start = some start := by
  rw [finishAt?, hduration]

end Work

section Wait

variable {length : Number} {s : Signal} {stop : Option Instant} {now e : Instant} {w : Waited}

/-- A positive number is infinite or finite. -/
theorem Number.isPositive_iff (x : Number) :
    x.isPositive = true ↔
      x.extent? = some .highest ∧ x.rat? = none ∨ ∃ q, x.rat? = some q ∧ 0 < q := by
  have hzero : (Number.int 0).extent? = some (.point 0) := rfl
  rw [isPositive, lt, hzero, rat?]
  cases x.extent? with
  | none => simp
  | some e => cases e <;> simp [Extent.lt]

/-- Only a time that is infinite is never over. -/
theorem Number.after?_eq_none_iff :
    length.after? now = none ↔ length.extent? = some .highest := by
  rw [after?]
  split
  · next hpositive =>
    obtain ⟨hextent, hrat⟩ | ⟨q, hrat, _⟩ := (isPositive_iff length).1 hpositive
    · simp [hextent, hrat]
    · refine iff_of_false (by simp [hrat]) fun hextent => ?_
      rw [rat?, hextent] at hrat
      cases hrat
  · next hnot =>
    refine iff_of_false nofun fun hextent => hnot ?_
    rw [isPositive, lt, hextent]
    rfl

/-- A time that is over takes the seconds that it has, and none if they are negative. -/
theorem Number.after?_eq_some_iff :
    length.after? now = some e ↔
      length.isPositive = true ∧ (∃ q, length.rat? = some q ∧ e = now + q) ∨
        length.isPositive = false ∧ e = now := by
  rw [after?]
  cases length.isPositive with
  | true => simp [eq_comm]
  | false => simp [eq_comm]

/-- No time is over before it begins, and a positive one is over later. -/
theorem Number.le_of_after? (hafter : length.after? now = some e) :
    now ≤ e ∧ (length.isPositive = true → now < e) := by
  obtain ⟨hpositive, q, hq, rfl⟩ | ⟨hnot, rfl⟩ := after?_eq_some_iff.1 hafter
  · obtain ⟨_, hnone⟩ | ⟨q', hq', hlt⟩ := (isPositive_iff length).1 hpositive
    · rw [hq] at hnone
      cases hnone
    · rw [hq] at hq'
      cases hq'
      exact ⟨by linarith, fun _ => by linarith⟩
  · exact ⟨le_refl _, fun hpositive => by rw [hnot] at hpositive; cases hpositive⟩

/-- Waiting with a signal that is not raised yet: the signal ends the wait when it is due, if that is
    before the end of the wait, and makes no difference otherwise. -/
theorem wait_cases (hnow : s.isRaised now = false) (stop : Option Instant) :
    (s.raisedBetween? now stop = none ∧ wait stop (some s) now = wait stop none now) ∨
    ∃ due, s.raisedBetween? now stop = some due ∧
      wait stop (some s) now = some ⟨some (.cancelled "Continuation cancelled during delay"), due⟩ := by
  unfold wait
  dsimp only
  rw [hnow, if_neg Bool.false_ne_true]
  cases s.raisedBetween? now stop with
  | none => exact .inl ⟨rfl, rfl⟩
  | some due => exact .inr ⟨due, rfl, rfl⟩

/-- No wait ends before it starts. -/
theorem le_until_wait (hstop : ∀ e, stop = some e → now ≤ e) {s : Option Signal}
    (hwait : wait stop s now = some w) : now ≤ w.until_ := by
  have hplain (hplain : wait stop none now = some w) : now ≤ w.until_ := by
    obtain ⟨e, he, rfl⟩ := Option.map_eq_some_iff.1 hplain
    exact hstop e he
  cases s with
  | none => exact hplain hwait
  | some s =>
    cases hnow : s.isRaised now with
    | true =>
      rw [wait, if_pos hnow] at hwait
      cases hwait
      exact le_refl now
    | false =>
      obtain ⟨_, heq⟩ | ⟨due, hdue, heq⟩ := wait_cases hnow stop
      · exact hplain (heq ▸ hwait)
      · rw [heq] at hwait
        cases hwait
        exact (Signal.raisedBetween?_eq_some_iff.1 hdue).2.1

/-- A wait without an end is one for an instant that never comes. -/
theorem eq_none_of_wait {s : Option Signal} (hwait : wait stop s now = none) : stop = none := by
  cases s with
  | none => exact Option.map_eq_none_iff.1 hwait
  | some s =>
    cases hnow : s.isRaised now with
    | true =>
      rw [wait, if_pos hnow] at hwait
      cases hwait
    | false =>
      obtain ⟨_, heq⟩ | ⟨due, _, heq⟩ := wait_cases hnow stop
      · exact Option.map_eq_none_iff.1 (heq ▸ hwait)
      · rw [heq] at hwait
        cases hwait

end Wait

namespace Race

variable {α : Type} {w : Work α} {s : Signal} {start c : Instant} {a : Awaited α}

/-- The signal interrupts work when it becomes raised before the work is finished: as the work starts,
    if the work itself raises it then, or else when it is due. -/
theorem signalTime?_eq_some_iff :
    signalTime? w s start = some c ↔
      (∀ e, w.finishAt? start = some e → c < e) ∧
        if w.raises = some .atStart then c = start else s.due = some c ∧ start ≤ c := by
  rw [signalTime?]
  split
  · constructor
    · intro htime
      split at htime
      · next hbusy =>
        cases htime
        exact ⟨(Work.isBusyAt_iff.1 hbusy).2, rfl⟩
      · cases htime
    · rintro ⟨hpending, rfl⟩
      exact if_pos (Work.isBusyAt_iff.2 ⟨le_refl _, hpending⟩)
  · rw [Signal.raisedBetween?_eq_some_iff]
    tauto

/-- When work that nobody interrupts has ended, the signal is raised if it was before or if the work
    raises it. -/
def afterWork (w : Work α) (s : Signal) : Signal := { s with raised := s.raised || w.raises.isSome }

/-- What comes of waiting for work that nobody interrupts, if it ends. -/
def answered? (w : Work α) (s : Option Signal) (start : Instant) : Option (Awaited α) :=
  (w.complete start).map fun e => ⟨e.ending, e.at_, e.trace, s, [], e.at_⟩

theorem answered?_eq_some_iff {s : Option Signal} :
    answered? w s start = some a ↔ ∃ e, w.finishAt? start = some e ∧
      a = ⟨w.ending, e, [(.started, start), (.finished, e)], s, [], e⟩ := by
  rw [answered?, Work.complete, Work.trace]
  cases w.finishAt? start <;> simp [eq_comm]

theorem await_of_isRaised (hraised : s.isRaised start = true) (w : Work α) :
    await w start (some s) false none =
      some ⟨cancelledEnding "Continuation cancelled before request", start, [], some s, [], start⟩ :=
  if_pos hraised

/-- Work that the signal interrupts is cancelled, and waited for until it has cleaned up. -/
theorem await_of_signalTime? (hraised : s.isRaised start = false)
    (htime : signalTime? w s start = some c) :
    await w start (some s) false none =
      some ⟨cancelledEnding "Continuation cancelled while awaiting response", c + timeOf w.cleanup,
        [(.started, start), (.cancelled, c)] ++
          (if w.cleanup.isSome then [(.cleaned, c + timeOf w.cleanup)] else []),
        some (afterStart w s), drainRecords w.afterCancel, some (c + timeOf w.cleanup)⟩ := by
  rw [await, hraised, if_neg Bool.false_ne_true, against, htime]
  rfl

theorem afterWork_eq (w : Work α) (s : Signal) :
    (if w.raises = some .atEnd then (afterStart w s).raise else afterStart w s) = afterWork w s := by
  rw [afterStart, afterWork]
  obtain _ | ⟨⟨⟩⟩ := w.raises <;> simp [Signal.raise]

/-- Work that the signal does not interrupt ends by itself. -/
theorem await_of_signalTime?_eq_none (hraised : s.isRaised start = false)
    (htime : signalTime? w s start = none) :
    await w start (some s) false none = answered? w (afterWork w s) start := by
  rw [await, hraised, if_neg Bool.false_ne_true, against, htime, answered?, ← afterWork_eq]
  rfl

/-- Work that does not raise the signal leaves it as it was. -/
theorem answered?_afterWork (hraises : ¬ w.RaisesSignal) :
    answered? w (afterWork w s) start = answered? w (some s) start := by
  cases hfinish : w.finishAt? start with
  | none => simp only [answered?, Work.complete, hfinish, Option.map_none]
  | some e =>
    rw [Work.raisesSignal_iff (Work.ne_endless_of_finishAt? hfinish), Bool.not_eq_true] at hraises
    have hsignal : afterWork w s = s := by
      rw [afterWork, hraises, Bool.or_false]
    rw [hsignal]

/-- Work that does not raise the signal, and is not interrupted by it, is waited for as it is without
    one. -/
theorem await_eq_or_due (hraised : s.isRaised start = false) (hraises : ¬ w.RaisesSignal) :
    await w start (some s) false none = answered? w (some s) start ∨
      ∃ due, s.due = some due ∧ (∀ a, await w start (some s) false none = some a → due ≤ a.at_) ∧
        ∀ a, await w start none false none = some a → due < a.at_ := by
  cases htime : signalTime? w s start with
  | none =>
    rw [await_of_signalTime?_eq_none hraised htime, answered?_afterWork hraises]
    exact .inl rfl
  | some c =>
    rw [await_of_signalTime? hraised htime]
    obtain ⟨hfinish, hat⟩ := signalTime?_eq_some_iff.1 htime
    rw [if_neg fun hstart => hraises (.inl hstart)] at hat
    refine .inr ⟨c, hat.1, ?_, fun a ha => ?_⟩
    · rintro a ⟨⟩
      exact le_add_timeOf c w.cleanup
    · obtain ⟨e, he, rfl⟩ := answered?_eq_some_iff.1 ha
      exact hfinish e he

/-- Work is never waited for in the past. -/
theorem le_at_of_await {s : Option Signal} (ha : await w start s false none = some a) :
    start ≤ a.at_ := by
  have hanswered {s : Option Signal} (ha : answered? w s start = some a) : start ≤ a.at_ := by
    obtain ⟨e, he, rfl⟩ := answered?_eq_some_iff.1 ha
    exact Work.le_of_finishAt? he
  cases s with
  | none => exact hanswered ha
  | some s =>
    cases hraised : s.isRaised start with
    | true =>
      rw [await_of_isRaised hraised] at ha
      cases ha
      exact le_refl start
    | false =>
      cases htime : signalTime? w s start with
      | none =>
        rw [await_of_signalTime?_eq_none hraised htime] at ha
        exact hanswered ha
      | some c =>
        rw [await_of_signalTime? hraised htime] at ha
        cases ha
        have hstart : start ≤ c := by
          obtain ⟨_, hat⟩ := signalTime?_eq_some_iff.1 htime
          split at hat
          · exact le_of_eq hat.symm
          · exact hat.2
        exact hstart.trans (le_add_timeOf c w.cleanup)

/-- Only work that never ends is waited for without end, and only if it is not interrupted. -/
theorem await_eq_none_iff : await w start (some s) false none = none ↔
    s.isRaised start = false ∧ w.finishAt? start = none ∧ signalTime? w s start = none := by
  cases hraised : s.isRaised start with
  | true => simp [await_of_isRaised hraised]
  | false =>
    cases htime : signalTime? w s start with
    | none =>
      rw [await_of_signalTime?_eq_none hraised htime, answered?, Work.complete]
      cases w.finishAt? start <;> simp
    | some c => simp [await_of_signalTime? hraised htime]

end Race

end Rejoin
