import Rejoin.Proofs.Timeline.Settling
import Rejoin.Proofs.Turn.Ending
import Rejoin.Proofs.Turn.Unused

/-!
A turn from one wait to the next. Where several turns are under way a turn does not go on in one piece:
it stops whenever it has to wait, for the pause before a request or for the answer to one, and others may
take their steps in between. What a turn is at then is its activity. Every step of an activity leaves it
at what the turn, left alone, comes to anyway.
-/

namespace Rejoin.Turn

/-- What a turn is at: its latest response is to be judged; it pauses before a request, until an instant
    or until the signal ends the pause; it awaits an answer, without a signal or in a race with it; or it
    has ended, or waits for ever, so that nothing is left to come. -/
inductive Activity where
  | judging (s : State)
  | pausing (s : State) (stop : Option Instant)
  | awaiting (s : State) (w : Work (Option Response))
  | racing (s : State) (signal : Signal) (w : Work (Option Response))
      (p : Race.Parties (Option Response))
  | ended (r : Report)

namespace Activity

def ofProgress : Progress → Activity
  | .pending s => judging s
  | .ended r => ended r

/-- The instant at which a turn came to where it is. -/
def instant : Activity → Instant
  | judging s => s.now
  | pausing s _ => s.now
  | awaiting s _ => s.now
  | racing _ _ _ p => p.now
  | ended r => r.state.now

def isEnded : Activity → Bool
  | ended _ => true
  | _ => false

/-- How many judgements the next step takes. -/
def judgements : Activity → Nat
  | judging _ => 1
  | _ => 0

end Activity

section Segments

/-- The wait for an answer, if it has an end. -/
def awaitAnswer (s : State) (signal : Option Signal) (w : Work (Option Response)) : Activity :=
  if (Race.await w s.now signal false none).isNone then .ended ⟨.waitsForEver, s⟩
  else
    match signal with
    | none => .awaiting s w
    | some signal =>
      if signal.isRaised s.now then .ofProgress (receive s (Race.refused w signal s.now false))
      else .racing s signal w (.atCall signal s.now none)

/-- One request, up to the wait for its answer. -/
def ask (t : Turn) (s : State) : Activity :=
  let call := t.sender s.count
  let s := t.sent s (requestFor t.policy t.messages s.latest)
  match call with
  | .refused f => .ended (fail s f)
  | .accepted raisesSignal w =>
    awaitAnswer s (if raisesSignal then s.signal.map Signal.raise else s.signal) w

/-- Whether a round comes to its pause, and the pause has an end. -/
def isGoing (t : Turn) (s : State) : Bool :=
  s.count < t.cap && (Signal.check s.signal s.now Fault.cancelledMessage).isNone &&
    !t.isStalled s && (t.pause s).isSome

variable [Json.Limits]

/-- A round, up to its first wait. -/
def enter (t : Turn) (s : State) : Activity :=
  if t.isGoing s then
    if t.pauseEnd s = some s.now then t.ask (t.remark s) else .pausing s (t.pauseEnd s)
  else .ofProgress (t.round s)

/-- The state in which the round after a truncated response begins. -/
def afterTruncated (s : State) (v : Verdict) : State :=
  let s := s.report v.records
  let d := v.diagnosis
  match s.count with
  | 0 =>
    let s := s.tell .info ("Response truncated (" ++ d.reason.name ++ "): " ++ d.details)
    { s with began := s.now }
  | _ + 1 =>
    let tail := Text.preview (Response.textOf s.latest) Text.previewLimit
    s.tell .debug
      ("Continuation " ++ toString s.count ++ " still truncated (" ++ d.reason.name ++
        "), tail: " ++ String.ofList tail)

/-- What a turn does when its latest response was judged, up to its next wait. -/
def proceed (t : Turn) (s : State) (v : Verdict) : Activity :=
  if v.diagnosis.isTruncated then t.enter (afterTruncated s v) else .ofProgress (t.resume s v)

end Segments

/-- A step of a turn. A pause ends when it is over or when the signal is due; if both come together
    either may be first. The answer to a request comes when the work ends, or when the race has settled
    that one of the parties takes part in after the other. -/
inductive Acts [Json.Limits] (t : Turn) (d : Detector) (judged : Nat) :
    Activity → Activity → Prop where
  | judges (s : State) : Acts t d judged (.judging s) (t.proceed s (d.judge judged s.latest))
  | wakes {s : State} {stop : Instant}
      (hbefore : ∀ sig due, s.signal = some sig → sig.due = some due → stop ≤ due) :
      Acts t d judged (.pausing s (some stop)) (t.ask (t.remark { s with now := stop }))
  | interrupted {s : State} {stop : Option Instant} {due : Instant} {sig : Signal}
      (hsignal : s.signal = some sig) (hdue : sig.due = some due)
      (hbefore : ∀ e, stop = some e → due ≤ e) :
      Acts t d judged (.pausing s stop)
        (.ended (cancel { s with now := due } (.cancelled "Continuation cancelled during delay")))
  | answers {s : State} {w : Work (Option Response)} {a : Awaited (Option Response)}
      (ha : Race.plain w s.now none = some a) :
      Acts t d judged (.awaiting s w) (.ofProgress (receive s a))
  | races {s : State} {signal : Signal} {w : Work (Option Response)}
      {p q : Race.Parties (Option Response)} (h : Race.Step w p q)
      (hgoing : q.caller.isEnded = false) :
      Acts t d judged (.racing s signal w p) (.racing s signal w q)
  | settles {s : State} {signal : Signal} {w : Work (Option Response)}
      {p q : Race.Parties (Option Response)} {ending : Ending (Option Response)} {at_ : Instant}
      (h : Race.Step w p q) (hended : q.caller = .ended ending at_) :
      Acts t d judged (.racing s signal w p)
        (.ofProgress (receive s
          (some ⟨ending, at_, q.trace, some ⟨q.isSet, q.setDue⟩, q.records, at_⟩)))

/-- What the turn comes to, left alone with its activity, when its next wait is over. -/
def Activity.comesTo (t : Turn) : Activity → Progress
  | .judging s => .pending s
  | .pausing s _ => t.goOn s (t.pause s)
  | .awaiting s w => receive s (Race.plain w s.now none)
  | .racing s signal w _ => receive s (Race.await w s.now (some signal) false none)
  | .ended r => .ended r

variable {t : Turn} {s : State} {v : Verdict}

section Pause

/-- A signal that is not set yet. -/
def State.IsUnset (s : State) : Prop := ∀ sig, s.signal = some sig → sig.isRaised s.now = false

theorem isGoing_iff : t.isGoing s = true ↔
    s.count < t.cap ∧ s.IsUnset ∧ t.isStalled s = false ∧ (t.pause s).isSome = true := by
  rw [isGoing, Bool.and_eq_true, Bool.and_eq_true, Bool.and_eq_true, decide_eq_true_eq,
    Bool.not_eq_true', and_assoc, and_assoc]
  refine and_congr_right fun _ => and_congr_left fun _ => ?_
  cases hsignal : s.signal with
  | none => simp [Signal.check, State.IsUnset, hsignal]
  | some sig =>
    rw [Signal.check_some]
    cases hraised : sig.isRaised s.now <;> simp [State.IsUnset, hsignal, hraised]

/-- A pause that is not over at once comes after the first request. -/
theorem pos_of_pauseEnd_ne (hend : t.pauseEnd s ≠ some s.now) : 0 < s.count := by
  by_contra hnot
  exact hend (if_neg hnot)

/-- The pause without a signal ends when it is over. -/
theorem pause_of_signal_eq_none (hsignal : s.signal = none) :
    t.pause s = (t.pauseEnd s).map (⟨none, ·⟩) := by
  rw [pause, hsignal]
  split
  · rfl
  · next hnot => rw [pauseEnd_of_not hnot]; rfl

/-- A pause is over in time if the signal is not due before. -/
theorem pause_of_wakes {stop : Instant} (hunset : s.IsUnset) (hend : t.pauseEnd s = some stop)
    (hbefore : ∀ sig due, s.signal = some sig → sig.due = some due → stop ≤ due) :
    t.pause s = some ⟨none, stop⟩ := by
  cases hsignal : s.signal with
  | none => rw [pause_of_signal_eq_none hsignal, hend]; rfl
  | some sig =>
    obtain ⟨_, hpause⟩ | ⟨due, hbetween, _⟩ := pause_cases (t := t) hsignal (hunset sig hsignal)
    · rw [hpause, hend]
      rfl
    · obtain ⟨hdue, _, hstop⟩ := Signal.raisedBetween?_eq_some_iff.1 hbetween
      exact absurd (hstop stop hend) (not_lt.2 (hbefore sig due hsignal hdue))

/-- A pause that takes no time is over at once. -/
theorem pause_of_pauseEnd_eq (hunset : s.IsUnset) (hend : t.pauseEnd s = some s.now) :
    t.pause s = some ⟨none, s.now⟩ :=
  pause_of_wakes hunset hend fun sig due hsignal hdue =>
    (Signal.isRaised_eq_false_iff.1 (hunset sig hsignal)).2 due hdue

/-- A pause is cut short by a signal that is due before. -/
theorem pause_of_interrupted (hunset : s.IsUnset) {sig : Signal} {due : Instant}
    (hsignal : s.signal = some sig) (hdue : sig.due = some due)
    (hbefore : ∀ stop, t.pauseEnd s = some stop → due < stop) :
    t.pause s = some ⟨some (.cancelled "Continuation cancelled during delay"), due⟩ := by
  have hstart := (Signal.isRaised_eq_false_iff.1 (hunset sig hsignal)).2 due hdue
  have hbetween : sig.raisedBetween? s.now (t.pauseEnd s) = some due :=
    Signal.raisedBetween?_eq_some_iff.2 ⟨hdue, hstart, hbefore⟩
  obtain ⟨hnone, _⟩ | ⟨due', hdue', hpause⟩ := pause_cases (t := t) hsignal (hunset sig hsignal)
  · rw [hbetween] at hnone
    cases hnone
  · rw [hbetween] at hdue'
    cases hdue'
    exact hpause

/-- A pause without an end of its own that ends all the same is one that the signal ends. -/
theorem exists_due_of_pauseEnd_eq_none (hunset : s.IsUnset) (hpause : (t.pause s).isSome = true)
    (hend : t.pauseEnd s = none) : ∃ sig due, s.signal = some sig ∧ sig.due = some due := by
  cases hsignal : s.signal with
  | none =>
    rw [pause_of_signal_eq_none hsignal, hend] at hpause
    cases hpause
  | some sig =>
    obtain ⟨_, hnone⟩ | ⟨due, hbetween, _⟩ := pause_cases (t := t) hsignal (hunset sig hsignal)
    · rw [hnone, hend] at hpause
      cases hpause
    · exact ⟨sig, due, rfl, (Signal.raisedBetween?_eq_some_iff.1 hbetween).1⟩

end Pause

section ComesTo

theorem comesTo_ofProgress (t : Turn) (p : Progress) : (Activity.ofProgress p).comesTo t = p := by
  cases p <;> rfl

theorem comesTo_awaitAnswer (t : Turn) (s : State) (signal : Option Signal)
    (w : Work (Option Response)) :
    (awaitAnswer s signal w).comesTo t = receive s (Race.await w s.now signal false none) := by
  unfold awaitAnswer
  split
  · next hnone =>
    rw [Option.isNone_iff_eq_none.1 hnone]
    rfl
  · cases signal with
    | none => rfl
    | some signal =>
      dsimp only
      split
      · next hraised => rw [comesTo_ofProgress, Race.await, if_pos hraised]
      · rfl

theorem comesTo_ask (t : Turn) (s : State) : (t.ask s).comesTo t = t.request s := by
  unfold ask request
  dsimp only
  cases t.sender s.count with
  | refused f => rfl
  | accepted raisesSignal w => exact comesTo_awaitAnswer t _ _ w

variable [Json.Limits]

theorem comesTo_enter (t : Turn) (s : State) : (t.enter s).comesTo t = t.round s := by
  unfold enter
  split
  · next hgoing =>
    obtain ⟨hcap, hunset, hstalled, _⟩ := isGoing_iff.1 hgoing
    have hcheck : Signal.check s.signal s.now Fault.cancelledMessage = none := by
      cases hsignal : s.signal with
      | none => rfl
      | some sig => rw [Signal.check_some, hunset sig hsignal, if_neg Bool.false_ne_true]
    rw [round_of_going hcap hcheck hstalled]
    split
    · next hend =>
      rw [comesTo_ask, pause_of_pauseEnd_eq hunset hend]
      rfl
    · rfl
  · exact comesTo_ofProgress t _

theorem resume_of_truncated (t : Turn) (htruncated : v.diagnosis.isTruncated = true) :
    t.resume s v = t.round (afterTruncated s v) := by
  have hcount : (s.report v.records).count = s.count := rfl
  unfold resume afterTruncated
  dsimp only
  rw [htruncated, hcount]
  cases s.count <;> rfl

theorem comesTo_proceed (t : Turn) (s : State) (v : Verdict) :
    (t.proceed s v).comesTo t = t.resume s v := by
  unfold proceed
  split
  · next htruncated => rw [comesTo_enter, resume_of_truncated t htruncated]
  · exact comesTo_ofProgress t _

end ComesTo

section Instants

/-- A round that does not come to its request ends the turn, at once. -/
theorem exists_ended_of_not_isGoing [Json.Limits] (hgoing : t.isGoing s = false) :
    ∃ r, t.round s = .ended r ∧ r.state.now = s.now := by
  unfold round
  split
  · exact ⟨_, rfl, now_finish s t _⟩
  next hcap =>
  split
  · exact ⟨_, rfl, rfl⟩
  next hcheck =>
  split
  · exact ⟨_, rfl, now_finish _ t _⟩
  next hstalled =>
  rw [isGoing, hcheck, decide_eq_true (Nat.not_le.1 hcap), Bool.eq_false_iff.2 hstalled] at hgoing
  have hpause : t.pause s = none := Option.not_isSome_iff_eq_none.1 (Bool.eq_false_iff.1 hgoing)
  rw [hpause]
  exact ⟨_, rfl, rfl⟩

theorem exists_ended_of_complete [Json.Limits] (hcomplete : v.diagnosis.isTruncated = false)
    (s : State) :
    ∃ r, t.resume s v = .ended r ∧ r.state.now = s.now := by
  unfold resume
  dsimp only
  rw [hcomplete]
  split
  · exact ⟨_, rfl, rfl⟩
  · next htruncated => cases htruncated
  · exact ⟨_, rfl, now_finish _ t _⟩
  · next htruncated => cases htruncated

theorem instant_ofProgress (p : Progress) : (Activity.ofProgress p).instant = p.now := by
  cases p <;> rfl

theorem instant_awaitAnswer (s : State) (signal : Option Signal) (w : Work (Option Response)) :
    (awaitAnswer s signal w).instant = s.now := by
  unfold awaitAnswer
  split
  · rfl
  split
  · rfl
  split
  · rw [instant_ofProgress, now_receive]
    rfl
  · rfl

theorem instant_ask (t : Turn) (s : State) : (t.ask s).instant = s.now := by
  unfold ask
  dsimp only
  cases t.sender s.count with
  | refused f => exact now_fail _ f
  | accepted raisesSignal w => exact instant_awaitAnswer _ _ w

theorem instant_enter [Json.Limits] (t : Turn) (s : State) : (t.enter s).instant = s.now := by
  unfold enter
  split
  · split
    · rw [instant_ask, now_remark]
    · rfl
  · next hgoing =>
    obtain ⟨r, hended, hnow⟩ := exists_ended_of_not_isGoing (Bool.eq_false_iff.2 hgoing)
    rw [hended]
    exact hnow

theorem sameExchange_afterTruncated (s : State) (v : Verdict) :
    s.SameExchange (afterTruncated s v) := by
  unfold afterTruncated
  dsimp only
  split <;> exact ⟨rfl, rfl, rfl⟩

theorem now_afterTruncated (s : State) (v : Verdict) : (afterTruncated s v).now = s.now := by
  unfold afterTruncated
  dsimp only
  split <;> rfl

theorem instant_proceed [Json.Limits] (t : Turn) (s : State) (v : Verdict) :
    (t.proceed s v).instant = s.now := by
  unfold proceed
  split
  · rw [instant_enter, now_afterTruncated]
  · next hcomplete =>
    obtain ⟨r, hended, hnow⟩ := exists_ended_of_complete (Bool.eq_false_iff.2 hcomplete) s
    rw [hended]
    exact hnow

end Instants

section Weight

/-- A bound on the steps that an activity has before it. Each request takes fewer than a hundred, from
    the judgement before it to the answer. -/
def Activity.weight (t : Turn) : Activity → Nat
  | .judging s => 100 * (t.cap + 1 - s.count) + 1
  | .pausing s _ => 100 * (t.cap - s.count) + 60
  | .awaiting s _ => 100 * (t.cap - s.count) + 2
  | .racing s _ _ p => 100 * (t.cap - s.count) + 2 + p.weight
  | .ended _ => 0

theorem weight_atCall_le {α : Type} (signal : Signal) (start : Instant) :
    (Race.Parties.atCall signal start none : Race.Parties α).weight ≤ 39 := by
  have hahead := Race.ahead_le (Race.Parties.atCall signal start none : Race.Parties α)
  have hdue := signal.due.length_toList_le
  have hrank : (Race.Parties.atCall signal start none : Race.Parties α).rank =
    3 + 2 + 3 + (signal.due.toList.length + 0) := rfl
  rw [Race.Parties.weight, hrank]
  omega

/-- What follows an answer is one response closer to the cap. -/
theorem weight_receive_le (hs : s.responses ≠ []) (a : Awaited (Option Response)) :
    (Activity.ofProgress (receive s (some a))).weight t ≤ 100 * (t.cap - s.count) + 1 := by
  obtain ⟨ending, at_, trace, signal, records, drainedAt⟩ := a
  cases ending with
  | value answer =>
    have hpos := List.length_pos_iff.2 hs
    change 100 * (t.cap + 1 - ((s.responses ++ [answer]).length - 1)) + 1 ≤
      100 * (t.cap - (s.responses.length - 1)) + 1
    rw [List.length_append, List.length_singleton]
    omega
  | failed f => exact Nat.zero_le _
  | abandoned => exact Nat.zero_le _

theorem weight_awaitAnswer_lt (t : Turn) (s : State) (signal : Option Signal)
    (w : Work (Option Response)) :
    (awaitAnswer s signal w).weight t < 100 * (t.cap - s.count) + 60 := by
  unfold awaitAnswer
  split
  · exact Nat.succ_pos _
  split
  · rw [Activity.weight]
    omega
  · next signal _ =>
    split
    · exact Nat.succ_pos _
    · have hrace := @weight_atCall_le (Option Response) signal s.now
      rw [Activity.weight]
      omega

theorem weight_ask_lt (t : Turn) (s : State) :
    (t.ask s).weight t < 100 * (t.cap - s.count) + 60 := by
  unfold ask
  dsimp only
  cases t.sender s.count with
  | refused f => exact Nat.succ_pos _
  | accepted raisesSignal w => exact weight_awaitAnswer_lt t (t.sent s _) _ w

theorem weight_proceed_lt [Json.Limits] (t : Turn) (s : State) (v : Verdict) :
    (t.proceed s v).weight t < (Activity.judging s).weight t := by
  unfold proceed
  split
  · unfold enter
    split
    · next hgoing =>
      have hcount := (sameExchange_afterTruncated s v).count_eq
      obtain ⟨hcap, _⟩ := isGoing_iff.1 hgoing
      rw [hcount] at hcap
      rw [Activity.weight]
      split
      · have hask := weight_ask_lt t (t.remark (afterTruncated s v))
        rw [(sameExchange_remark t _).count_eq, hcount] at hask
        omega
      · rw [Activity.weight, hcount]
        omega
    · next hgoing =>
      obtain ⟨r, hended, _⟩ := exists_ended_of_not_isGoing (Bool.eq_false_iff.2 hgoing)
      rw [hended]
      exact Nat.succ_pos _
  · next hcomplete =>
    obtain ⟨r, hended, _⟩ := exists_ended_of_complete (Bool.eq_false_iff.2 hcomplete) s
    rw [hended]
    exact Nat.succ_pos _

end Weight

end Rejoin.Turn
