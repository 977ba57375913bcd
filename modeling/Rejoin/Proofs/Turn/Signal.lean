import Rejoin.Proofs.Timeline.Race
import Rejoin.Proofs.Turn.Step

/-!
The steps of a turn that has a signal. What the turn knows of its signal is what happened to it: it
is raised if it was due before, or if one of the calls or their work raised it. A round looks at the
signal before anything else, a delay and a pending request end by it, and so no request is sent once
it is raised.
-/

namespace Rejoin

/-- Whether a call raises the signal, itself or by its work. -/
def Call.RaisesSignal : Call → Prop
  | .refused _ => False
  | .accepted raises w => raises = true ∨ w.RaisesSignal

namespace Turn

variable {t : Turn} {s next : State} {event sig : Signal} {k : Nat} {now : Instant}

/-- Whether the signal of a turn is set at an instant at which so many of its calls were answered: it
    was raised or due before, or one of these calls raised it. -/
def IsSet (t : Turn) (event : Signal) (k : Nat) (now : Instant) : Prop :=
  event.isRaised now = true ∨ ∃ i < k, (t.sender i).RaisesSignal

section Request

/-- Two states between which one request was sent, at the instant of the first. -/
structure State.SentNow (s next : State) : Prop where
  responses : next.responses = s.responses
  requests : ∃ messages, next.requests = s.requests ++ [⟨s.now, messages⟩]

/-- What comes of a request that is accepted while the signal is not raised. If the call raises the
    signal the work is never started; if the signal is raised before the work is finished, the work
    is cancelled and cleans up; and otherwise the work ends by itself, if it ever does. -/
inductive Sent (t : Turn) (s : State) (sig : Signal) : Progress → Prop where
  | duringCall {w : Work (Option Response)} {next : State}
      (hcall : t.sender s.count = .accepted true w) (hnext : s.SentNow next) :
      Sent t s sig (.ended (cancel next (.cancelled "Continuation cancelled before request")))
  | whilePending {w : Work (Option Response)} {c : Instant} {next : State}
      (hcall : t.sender s.count = .accepted false w)
      (htime : Race.signalTime? w sig s.now = some c) (hnext : s.SentNow next)
      (hnow : next.now = c + timeOf w.cleanup)
      (htrace : next.trace = s.trace ++ ([(.started, s.now), (.cancelled, c)] ++
        if w.cleanup.isSome then [(.cleaned, c + timeOf w.cleanup)] else [])) :
      Sent t s sig
        (.ended (cancel next (.cancelled "Continuation cancelled while awaiting response")))
  | answered {w : Work (Option Response)} {answer : Option Response} {next : State}
      (hcall : t.sender s.count = .accepted false w) (hends : w.duration ≠ .endless)
      (htime : Race.signalTime? w sig s.now = none) (hnext : s.SentNow next)
      (hsignal : next.signal = some (Race.afterWork w sig)) :
      Sent t s sig (.pending { next with responses := next.responses ++ [answer] })
  | failed {w : Work (Option Response)} {report : Report}
      (hcall : t.sender s.count = .accepted false w)
      (htime : Race.signalTime? w sig s.now = none) (hnext : s.SentNow report.state) :
      Sent t s sig (.ended report)

theorem State.SentNow.count_eq (hnext : s.SentNow next) : next.count = s.count := by
  rw [count, count, hnext.responses]

theorem State.SentNow.of_fail (hnext : s.SentNow next) (f : Failure) :
    s.SentNow (fail next f).state := by
  unfold fail
  split
  · split <;> exact ⟨hnext.responses, hnext.requests⟩
  · exact hnext

theorem sentNow_sent (t : Turn) (s : State) (messages : List Message) :
    s.SentNow (t.sent s messages) := ⟨rfl, messages, rfl⟩

theorem sent_request {raises : Bool} {w : Work (Option Response)}
    (hcall : t.sender s.count = .accepted raises w) (hsig : s.signal = some sig)
    (hraised : sig.isRaised s.now = false) : Sent t s sig (t.request s) := by
  unfold request
  rw [hcall]
  dsimp only
  have hsent := sentNow_sent t s (requestFor t.policy t.messages s.latest)
  have hsignal : (t.sent s (requestFor t.policy t.messages s.latest)).signal = some sig := hsig
  have hnow : (t.sent s (requestFor t.policy t.messages s.latest)).now = s.now := rfl
  rw [hsignal, hnow]
  cases raises with
  | true =>
    rw [if_pos rfl, Option.map_some, Race.await_of_isRaised rfl]
    exact .duringCall hcall ⟨hsent.responses, hsent.requests⟩
  | false =>
    rw [if_neg Bool.false_ne_true]
    cases htime : Race.signalTime? w sig s.now with
    | some c =>
      rw [Race.await_of_signalTime? hraised htime]
      exact .whilePending hcall htime ⟨hsent.responses, hsent.requests⟩ rfl rfl
    | none =>
      rw [Race.await_of_signalTime?_eq_none hraised htime]
      cases hanswered : Race.answered? w (Race.afterWork w sig) s.now with
      | none => exact .failed hcall htime hsent
      | some a =>
        obtain ⟨e, hfinish, rfl⟩ := Race.answered?_eq_some_iff.1 hanswered
        have hends : w.duration ≠ .endless := Work.ne_endless_of_finishAt? hfinish
        rw [receive]
        dsimp only
        cases w.ending with
        | value answer => exact .answered hcall hends htime ⟨hsent.responses, hsent.requests⟩ rfl
        | failed f =>
          refine .failed hcall htime ?_
          apply State.SentNow.of_fail
          exact ⟨hsent.responses, hsent.requests⟩
        | abandoned => exact .failed hcall htime ⟨hsent.responses, hsent.requests⟩

end Request

section Round

/-- What comes of a round of a turn with a signal. The turn may be at its cap; the signal may be
    raised when the round starts; the turn may stall; the signal may become raised during the delay; the
    delay may be endless; and otherwise a request is sent, while the signal is not raised. -/
inductive Signalled [Json.Limits] (t : Turn) (s : State) (sig : Signal) : Progress → Prop where
  | capped (hcap : t.cap ≤ s.count) : Signalled t s sig (.ended (t.finish s .continuing))
  | atStart (hcap : s.count < t.cap) (hraised : sig.isRaised s.now = true) :
      Signalled t s sig (.ended (cancel s (.cancelled Fault.cancelledMessage)))
  | stalled {next : State} (hcap : s.count < t.cap) (hraised : sig.isRaised s.now = false)
      (hstalled : t.isStalled s = true) (hnext : s.SameExchange next) :
      Signalled t s sig (.ended (t.finish next .stalled))
  | duringDelay {due : Instant} {next : State} (hcap : s.count < t.cap)
      (hraised : sig.isRaised s.now = false) (hstalled : t.isStalled s = false)
      (hdue : sig.raisedBetween? s.now (t.pauseEnd s) = some due)
      (hnext : s.SameExchange next) (hnow : next.now = due) :
      Signalled t s sig (.ended (cancel next (.cancelled "Continuation cancelled during delay")))
  | endless (hcap : s.count < t.cap) (hraised : sig.isRaised s.now = false)
      (hstalled : t.isStalled s = false)
      (hdelay : sig.raisedBetween? s.now (t.pauseEnd s) = none) :
      Signalled t s sig (.ended ⟨.waitsForEver, s⟩)
  | sent {next : State} {p : Progress} (hcap : s.count < t.cap)
      (hraised : sig.isRaised s.now = false) (hstalled : t.isStalled s = false)
      (hdelay : sig.raisedBetween? s.now (t.pauseEnd s) = none)
      (hnext : s.SameExchange next) (hunset : sig.isRaised next.now = false)
      (hp : Sent t next sig p) : Signalled t s sig p

theorem now_remark (t : Turn) (s : State) : (t.remark s).now = s.now := by
  unfold remark
  split <;> rfl

/-- There is no pause before the first request, nor without a delay. -/
theorem pauseEnd_of_not (hnot : ¬ (decide (0 < s.count) && t.policy.delay.isPositive) = true) :
    t.pauseEnd s = some s.now := by
  rw [pauseEnd]
  split
  · next hcount =>
    rw [decide_eq_true hcount, Bool.true_and, Bool.not_eq_true] at hnot
    exact Number.after?_eq_some_iff.2 (.inr ⟨hnot, rfl⟩)
  · rfl

/-- The pause before a request, with a signal that is not raised yet: the signal is due before its end,
    or makes no difference. -/
theorem pause_cases (hsig : s.signal = some sig) (hraised : sig.isRaised s.now = false) :
    (sig.raisedBetween? s.now (t.pauseEnd s) = none ∧ t.pause s = (t.pauseEnd s).map (⟨none, ·⟩)) ∨
    ∃ due, sig.raisedBetween? s.now (t.pauseEnd s) = some due ∧
      t.pause s = some ⟨some (.cancelled "Continuation cancelled during delay"), due⟩ := by
  rw [pause, hsig]
  split
  · exact wait_cases hraised (t.pauseEnd s)
  · next hnot =>
    rw [pauseEnd_of_not hnot]
    refine .inl ⟨?_, rfl⟩
    rw [Option.eq_none_iff_forall_ne_some]
    intro due hdue
    obtain ⟨_, hstart, hstop⟩ := Signal.raisedBetween?_eq_some_iff.1 hdue
    exact absurd (hstop s.now rfl) (not_lt.2 hstart)

variable [Json.Limits]

theorem signalled_round (haccepts : ∀ k, ∃ raises w, t.sender k = .accepted raises w)
    (hsig : s.signal = some sig) : Signalled t s sig (t.round s) := by
  unfold round
  split
  · next hcap => exact .capped hcap
  next hcap =>
  rw [Nat.not_le] at hcap
  have hcheck : Signal.check s.signal s.now Fault.cancelledMessage =
      if sig.isRaised s.now then some (.cancelled Fault.cancelledMessage) else none := by
    rw [hsig, Signal.check_some]
  cases hraised : sig.isRaised s.now with
  | true =>
    rw [hcheck, hraised]
    exact .atStart hcap hraised
  | false =>
    rw [hcheck, hraised, if_neg Bool.false_ne_true]
    dsimp only
    split
    · next hstalled => exact .stalled hcap hraised hstalled ⟨rfl, rfl, rfl⟩
    next hstalled =>
    rw [Bool.not_eq_true] at hstalled
    obtain ⟨hdelay, hpause⟩ | ⟨due, hdue, hpause⟩ := pause_cases (t := t) hsig hraised
    · rw [hpause]
      cases hend : t.pauseEnd s with
      | none => exact .endless hcap hraised hstalled hdelay
      | some at_ =>
        obtain ⟨raises, w, hcall⟩ := haccepts s.count
        have hpaused : s.SameExchange { s with now := at_ } := ⟨rfl, rfl, rfl⟩
        have hnext := hpaused.trans (sameExchange_remark t _)
        have hunset : sig.isRaised (t.remark { s with now := at_ }).now = false := by
          rw [now_remark]
          exact Signal.isRaised_of_raisedBetween?_eq_none hraised (hend ▸ hdelay)
        rw [← hnext.count_eq] at hcall
        exact .sent hcap hraised hstalled hdelay hnext hunset
          (sent_request hcall (hnext.signal.trans hsig) hunset)
    · rw [hpause]
      exact .duringDelay hcap hraised hstalled hdue ⟨rfl, rfl, rfl⟩ rfl

/-- What comes of a judgement, with a signal: a complete response ends the turn, and after a
    truncated one there is another round, at the same instant. -/
inductive Judged (t : Turn) (s : State) (sig : Signal) (v : Verdict) : Progress → Prop where
  | complete {report : Report} (hcomplete : v.diagnosis.isTruncated = false)
      (hrequests : report.state.requests = s.requests) : Judged t s sig v (.ended report)
  | round {next : State} {p : Progress} (htruncated : v.diagnosis.isTruncated = true)
      (hnext : s.SameExchange next) (hnow : next.now = s.now) (hp : Signalled t next sig p) :
      Judged t s sig v p

theorem requests_finish (t : Turn) (s : State) (phase : Phase) :
    (t.finish s phase).state.requests = s.requests := by
  unfold finish
  dsimp only
  split <;> split <;> rfl

theorem judged_resume (haccepts : ∀ k, ∃ raises w, t.sender k = .accepted raises w)
    (hsig : s.signal = some sig) (v : Verdict) : Judged t s sig v (t.resume s v) := by
  have hround (next : State) (hnext : s.SameExchange next) :
      Signalled t next sig (t.round next) :=
    signalled_round haccepts (hnext.signal.trans hsig)
  unfold resume
  dsimp only
  split
  · next hcomplete => exact .complete hcomplete rfl
  · next htruncated =>
    refine .round htruncated ?_ ?_ (hround _ ?_)
    · exact ⟨rfl, rfl, rfl⟩
    · rfl
    · exact ⟨rfl, rfl, rfl⟩
  · next hcomplete => exact .complete hcomplete (requests_finish t _ _)
  · next htruncated =>
    refine .round htruncated ?_ ?_ (hround _ ?_)
    · exact ⟨rfl, rfl, rfl⟩
    · rfl
    · exact ⟨rfl, rfl, rfl⟩

end Round

end Turn

end Rejoin
