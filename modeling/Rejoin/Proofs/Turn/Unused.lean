import Rejoin.Proofs.Turn.Forward

/-!
A signal that is not set while a turn lasts changes nothing. Step by step, a turn with a signal does
what the turn without it does, or else the signal is set in the course of the step, whichever of the
two one looks at: what ends a wait is due before the wait would have been over.
-/

namespace Rejoin.Turn

variable {t : Turn} {d : Detector} {s : State} {p q : Progress} {event : Signal}
  {w : Work (Option Response)}

/-- The turn without its signal. -/
def withoutSignal (t : Turn) : Turn := { t with signal := none }

def State.withoutSignal (s : State) : State := { s with signal := none }

def Report.withoutSignal (r : Report) : Report := { r with state := r.state.withoutSignal }

def Progress.withoutSignal : Progress → Progress
  | .pending s => .pending s.withoutSignal
  | .ended report => .ended report.withoutSignal

section Erasure

theorem report_withoutSignal (s : State) (records : List Log.Record) :
    s.withoutSignal.report records = (s.report records).withoutSignal := rfl

theorem sent_withoutSignal (t : Turn) (s : State) (messages : List Message) :
    t.sent s.withoutSignal messages = (t.sent s messages).withoutSignal := rfl

theorem finish_withoutSignal [Json.Limits] (t : Turn) (s : State) (phase : Phase) :
    t.finish s.withoutSignal phase = (t.finish s phase).withoutSignal := by
  have hmax : t.hasReachedMax s.withoutSignal = t.hasReachedMax s := rfl
  unfold finish
  dsimp only
  rw [hmax]
  cases t.hasReachedMax s <;> cases t.policy.failsAtCap <;> rfl

theorem fail_withoutSignal (s : State) (f : Failure) :
    fail s.withoutSignal f = (fail s f).withoutSignal := by
  unfold fail
  split
  · split <;> rfl
  · rfl

theorem remark_withoutSignal (t : Turn) (s : State) :
    t.remark s.withoutSignal = (t.remark s).withoutSignal := by
  have hoverdue : (!s.withoutSignal.warned && t.isOverdue s.withoutSignal) =
      (!s.warned && t.isOverdue s) := rfl
  unfold remark
  rw [hoverdue]
  split <;> rfl

theorem receive_withoutSignal (s : State) (a : Option (Awaited (Option Response))) :
    receive s.withoutSignal (a.map ({ · with signal := none })) = (receive s a).withoutSignal := by
  cases a with
  | none => rfl
  | some a =>
    obtain ⟨ending, at_, trace, signal, records, drainedAt⟩ := a
    cases ending with
    | value answer => rfl
    | failed f =>
      apply congrArg Progress.ended
      exact fail_withoutSignal
        ({ s with now := at_, signal, trace := s.trace ++ trace }.report records) f
    | abandoned => rfl

/-- Work that nobody interrupts ends alike with a signal and without. -/
theorem answered?_withoutSignal {α : Type} (w : Work α) (event : Option Signal) (start : Instant) :
    Race.answered? w none start =
      (Race.answered? w event start).map ({ · with signal := none }) := by
  rw [Race.answered?, Race.answered?, Option.map_map]
  rfl

end Erasure

section Set

/-- Whether a turn goes no further, but does not end either. -/
def Progress.WaitsForEver : Progress → Prop
  | .pending _ => False
  | .ended report => report.outcome = .waitsForEver

/-- Whether the signal is set by the end of the instant that a turn has come to, or by a call that was
    made until then. A turn that waits for ever is there whenever the signal is due. -/
def SetBy (t : Turn) (event : Signal) (p : Progress) : Prop :=
  event.wasRaised p.now = true ∨ (p.WaitsForEver ∧ event.due.isSome = true) ∨
    ∃ k < p.requests.length, (t.sender k).RaisesSignal

theorem setBy_of_due {due : Instant} (hdue : event.due = some due)
    (hnow : due ≤ p.now ∨ p.WaitsForEver) : t.SetBy event p := by
  obtain hnow | hendless := hnow
  · exact .inl (Signal.wasRaised_iff.2 (.inr ⟨due, hdue, hnow⟩))
  · exact .inr (.inl ⟨hendless, by rw [hdue]; rfl⟩)

/-- What is set stays set while a turn goes on. -/
theorem SetBy.of_precedes (h : t.SetBy event (.pending s)) (hnext : (Progress.pending s).Precedes q) :
    t.SetBy event q := by
  obtain hraised | ⟨hendless, _⟩ | ⟨k, hk, hset⟩ := h
  · obtain hraised | ⟨due, hdue, hnow⟩ := Signal.wasRaised_iff.1 hraised
    · exact .inl (Signal.wasRaised_iff.2 (.inl hraised))
    · exact setBy_of_due hdue (.inl (le_trans hnow hnext.now))
  · exact hendless.elim
  · exact .inr (.inr ⟨k, hk.trans_le hnext.requests.length_le, hset⟩)

theorem setBy_of_isRaised (hraised : event.isRaised s.now = true)
    (hp : (Progress.pending s).Precedes p) : t.SetBy event p := by
  refine SetBy.of_precedes (.inl (Signal.wasRaised_iff.2 ?_)) hp
  by_contra hnot
  rw [not_or] at hnot
  have hunset : event.isRaised s.now = false := by
    rw [Signal.isRaised_eq_false_iff]
    refine ⟨Bool.eq_false_iff.2 hnot.1, fun due hdue => le_of_not_ge fun hnow => ?_⟩
    exact hnot.2 ⟨due, hdue, hnow⟩
  rw [hraised] at hunset
  cases hunset

end Set

/-- What is kept on the way of a turn whose signal is not set: the turn holds the signal as it was
    given, and it has an answer to each of its requests. -/
def Progress.Unset (event : Signal) : Progress → Prop
  | .pending s => s.signal = some event ∧ s.responses.length = s.requests.length + 1
  | .ended _ => True

/-- A point on the way of a turn with a signal, and one on the way of the same turn without: nothing
    but the signal differs, or the signal is set by both. -/
inductive Alike (t : Turn) (event : Signal) (p q : Progress) : Prop where
  | unset (heq : q = p.withoutSignal) (hunset : p.Unset event)
  | set (hp : t.SetBy event p) (hq : t.SetBy event q)

theorem alike_of_isRaised (hraised : event.isRaised s.now = true)
    (hp : (Progress.pending s).Precedes p) (hq : (Progress.pending s.withoutSignal).Precedes q) :
    t.Alike event p q :=
  .set (setBy_of_isRaised hraised hp) (setBy_of_isRaised (s := s.withoutSignal) hraised hq)

section Steps

theorem request_of_refused {f : Failure} (hcall : t.sender s.count = .refused f) :
    t.request s = .ended (fail (t.sent s (requestFor t.policy t.messages s.latest)) f) := by
  unfold request
  rw [hcall]

theorem request_of_accepted (hcall : t.sender s.count = .accepted false w) :
    t.request s = receive (t.sent s (requestFor t.policy t.messages s.latest))
      (Race.await w s.now s.signal false none) := by
  unfold request
  rw [hcall]
  rfl

/-- A request whose call raises the signal sets it in either turn. -/
theorem alike_of_raisesSignal (hcount : s.responses.length = s.requests.length + 1)
    (hraises : (t.sender s.count).RaisesSignal) :
    t.Alike event (t.request s) (t.request s.withoutSignal) := by
  have hlast (s : State) (hcount : s.responses.length = s.requests.length + 1) :
      s.count < (t.request s).requests.length := by
    rw [requests_request, List.length_append, State.count, hcount]
    exact Nat.lt_succ_self _
  exact .set (.inr (.inr ⟨_, hlast s hcount, hraises⟩))
    (.inr (.inr ⟨_, hlast s.withoutSignal hcount, hraises⟩))

theorem unset_receive {a : Option (Awaited (Option Response))}
    (hsignal : ∀ x, a = some x → x.signal = some event)
    (hcount : s.responses.length = s.requests.length) : (receive s a).Unset event := by
  cases a with
  | none => trivial
  | some a =>
    unfold receive
    dsimp only
    split
    · refine ⟨hsignal a rfl, ?_⟩
      change (s.responses ++ [_]).length = s.requests.length + 1
      rw [List.length_append, hcount]
      rfl
    · trivial
    · trivial

/-- A turn comes to the end of its wait for an answer, or waits for ever. -/
theorem at_le_now_receive {a : Option (Awaited (Option Response))} {due : Instant}
    (ha : ∀ x, a = some x → due ≤ x.at_) : due ≤ (receive s a).now ∨ (receive s a).WaitsForEver := by
  cases a with
  | none => exact .inr rfl
  | some a =>
    rw [now_receive]
    exact .inl (ha a rfl)

theorem alike_request (hs : (Progress.pending s).Unset event) :
    t.Alike event (t.request s) (t.request s.withoutSignal) := by
  obtain ⟨hsig, hcount⟩ := hs
  cases hraised : event.isRaised s.now with
  | true => exact alike_of_isRaised hraised (precedes_request t s) (precedes_request t _)
  | false =>
    by_cases hraises : (t.sender s.count).RaisesSignal
    · exact alike_of_raisesSignal hcount hraises
    cases hcall : t.sender s.count with
    | refused f =>
      have hplain := request_of_refused (s := s.withoutSignal) hcall
      rw [request_of_refused hcall, hplain, sent_withoutSignal]
      exact .unset (congrArg Progress.ended (fail_withoutSignal _ f)) trivial
    | accepted raises w =>
      rw [hcall, Call.RaisesSignal, not_or, Bool.not_eq_true] at hraises
      obtain ⟨rfl, hwork⟩ := hraises
      have hplain := request_of_accepted (s := s.withoutSignal) hcall
      rw [request_of_accepted hcall, hplain, hsig, sent_withoutSignal]
      -- raced against the signal or simply waited for, the work ends alike or is interrupted when due
      obtain heq | ⟨due, hdue, hnow, hlater⟩ := Race.await_eq_or_due hraised hwork
      · have halike : Race.await w s.now none false none = _ :=
          answered?_withoutSignal w (some event) s.now
        rw [heq]
        refine .unset ?_ (unset_receive (fun a ha => ?_) ?_)
        · change receive _ (Race.await w s.now none false none) = _
          rw [halike]
          exact receive_withoutSignal (t.sent s _) _
        · obtain ⟨_, _, rfl⟩ := Race.answered?_eq_some_iff.1 ha
          rfl
        · change s.responses.length = (s.requests ++ [_]).length
          rw [hcount, List.length_append]
          rfl
      · exact .set (setBy_of_due hdue (at_le_now_receive hnow))
          (setBy_of_due hdue (at_le_now_receive fun a ha => (hlater a ha).le))

/-- The pause before a request ends as it does without the signal, unless the signal is due before. -/
theorem pause_eq_or_due (t : Turn) (hsig : s.signal = some event)
    (hraised : event.isRaised s.now = false) :
    t.pause s = t.pause s.withoutSignal ∨ ∃ due, event.due = some due ∧
      t.pause s = some ⟨some (.cancelled "Continuation cancelled during delay"), due⟩ ∧
      ∀ w, t.pause s.withoutSignal = some w → due ≤ w.until_ := by
  have hplain : t.pause s.withoutSignal = (t.pauseEnd s).map (⟨none, ·⟩) := by
    rw [pause]
    split
    · rfl
    · next hnot =>
      have hend : t.pauseEnd s = some s.now := pauseEnd_of_not hnot
      rw [hend]
      rfl
  obtain ⟨_, hpause⟩ | ⟨due, hdue, hpause⟩ := pause_cases (t := t) hsig hraised
  · exact .inl (hpause.trans hplain.symm)
  · obtain ⟨hsignal, _, hstop⟩ := Signal.raisedBetween?_eq_some_iff.1 hdue
    refine .inr ⟨due, hsignal, hpause, fun w hw => ?_⟩
    rw [hplain] at hw
    obtain ⟨e, he, rfl⟩ := Option.map_eq_some_iff.1 hw
    exact (hstop e he).le

/-- A round below the cap of a turn that does not stall waits, and goes on with what comes of it. -/
theorem round_of_going [Json.Limits] (hcap : s.count < t.cap)
    (hcheck : Signal.check s.signal s.now Fault.cancelledMessage = none)
    (hstalled : t.isStalled s = false) : t.round s = t.goOn s (t.pause s) := by
  unfold round
  rw [if_neg (Nat.not_le.2 hcap), hcheck, hstalled]
  rfl

/-- A turn comes to the end of its wait, or waits for ever. -/
theorem until_le_now_goOn {w : Option Waited} {due : Instant}
    (hw : ∀ x, w = some x → due ≤ x.until_) :
    due ≤ (t.goOn s w).now ∨ (t.goOn s w).WaitsForEver := by
  cases w with
  | none => exact .inr rfl
  | some w =>
    obtain ⟨fault, at_⟩ := w
    have hdue : due ≤ at_ := hw _ rfl
    cases fault with
    | some fault => exact .inl hdue
    | none =>
      have hsent := (precedes_request t (t.remark { s with now := at_ })).now
      change (t.remark _).now ≤ _ at hsent
      rw [now_remark] at hsent
      exact .inl (hdue.trans hsent)

theorem unset_remark (hs : (Progress.pending s).Unset event) (t : Turn) (now : Instant) :
    (Progress.pending (t.remark { s with now })).Unset event := by
  have hsame := sameExchange_remark t { s with now }
  refine ⟨hsame.signal.trans hs.1, ?_⟩
  rw [hsame.responses, hsame.requests]
  exact hs.2

/-- What comes of a pause that the signal does not end does not depend on the signal. -/
theorem alike_goOn (hs : (Progress.pending s).Unset event) {w : Option Waited}
    (hw : ∀ fault at_, w ≠ some ⟨some fault, at_⟩) :
    t.Alike event (t.goOn s w) (t.goOn s.withoutSignal w) := by
  cases w with
  | none => exact .unset rfl trivial
  | some w =>
    obtain ⟨fault, at_⟩ := w
    cases fault with
    | some fault => exact absurd rfl (hw fault at_)
    | none =>
      have hremark := remark_withoutSignal t { s with now := at_ }
      change t.Alike event (t.request _)
        (t.request (t.remark (State.withoutSignal { s with now := at_ })))
      rw [hremark]
      exact alike_request (unset_remark hs t at_)

variable [Json.Limits]

theorem alike_round (hs : (Progress.pending s).Unset event) :
    t.Alike event (t.round s) (t.round s.withoutSignal) := by
  cases hraised : event.isRaised s.now with
  | true => exact alike_of_isRaised hraised (precedes_round t s) (precedes_round t _)
  | false =>
    by_cases hcap : t.cap ≤ s.count
    · have hplain : t.cap ≤ s.withoutSignal.count := hcap
      rw [round, round, if_pos hcap, if_pos hplain]
      exact .unset (congrArg Progress.ended (finish_withoutSignal t s _)) trivial
    rw [Nat.not_le] at hcap
    have hcheck : Signal.check s.signal s.now Fault.cancelledMessage = none := by
      rw [hs.1, Signal.check_some, hraised, if_neg Bool.false_ne_true]
    cases hstalled : t.isStalled s with
    | true =>
      have hstalledPlain : t.isStalled s.withoutSignal = true := hstalled
      have hcapPlain : ¬ t.cap ≤ s.withoutSignal.count := Nat.not_le.2 hcap
      unfold round
      rw [if_neg (Nat.not_le.2 hcap), if_neg hcapPlain, hcheck, hstalled, hstalledPlain]
      exact .unset (congrArg Progress.ended (finish_withoutSignal t (s.tell _ _) _)) trivial
    | false =>
      have hplain := round_of_going (s := s.withoutSignal) hcap rfl hstalled
      rw [round_of_going hcap hcheck hstalled, hplain]
      obtain hpause | ⟨due, hdue, hpause, hlater⟩ := pause_eq_or_due t hs.1 hraised
      · rw [hpause]
        exact alike_goOn hs fun fault at_ hfault => ne_none_of_pause hfault rfl
      · refine .set (setBy_of_due hdue ?_) (setBy_of_due hdue (until_le_now_goOn hlater))
        rw [hpause]
        exact .inl (le_refl due)

theorem alike_resume (hs : (Progress.pending s).Unset event) (v : Verdict) :
    t.Alike event (t.resume s v) (t.resume s.withoutSignal v) := by
  have hcount : (s.withoutSignal.report v.records).count = (s.report v.records).count := rfl
  unfold resume
  dsimp only
  rw [hcount, report_withoutSignal]
  split
  · exact .unset rfl trivial
  · exact alike_round ⟨hs.1, hs.2⟩
  · exact .unset (congrArg Progress.ended (finish_withoutSignal t _ _)) trivial
  · exact alike_round ⟨hs.1, hs.2⟩

end Steps

section Runs

variable [Json.Limits]

theorem SetBy.drive (hp : t.SetBy event p) (judged left : Nat) :
    t.SetBy event (.ended (t.drive d judged left p)) := by
  cases p with
  | pending s => exact hp.of_precedes (precedes_drive t d judged left _)
  | ended report => cases left <;> exact hp

/-- A turn with a signal that is carried on ends as it does without, or the signal is set by the end of
    either. -/
theorem alike_drive (h : t.Alike event p q) (judged left : Nat) :
    t.Alike event (.ended (t.drive d judged left p)) (.ended (t.drive d judged left q)) := by
  induction left generalizing judged p q with
  | zero =>
    cases h with
    | set hp hq => exact .set (hp.drive judged 0) (hq.drive judged 0)
    | unset heq hunset =>
      subst heq
      cases p with
      | ended report => exact .unset rfl trivial
      | pending s =>
        exact .unset (congrArg Progress.ended (finish_withoutSignal t s .continuing)) trivial
  | succ left ih =>
    cases h with
    | set hp hq => exact .set (hp.drive judged (left + 1)) (hq.drive judged (left + 1))
    | unset heq hunset =>
      subst heq
      cases p with
      | ended report => exact .unset rfl trivial
      | pending s => exact ih (alike_resume hunset (d.judge judged s.latest)) (judged + 1)

/-- On its way a turn looks at the signal in its state only. -/
theorem drive_withoutSignal (t : Turn) (d : Detector) (judged left : Nat)
    (p : Progress) :
    t.withoutSignal.drive d judged left p = t.drive d judged left p := by
  induction left generalizing judged p with
  | zero => cases p <;> rfl
  | succ left ih =>
    cases p with
    | ended report => rfl
    | pending s => exact ih (judged + 1) (t.resume s (d.judge judged s.latest))

/-- A signal that is not set while the turn lasts, with the signal or without it, changes nothing: the
turn sends the same requests at the same instants, receives the same responses, and ends at the same
instant in the same way, with the same reports made on the way. -/
theorem runFrom_withoutSignal {t : Turn} {signal : Signal}
    (hsignal : t.signal = some signal) (d : Detector) (judged : Nat) (began : Instant)
    (hunset : ¬ t.SetBy (signal.shiftedBy began) (.ended (t.runFrom d judged began)) ∨
      ¬ t.SetBy (signal.shiftedBy began) (.ended (t.withoutSignal.runFrom d judged began))) :
    t.withoutSignal.runFrom d judged began = (t.runFrom d judged began).withoutSignal := by
  have hstart : t.Alike (signal.shiftedBy began) (.pending (.start t began))
      (.pending (.start t.withoutSignal began)) := by
    refine .unset rfl ⟨?_, rfl⟩
    change t.signal.map (·.shiftedBy began) = _
    rw [hsignal]
    rfl
  have hplain : t.withoutSignal.runFrom d judged began =
      t.drive d judged (t.cap + 1) (.pending (.start t.withoutSignal began)) :=
    drive_withoutSignal t d judged (t.cap + 1) _
  rw [hplain] at hunset ⊢
  cases alike_drive (d := d) hstart judged (t.cap + 1) with
  | unset heq => exact Progress.ended.inj heq
  | set hp hq => exact absurd hunset (not_or_intro (not_not_intro hp) (not_not_intro hq))

end Runs

/-- Two requests that take two seconds each, with a delay of three in between, and a signal that is due
long after. -/
theorem runFrom_withoutSignal_due_later :
    let first : Response := .chat (.ofText ['a', 'b'] none)
    let work : Work (Option Response) := ⟨none, .seconds 2, .value (some first), some 1, .value none⟩
    let t : Turn :=
      ⟨{ Policy.default with delay := .int 3, minProgress := .int 0 }, [], first,
        fun _ => .accepted false work, some ⟨false, some 100⟩⟩
    let d : Detector := .scripted [.truncated .tokenLimit "", .truncated .tokenLimit "", .complete]
    ¬ t.SetBy (Signal.shiftedBy ⟨false, some 100⟩ 0) (.ended (t.runFrom d 0 0)) ∧
      t.withoutSignal.runFrom d 0 0 = (t.runFrom d 0 0).withoutSignal ∧
      (t.runFrom d 0 0).state.requests.map (·.at_) = [0, 5] ∧ (t.runFrom d 0 0).state.now = 7 := by
  intro first work t d
  have hends : (t.runFrom d 0 0).state.requests.map (·.at_) = [0, 5] ∧
      (t.runFrom d 0 0).state.now = 7 := by decide +kernel
  have hunset : ¬ t.SetBy (Signal.shiftedBy ⟨false, some 100⟩ 0) (.ended (t.runFrom d 0 0)) := by
    rintro (hraised | ⟨hendless, _⟩ | ⟨k, _, hcall | hwork | ⟨hwork, _⟩⟩)
    · rw [Progress.now, hends.2, Signal.shiftedBy_zero] at hraised
      revert hraised
      decide +kernel
    · have hresult : (match (t.runFrom d 0 0).outcome with
          | .result _ => true
          | _ => false) = true := by decide +kernel
      rw [show (t.runFrom d 0 0).outcome = .waitsForEver from hendless] at hresult
      cases hresult
    · cases hcall
    · cases hwork
    · cases hwork
  exact ⟨hunset, runFrom_withoutSignal rfl d 0 0 (.inl hunset), hends⟩

end Rejoin.Turn
