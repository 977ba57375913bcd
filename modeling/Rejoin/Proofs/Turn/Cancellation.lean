import Rejoin.Proofs.Turn.Forward

/-!
A turn honours its signal. As long as a turn goes on, the signal that it holds tells what happened to
the signal that it was given, each response but the first was asked for once, and no request was sent
while the signal was set. A signal that becomes set while a turn could still send a request, or has
one under way, therefore ends the turn, which then tells how many responses it had received.
-/

namespace Rejoin.Turn

variable {t : Turn} {d : Detector} {s next : State} {p : Progress} {event sig : Signal}
  {judged left k : Nat} {began now c : Instant} {q : Request} {w : Work (Option Response)}

section Tracks

/-- A signal that tells what happened to the signal of a turn, after so many of its calls were
    answered. -/
structure Follows (t : Turn) (event : Signal) (k : Nat) (sig : Signal) : Prop where
  due : sig.due = event.due
  raised : sig.raised = true ↔ event.raised = true ∨ ∃ i < k, (t.sender i).RaisesSignal

theorem Follows.isRaised_iff (h : t.Follows event k sig) (now : Instant) :
    sig.isRaised now = true ↔ t.IsSet event k now := by
  rw [IsSet, Signal.isRaised, Signal.isRaised, Bool.or_eq_true, Bool.or_eq_true, h.raised, h.due]
  exact or_right_comm

theorem Follows.not_isSet (h : t.Follows event k sig) (hunset : sig.isRaised now = false) :
    ¬ t.IsSet event k now := by
  rw [← h.isRaised_iff, hunset]
  exact Bool.false_ne_true

theorem follows_zero (t : Turn) (event : Signal) : t.Follows event 0 event := by
  refine ⟨rfl, .inl, ?_⟩
  rintro (hraised | ⟨i, hi, _⟩)
  · exact hraised
  · omega

/-- Work that ends by itself leaves the signal as the work and the calls before it made it. -/
theorem Follows.afterWork (h : t.Follows event k sig) (hcall : t.sender k = .accepted false w)
    (hends : w.duration ≠ .endless) : t.Follows event (k + 1) (Race.afterWork w sig) := by
  have hraises : (t.sender k).RaisesSignal ↔ w.raises.isSome = true := by
    rw [hcall, Call.RaisesSignal, Work.raisesSignal_iff hends]
    simp
  refine ⟨h.due, ?_⟩
  rw [Race.afterWork, Bool.or_eq_true, h.raised, ← hraises, or_assoc]
  refine or_congr_right ⟨?_, ?_⟩
  · rintro (⟨i, hi, hset⟩ | hset)
    · exact ⟨i, by omega, hset⟩
    · exact ⟨k, by omega, hset⟩
  · rintro ⟨i, hi, hset⟩
    obtain hlt | rfl : i < k ∨ i = k := by omega
    · exact .inl ⟨i, hlt, hset⟩
    · exact .inr hset

/-- Requests that were sent before the signal of the turn was set. -/
def SentUnset (t : Turn) (event : Signal) (requests : List Request) : Prop :=
  ∀ j q, requests[j]? = some q → ¬ t.IsSet event j q.at_

theorem SentUnset.append {requests : List Request} (h : t.SentUnset event requests)
    (hq : ¬ t.IsSet event requests.length q.at_) : t.SentUnset event (requests ++ [q]) := by
  intro j r hr
  rw [List.getElem?_append] at hr
  split at hr
  · exact h j r hr
  · rw [List.getElem?_singleton] at hr
    split at hr
    · next hge hzero =>
      cases hr
      have hj : j = requests.length := by omega
      rw [hj]
      exact hq
    · cases hr

/-- What is kept on the way of a turn with a signal. -/
structure State.Tracks (t : Turn) (event : Signal) (s : State) : Prop where
  signal : ∃ sig, s.signal = some sig ∧ t.Follows event s.count sig
  received : s.responses.length = s.requests.length + 1
  unset : t.SentUnset event s.requests

theorem State.Tracks.count_eq (h : s.Tracks t event) : s.count = s.requests.length := by
  rw [count, h.received]
  rfl

theorem State.Tracks.follows (h : s.Tracks t event) (hsig : s.signal = some sig) :
    t.Follows event s.count sig := by
  obtain ⟨held, hheld, hfollows⟩ := h.signal
  rw [hsig] at hheld
  cases hheld
  exact hfollows

theorem State.Tracks.of_sameExchange (h : s.Tracks t event) (hnext : s.SameExchange next) :
    next.Tracks t event := by
  obtain ⟨sig, hsig, hfollows⟩ := h.signal
  refine ⟨⟨sig, hnext.signal.trans hsig, ?_⟩, ?_, ?_⟩
  · rw [hnext.count_eq]
    exact hfollows
  · rw [hnext.responses, hnext.requests]
    exact h.received
  · rw [hnext.requests]
    exact h.unset

theorem State.tracks_start (hevent : t.signal.map (·.shiftedBy began) = some event) :
    (start t began).Tracks t event := by
  refine ⟨⟨event, hevent, follows_zero t event⟩, rfl, ?_⟩
  intro j q hq
  cases hq

end Tracks

section Steps

/-- What is kept on the way of a turn with a signal, and of the requests of one that has ended. -/
def Progress.Tracks (t : Turn) (event : Signal) : Progress → Prop
  | .pending s => s.Tracks t event
  | .ended report => t.SentUnset event report.state.requests

/-- Exactly one request is sent, at once. -/
theorem Sent.requests_eq (hp : Sent t s sig p) :
    ∃ messages, p.requests = s.requests ++ [⟨s.now, messages⟩] := by
  cases hp with
  | duringCall _ hnext => exact hnext.requests
  | whilePending _ _ hnext => exact hnext.requests
  | answered _ _ _ hnext => exact hnext.requests
  | failed _ _ hnext => exact hnext.requests

theorem Sent.tracks (hs : s.Tracks t event) (hsig : s.signal = some sig)
    (hunset : sig.isRaised s.now = false) (hp : Sent t s sig p) : p.Tracks t event := by
  have hfollows := hs.follows hsig
  obtain ⟨messages, hrequests⟩ := hp.requests_eq
  have hsent : t.SentUnset event p.requests := by
    rw [hrequests]
    apply hs.unset.append
    rw [← hs.count_eq]
    exact hfollows.not_isSet hunset
  cases hp with
  | duringCall | whilePending | failed => exact hsent
  | @answered w answer next hcall hends _ hnext hsignal =>
    refine ⟨⟨_, hsignal, ?_⟩, ?_, hsent⟩
    · -- one more call is answered now, and the work may have raised the signal
      have hcount : next.responses.length = s.count + 1 := by
        rw [hnext.responses, hs.received, hs.count_eq]
      rw [State.count, List.length_append, List.length_singleton, hcount]
      exact hfollows.afterWork hcall hends
    · have hlength : next.requests.length = s.requests.length + 1 := by
        obtain ⟨sent, hsent⟩ := hnext.requests
        rw [hsent, List.length_append, List.length_singleton]
      rw [List.length_append, List.length_singleton, hnext.responses, hs.received, hlength]

/-- After a judgement a turn ends without another request, or it has one to send, below its cap and
    while the signal is not raised. -/
theorem Judged.ended_or_sent [Json.Limits] {v : Verdict} (hp : Judged t s sig v p) :
    (∃ report, p = .ended report ∧ report.state.requests = s.requests) ∨
      ∃ next, s.count < t.cap ∧ s.SameExchange next ∧ sig.isRaised next.now = false ∧
        Sent t next sig p := by
  cases hp with
  | complete _ hrequests => exact .inl ⟨_, rfl, hrequests⟩
  | @round middle _ _ hmiddle _ hp =>
    cases hp with
    | capped => exact .inl ⟨_, rfl, (requests_finish t middle _).trans hmiddle.requests⟩
    | atStart | endless => exact .inl ⟨_, rfl, hmiddle.requests⟩
    | stalled _ _ _ hnext =>
      exact .inl ⟨_, rfl, (requests_finish t _ _).trans (hmiddle.trans hnext).requests⟩
    | duringDelay _ _ _ _ hnext => exact .inl ⟨_, rfl, (hmiddle.trans hnext).requests⟩
    | sent hcap _ _ _ hnext hunset hp =>
      rw [hmiddle.count_eq] at hcap
      exact .inr ⟨_, hcap, hmiddle.trans hnext, hunset, hp⟩

end Steps

section Runs

variable (haccepts : ∀ k, ∃ raises w, t.sender k = .accepted raises w)

include haccepts

variable [Json.Limits]

/-- After a judgement a turn that is tracked has ended without another request, or it sends one. -/
theorem State.Tracks.ended_or_sent (hs : s.Tracks t event) (v : Verdict) :
    (∃ report, t.resume s v = .ended report ∧ report.state.requests = s.requests) ∨
      ∃ next sig, s.count < t.cap ∧ next.requests = s.requests ∧ next.Tracks t event ∧
        next.signal = some sig ∧ sig.isRaised next.now = false ∧ Sent t next sig (t.resume s v) := by
  obtain ⟨sig, hsig, _⟩ := hs.signal
  obtain hended | ⟨next, hcap, hnext, hunset, hp⟩ := (judged_resume haccepts hsig v).ended_or_sent
  · exact .inl hended
  · exact .inr ⟨next, sig, hcap, hnext.requests, hs.of_sameExchange hnext,
      hnext.signal.trans hsig, hunset, hp⟩

theorem tracks_resume (hs : s.Tracks t event) (v : Verdict) : (t.resume s v).Tracks t event := by
  obtain ⟨report, hended, hrequests⟩ | ⟨next, sig, _, _, hnext, hsig, hunset, hp⟩ :=
    hs.ended_or_sent haccepts v
  · rw [hended, Progress.Tracks, hrequests]
    exact hs.unset
  · exact hp.tracks hnext hsig hunset

/-- A judgement after which a turn waits for another one brought exactly one response, below the
    cap. -/
theorem count_of_pending (hs : s.Tracks t event) {v : Verdict} (hnext : t.resume s v = .pending next) :
    s.count < t.cap ∧ next.count = s.count + 1 := by
  have htracks := tracks_resume haccepts hs v
  obtain ⟨report, hended, _⟩ | ⟨middle, sig, hcap, hrequests, _, _, _, hp⟩ :=
    hs.ended_or_sent haccepts v
  · rw [hended] at hnext
    cases hnext
  · rw [hnext] at hp htracks
    obtain ⟨messages, hsent⟩ := hp.requests_eq
    change next.requests = _ at hsent
    refine ⟨hcap, ?_⟩
    rw [State.Tracks.count_eq htracks, hsent, hrequests, List.length_append, hs.count_eq]
    rfl

/-- A turn carried on sends no request while its signal is set. -/
theorem sentUnset_drive (hp : p.Tracks t event) (judged left : Nat) :
    t.SentUnset event (t.drive d judged left p).state.requests := by
  refine drive_of_step (P := Progress.Tracks t event) ?_ ?_ hp judged left
  · exact fun s v hs => tracks_resume haccepts hs v
  · intro s hs
    change t.SentUnset event (t.finish s .continuing).state.requests
    rw [requests_finish]
    exact State.Tracks.unset hs

omit haccepts in
theorem drive_ended (report : Report) (judged left : Nat) :
    t.drive d judged left (.ended report) = report := by
  cases left <;> rfl

/-- A request among those of a turn's end was sent on the way there, in a state with as many responses
    received, and the turn went on with what came of it. -/
theorem exists_sent (hs : s.Tracks t event) (hk : s.requests.length ≤ k)
    (hq : (t.drive d judged left (.pending s)).state.requests[k]? = some q) :
    ∃ next sig p judged' left', next.count = k ∧ next.now = q.at_ ∧ next.Tracks t event ∧
      next.signal = some sig ∧ Sent t next sig p ∧
        t.drive d judged left (.pending s) = t.drive d judged' left' p := by
  induction left generalizing judged s with
  | zero =>
    rw [drive, requests_finish, List.getElem?_eq_none hk] at hq
    cases hq
  | succ left ih =>
    have htracks := tracks_resume haccepts hs (d.judge judged s.latest)
    rw [drive] at hq ⊢
    obtain ⟨report, hended, hrequests⟩ | ⟨next, sig, _, hrequests, hnext, hsig, _, hp⟩ :=
      hs.ended_or_sent haccepts (d.judge judged s.latest)
    · rw [hended, drive_ended, hrequests, List.getElem?_eq_none hk] at hq
      cases hq
    · obtain ⟨messages, hsent⟩ := hp.requests_eq
      rw [hrequests] at hsent
      obtain hlt | rfl : s.requests.length < k ∨ k = s.requests.length := by omega
      · have hlength : (t.resume s (d.judge judged s.latest)).requests.length ≤ k := by
          rw [hsent, List.length_append, List.length_singleton]
          exact hlt
        generalize t.resume s (d.judge judged s.latest) = p at *
        cases p with
        | pending later => exact ih htracks hlength hq
        | ended report =>
          rw [drive_ended] at hq
          change report.state.requests.length ≤ k at hlength
          rw [List.getElem?_eq_none hlength] at hq
          cases hq
      · refine ⟨next, sig, _, judged + 1, left, ?_, ?_, hnext, hsig, hp, rfl⟩
        · rw [hnext.count_eq, hrequests]
        · obtain ⟨rest, hrest⟩ := prefix_requests_drive t d (judged + 1) left _
          rw [← hrest, hsent, List.append_assoc, List.getElem?_append_right (Nat.le_refl _),
            Nat.sub_self] at hq
          cases hq
          rfl

end Runs

section Cancelled

/-- The end of a turn that was cancelled with so many responses received: the fault and its details
    tell so. -/
structure Report.CancelledAfter (report : Report) (k : Nat) : Prop where
  fault : ∃ f : Fault, report.outcome = .failed (.fault f) ∧ f.kind = .cancelled k ∧
    f.details = [("state", .text "cancelled"), ("continuation_count", .int k)]
  count : report.state.count = k

theorem cancelledAfter_cancel (hcount : s.count = k) (message : String) :
    (cancel s (.cancelled message)).CancelledAfter k := by
  subst hcount
  exact ⟨⟨_, rfl, rfl, rfl⟩, rfl⟩

/-- Whether the signal becomes set during the delay that comes before a request. There is none before
    the first one, and none once the turn stalls. -/
def SetsInDelay (t : Turn) (event : Signal) (s : State) : Prop :=
  0 < s.count ∧ t.policy.delay.isPositive = true ∧ t.isStalled s = false ∧
    ∃ due, event.due = some due ∧ s.now ≤ due ∧
      ∀ stop, t.policy.delay.after? s.now = some stop → due < stop

/-- Whether the signal becomes set at an instant at which work that was started is not finished yet:
    as the work starts, if the work itself sets it then, or else when it is due. -/
def SetsDuring (event : Signal) (w : Work (Option Response)) (start c : Instant) : Prop :=
  (∀ e, w.finishAt? start = some e → c < e) ∧
    if w.raises = some .atStart then c = start else event.due = some c ∧ start ≤ c

theorem isStalled_of_sameExchange (t : Turn) (hnext : s.SameExchange next) :
    t.isStalled next = t.isStalled s := by
  have hfragments : next.fragments = s.fragments := by
    rw [State.fragments, State.fragments, hnext.responses]
  rw [isStalled, isStalled, hfragments]

/-- A signal that becomes set during the delay becomes raised before the pause is over. -/
theorem SetsInDelay.raisedBetween?_ne_none (h : t.SetsInDelay event s) (hdue : sig.due = event.due)
    (hcount : next.count = s.count) (hnow : next.now = s.now) :
    sig.raisedBetween? next.now (t.pauseEnd next) ≠ none := by
  obtain ⟨hpos, _, _, due, hset, hstart, hstop⟩ := h
  have hsome : sig.raisedBetween? next.now (t.pauseEnd next) = some due := by
    rw [pauseEnd, hcount, if_pos hpos, hnow, Signal.raisedBetween?_eq_some_iff, hdue]
    exact ⟨hset, hstart, hstop⟩
  rw [hsome]
  exact Option.some_ne_none due

/-- A turn that could send another request is cancelled if its signal is set when the round starts, or
    becomes set during the delay. -/
theorem cancelledAfter_resume [Json.Limits]
    (haccepts : ∀ k, ∃ raises w, t.sender k = .accepted raises w) (hs : s.Tracks t event)
    {v : Verdict} (htruncated : v.diagnosis.isTruncated = true) (hcap : s.count < t.cap)
    (hset : t.IsSet event s.count s.now ∨ t.SetsInDelay event s) :
    ∃ report, t.resume s v = .ended report ∧ report.CancelledAfter s.count := by
  obtain ⟨sig, hsig, hfollows⟩ := hs.signal
  have hp := judged_resume haccepts hsig v
  generalize t.resume s v = p at hp ⊢
  cases hp with
  | complete hcomplete =>
    rw [htruncated] at hcomplete
    cases hcomplete
  | @round middle _ _ hmiddle hnow hp =>
    have hcount := hmiddle.count_eq
    have hstarts : sig.isRaised middle.now = false → t.SetsInDelay event s := by
      intro hunset
      rw [hnow] at hunset
      exact hset.resolve_left (hfollows.not_isSet hunset)
    cases hp with
    | capped hcapped =>
      rw [hcount] at hcapped
      exact absurd hcap (Nat.not_lt.2 hcapped)
    | atStart => exact ⟨_, rfl, cancelledAfter_cancel hcount _⟩
    | stalled _ hunset hstalled =>
      obtain ⟨_, _, hgoing, _⟩ := hstarts hunset
      rw [isStalled_of_sameExchange t hmiddle, hgoing] at hstalled
      cases hstalled
    | duringDelay _ _ _ _ hnext =>
      exact ⟨_, rfl, cancelledAfter_cancel (hnext.count_eq.trans hcount) _⟩
    | endless _ hunset _ hdelay | sent _ hunset _ hdelay =>
      exact absurd hdelay ((hstarts hunset).raisedBetween?_ne_none hfollows.due hcount hnow)

/-- A request whose call sets the signal cancels the turn. -/
theorem Sent.cancelledAfter_of_call (hcall : t.sender s.count = .accepted true w)
    (hp : Sent t s sig p) : ∃ report, p = .ended report ∧ report.CancelledAfter s.count := by
  cases hp with
  | duringCall _ hnext => exact ⟨_, rfl, cancelledAfter_cancel hnext.count_eq _⟩
  | whilePending hother | answered hother | failed hother =>
    rw [hcall] at hother
    cases hother

/-- The end of a turn that was cancelled at an instant at which it waited for the answer to a request:
    the work was cancelled then, and the turn ends when it has cleaned up. -/
structure Report.Abandons (report : Report) (w : Work (Option Response)) (start c : Instant) : Prop
    where
  now : report.state.now = c + timeOf w.cleanup
  trace : ∃ earlier, report.state.trace = earlier ++ ([(.started, start), (.cancelled, c)] ++
    if w.cleanup.isSome then [(.cleaned, c + timeOf w.cleanup)] else [])

/-- A request that the signal interrupts cancels the turn once its work has cleaned up. -/
theorem Sent.cancelledAfter_of_work (hcall : t.sender s.count = .accepted false w)
    (hfollows : t.Follows event s.count sig) (hset : SetsDuring event w s.now c)
    (hp : Sent t s sig p) :
    ∃ report, p = .ended report ∧ report.CancelledAfter s.count ∧ report.Abandons w s.now c := by
  have htime : Race.signalTime? w sig s.now = some c := by
    rw [Race.signalTime?_eq_some_iff, hfollows.due]
    exact hset
  cases hp with
  | duringCall hother =>
    rw [hcall] at hother
    cases hother
  | whilePending hother hinterrupt hnext hnow htrace =>
    rw [hcall] at hother
    cases hother
    rw [htime] at hinterrupt
    cases hinterrupt
    exact ⟨_, rfl, cancelledAfter_cancel hnext.count_eq _, hnow, s.trace, htrace⟩
  | answered hother _ hnone | failed hother hnone =>
    rw [hcall] at hother
    cases hother
    rw [htime] at hnone
    cases hnone

end Cancelled

section Rounds

variable [Json.Limits]

/-- The states in which a turn waits for a judgement on its way. -/
inductive Comes (t : Turn) (d : Detector) (judged : Nat) (began : Instant) : State → Prop where
  | start : Comes t d judged began (.start t began)
  | next {s next : State} (hs : Comes t d judged began s)
      (hnext : t.resume s (d.judge (judged + s.count) s.latest) = .pending next) :
      Comes t d judged began next

/-- What is known of such a state: it is tracked, below the cap or at it, and carrying the turn on
    from there is running the turn. -/
structure Comes.Known (t : Turn) (d : Detector) (judged : Nat) (began : Instant) (event : Signal)
    (s : State) : Prop where
  tracks : s.Tracks t event
  le : s.count ≤ t.cap
  run_eq : t.runFrom d judged began =
    t.drive d (judged + s.count) (t.cap + 1 - s.count) (.pending s)

theorem Comes.known (haccepts : ∀ k, ∃ raises w, t.sender k = .accepted raises w)
    (hevent : t.signal.map (·.shiftedBy began) = some event) (h : Comes t d judged began s) :
    Comes.Known t d judged began event s := by
  induction h with
  | start => exact ⟨State.tracks_start hevent, Nat.zero_le _, rfl⟩
  | @next s next _ hnext ih =>
    have htracks := tracks_resume haccepts ih.tracks (d.judge (judged + s.count) s.latest)
    obtain ⟨hcap, hcount⟩ := count_of_pending haccepts ih.tracks hnext
    rw [hnext] at htracks
    refine ⟨htracks, by omega, ?_⟩
    rw [ih.run_eq, Nat.succ_sub ih.le, drive, hnext, hcount, Nat.add_sub_add_right, Nat.add_assoc]

end Rounds

/-- A turn whose calls all give work to wait for honours its signal. It sends no request while the
signal is set. It ends cancelled, with the number of responses received so far, if the signal is set
when a round starts below the cap or becomes set during the delay, if the call that hands over a
request sets it, or if it becomes set before the answer is there, and then the work has been
cancelled and has cleaned up by the end of the turn. -/
theorem runFrom_honours_signal [Json.Limits] {t : Turn} {signal : Signal}
    (hsignal : t.signal = some signal)
    (haccepts : ∀ k, ∃ raises w, t.sender k = .accepted raises w) (d : Detector) (judged : Nat)
    (began : Instant) :
    let event := signal.shiftedBy began
    let report := t.runFrom d judged began
    (∀ j q, report.state.requests[j]? = some q → ¬ t.IsSet event j q.at_) ∧
    (∀ s, t.Comes d judged began s →
      (d.judge (judged + s.count) s.latest).diagnosis.isTruncated = true → s.count < t.cap →
        t.IsSet event s.count s.now ∨ t.SetsInDelay event s → report.CancelledAfter s.count) ∧
    ∀ k q, report.state.requests[k]? = some q →
      (∀ w, t.sender k = .accepted true w → report.CancelledAfter k) ∧
      ∀ w c, t.sender k = .accepted false w → SetsDuring event w q.at_ c →
        report.CancelledAfter k ∧ report.Abandons w q.at_ c := by
  intro event report
  have hevent : t.signal.map (·.shiftedBy began) = some event := by
    rw [hsignal]
    rfl
  have hstart := State.tracks_start hevent
  refine ⟨sentUnset_drive (p := .pending (.start t began)) haccepts hstart judged _, ?_, ?_⟩
  · intro s hs htruncated hcap hset
    obtain ⟨htracks, hle, hrun⟩ := hs.known haccepts hevent
    obtain ⟨last, hended, hcancelled⟩ := cancelledAfter_resume haccepts htracks htruncated hcap hset
    have hreport : report = last := by
      change t.runFrom d judged began = last
      rw [hrun, Nat.succ_sub hle, drive, hended, drive_ended]
    rw [hreport]
    exact hcancelled
  · intro k q hq
    obtain ⟨s, sig, p, judged', left, rfl, hnow, htracks, hsig, hp, hrun⟩ :=
      exists_sent haccepts hstart (Nat.zero_le k) hq
    have hreport {last : Report} (hended : p = .ended last) : report = last := by
      rw [hended, drive_ended] at hrun
      exact hrun
    refine ⟨?_, ?_⟩
    · intro w hcall
      obtain ⟨last, hended, hcancelled⟩ := hp.cancelledAfter_of_call hcall
      rw [hreport hended]
      exact hcancelled
    · intro w c hcall hset
      rw [← hnow] at hset ⊢
      obtain ⟨last, hended, hcancelled, habandons⟩ :=
        hp.cancelledAfter_of_work hcall (htracks.follows hsig) hset
      rw [hreport hended]
      exact ⟨hcancelled, habandons⟩

/-- Four turns with requests that take two seconds, a delay of three, and work that cleans up for a
second when it is cancelled and then has a value after all. The signal is raised from the start, or by
the first call, or while the first request is pending, or during the delay after it. -/
theorem runFrom_cancelled_at_each_moment :
    let first : Response := .chat (.ofText ['a', 'b'] none)
    let work : Work (Option Response) := ⟨none, .seconds 2, .value (some first), some 1, .value none⟩
    let turn (signal : Signal) (raises : Bool) : Turn :=
      ⟨{ Policy.default with delay := .int 3, minProgress := .int 0 }, [], first,
        fun _ => .accepted raises work, some signal⟩
    let d : Detector := .scripted [.truncated .tokenLimit ""]
    ((turn ⟨true, none⟩ false).runFrom d 0 0).CancelledAfter 0 ∧
      ((turn ⟨false, none⟩ true).runFrom d 0 0).CancelledAfter 0 ∧
      ((turn ⟨false, some 1⟩ false).runFrom d 0 0).CancelledAfter 0 ∧
      ((turn ⟨false, some 1⟩ false).runFrom d 0 0).Abandons work 0 1 ∧
      ¬ (turn ⟨false, some 1⟩ false).IsSet ⟨false, some 1⟩ 0 0 ∧
      ((turn ⟨false, some 4⟩ false).runFrom d 0 0).CancelledAfter 1 := by
  intro first work turn d
  have haccepts (signal : Signal) (raises : Bool) (k : Nat) :
      ∃ raises' w, (turn signal raises).sender k = .accepted raises' w := ⟨raises, work, rfl⟩
  have hraised := runFrom_honours_signal rfl (haccepts ⟨true, none⟩ false) d 0 0
  have hcalled := runFrom_honours_signal rfl (haccepts ⟨false, none⟩ true) d 0 0
  have hpending := runFrom_honours_signal rfl (haccepts ⟨false, some 1⟩ false) d 0 0
  have hdelayed := runFrom_honours_signal rfl (haccepts ⟨false, some 4⟩ false) d 0 0
  simp only [Signal.shiftedBy_zero] at hpending hdelayed
  have hcap (signal : Signal) (raises : Bool) : 1 < (turn signal raises).cap := by
    change 1 < Policy.default.maxContinuations.ceiling?.getD endless
    decide +kernel
  have hasked (signal : Signal) (raises : Bool)
      (hat : ((turn signal raises).runFrom d 0 0).state.requests[0]?.map (·.at_) = some 0) :
      ∃ q, ((turn signal raises).runFrom d 0 0).state.requests[0]? = some q ∧ q.at_ = 0 :=
    Option.map_eq_some_iff.1 hat
  refine ⟨?_, ?_, ?_⟩
  · exact hraised.2.1 _ .start rfl (Nat.lt_of_succ_lt (hcap _ _)) (.inl (.inl rfl))
  · obtain ⟨q, hq, _⟩ := hasked ⟨false, none⟩ true (by decide +kernel)
    exact (hcalled.2.2 0 q hq).1 work rfl
  obtain ⟨q, hq, hat⟩ := hasked ⟨false, some 1⟩ false (by decide +kernel)
  have hset : SetsDuring ⟨false, some 1⟩ work q.at_ 1 := by
    rw [hat]
    refine ⟨?_, rfl, by decide +kernel⟩
    rintro e ⟨⟩
    decide +kernel
  obtain ⟨hcancelled, habandons⟩ := (hpending.2.2 0 q hq).2 work 1 rfl hset
  have hunset := hpending.1 0 q hq
  rw [hat] at habandons hunset
  refine ⟨hcancelled, habandons, hunset, ?_⟩
  have hanswered : (match (turn ⟨false, some 4⟩ false).resume
      (.start (turn ⟨false, some 4⟩ false) 0) (d.judge 0 (some first)) with
      | .pending s => decide (s.now = 2 ∧ s.count = 1 ∧
          (turn ⟨false, some 4⟩ false).isStalled s = false)
      | .ended _ => false) = true := by decide +kernel
  cases hnext : (turn ⟨false, some 4⟩ false).resume (.start (turn ⟨false, some 4⟩ false) 0)
      (d.judge 0 (some first)) with
  | ended report =>
    rw [hnext] at hanswered
    cases hanswered
  | pending s =>
    rw [hnext] at hanswered
    obtain ⟨hnow, hcount, hgoing⟩ := of_decide_eq_true hanswered
    have hcancelled := hdelayed.2.1 s (.next .start hnext)
    rw [hcount] at hcancelled
    refine hcancelled ?_ (hcap _ _) (.inr ⟨?_, ?_, hgoing, 4, rfl, ?_⟩)
    · rfl
    · rw [hcount]
      exact Nat.one_pos
    · decide +kernel
    · rw [hnow]
      exact ⟨by decide +kernel, by decide +kernel⟩

end Rejoin.Turn
