import Rejoin.Proofs.Timeline.Race
import Rejoin.Turn.Run

/-!
What one step of a turn can do. Each function of a step has one lemma, which lists the ways in which
it can go and what holds in each; a state is described by what was sent and received before it, since
everything else that a step changes is the time, the signal, and what is observed and reported.
-/

namespace Rejoin

/-- Whether a fault tells of a cancelled turn. -/
def Fault.IsCancelled (f : Fault) : Prop := ∃ count, f.kind = .cancelled count

theorem Fault.isCancelled_cancelled (message : String) : (cancelled message).IsCancelled := ⟨0, rfl⟩

/-- Without a signal nothing is cancelled. -/
theorem Signal.ne_none_of_check {s : Option Signal} {now : Instant} {message : String}
    {fault : Fault} (hcheck : check s now message = some fault) : s ≠ none := by
  rintro rfl
  cases hcheck

/-- Without a signal a wait takes its time. -/
theorem ne_none_of_wait {stop : Option Instant} {s : Option Signal} {now at_ : Instant} {fault : Fault}
    (hwait : wait stop s now = some ⟨some fault, at_⟩) : s ≠ none := by
  rintro rfl
  obtain ⟨_, _, hplain⟩ := Option.map_eq_some_iff.1 hwait
  cases hplain

/-- What comes of a wait for work: the work ends as it chooses, or the signal, if there is one, cancels
    it, or the work never ends. -/
inductive Race.Waits {α : Type} (w : Work α) (s : Option Signal) : Option (Awaited α) → Prop where
  | ends {a : Awaited α} (hends : w.EndsAs a.ending) (hsignal : s = none → a.signal = none) :
      Waits w s (some a)
  | cancelled {a : Awaited α} {fault : Fault} (hsignal : s ≠ none) (hfault : fault.IsCancelled)
      (hending : a.ending = .failed (.fault fault)) : Waits w s (some a)
  | never (hendless : w.duration = .endless) : Waits w s none

theorem Race.waits_answered? {α : Type} (w : Work α) {s t : Option Signal}
    (hsignal : s = none → t = none) (start : Instant) : Waits w s (answered? w t start) := by
  cases hfinish : w.finishAt? start with
  | none =>
    rw [answered?, Work.complete, hfinish]
    exact .never (Work.finishAt?_eq_none_iff.1 hfinish)
  | some e =>
    rw [answered?_eq_some_iff.2 ⟨e, hfinish, rfl⟩]
    exact .ends ⟨Work.ne_endless_of_finishAt? hfinish, rfl⟩ hsignal

theorem Race.waits_await {α : Type} (w : Work α) (start : Instant) (s : Option Signal) :
    Waits w s (await w start s false none) := by
  cases s with
  | none => exact waits_answered? w id start
  | some s =>
    cases hraised : s.isRaised start with
    | true =>
      rw [await_of_isRaised hraised]
      exact .cancelled (Option.some_ne_none s) (Fault.isCancelled_cancelled _) rfl
    | false =>
      cases htime : signalTime? w s start with
      | none =>
        rw [await_of_signalTime?_eq_none hraised htime]
        exact waits_answered? w (absurd · (Option.some_ne_none s)) start
      | some t =>
        rw [await_of_signalTime? hraised htime]
        exact .cancelled (Option.some_ne_none s) (Fault.isCancelled_cancelled _) rfl

/-- Whether a call fails by itself, at once or when its work ends. -/
def Call.Fails (call : Call) (f : Failure) : Prop :=
  call = .refused f ∨ ∃ raises w, call = .accepted raises w ∧ w.EndsAs (.failed f)

namespace Turn

/-- Whether a turn ended by being cancelled. -/
def Outcome.IsCancelled : Outcome → Prop
  | .failed (.fault f) => f.IsCancelled
  | _ => False

/-- Two states between which nothing was sent or received. -/
structure State.SameExchange (s next : State) : Prop where
  responses : next.responses = s.responses
  requests : next.requests = s.requests
  signal : next.signal = s.signal

/-- Two states between which one request was sent, whatever came of it. -/
structure State.OneSent (s next : State) : Prop where
  responses : next.responses = s.responses
  requests : next.requests.length = s.requests.length + 1
  signal : s.signal = none → next.signal = none

variable {t : Turn} {s : State}

theorem State.SameExchange.count_eq {next : State} (h : s.SameExchange next) :
    next.count = s.count := by
  rw [count, count, h.responses]

theorem State.SameExchange.trans {middle next : State} (h : s.SameExchange middle)
    (hnext : middle.SameExchange next) : s.SameExchange next :=
  ⟨hnext.responses.trans h.responses, hnext.requests.trans h.requests,
    hnext.signal.trans h.signal⟩

section Ends

theorem isCancelled_cancel (s : State) (f : Fault) : (cancel s f).outcome.IsCancelled :=
  ⟨s.count, rfl⟩

theorem isCancelled_fail {f : Fault} (hf : f.IsCancelled) (s : State) :
    (fail s (.fault f)).outcome.IsCancelled := by
  obtain ⟨count, hkind⟩ := hf
  unfold fail
  dsimp only
  rw [hkind]
  exact isCancelled_cancel s f

/-- A failure other than a cancellation is passed on as it is. -/
theorem fail_eq {f : Failure} (hf : ¬ (fail s f).outcome.IsCancelled) :
    fail s f = ⟨.failed f, s⟩ := by
  cases f with
  | foreign => rfl
  | fault f =>
    by_cases hcancelled : f.IsCancelled
    · exact absurd (isCancelled_fail hcancelled s) hf
    · unfold fail
      dsimp only
      split
      · next count hkind => exact absurd ⟨count, hkind⟩ hcancelled
      · rfl

/-- The end of a turn with a result, if reaching the cap is no fault: the result has all responses,
    and the phase is the given one unless the turn would go on but for its cap. -/
structure Settled (t : Turn) (s : State) (phase : Phase) (report : Report) (result : Result) :
    Prop where
  outcome : report.outcome = .result result
  count : result.count = s.count
  responses : result.responses = s.responses
  reachedMax : result.reachedMax = t.hasReachedMax s
  phase : result.phase = if t.hasReachedMax s && phase = .continuing then .maxReached else phase
  requests : report.state.requests = s.requests

theorem exists_settled_finish [Json.Limits] (hthrow : t.policy.failsAtCap = false) (s : State)
    (phase : Phase) :
    ∃ result, t.Settled s phase (t.finish s phase) result := by
  unfold finish
  dsimp only
  rw [hthrow, Bool.and_false, if_neg Bool.false_ne_true]
  refine ⟨_, rfl, ?_, ?_, rfl, rfl, ?_⟩ <;> dsimp only <;> split <;> rfl

end Ends

/-- What comes of a request: it fails, or its answer is the next response to be judged, or the turn
    is abandoned with the work that it waits for, or waits for ever for work that never ends. -/
inductive Requested (t : Turn) (s : State) : Progress → Prop where
  | refused {f : Failure} {next : State} (hcall : t.sender s.count = .refused f)
      (hnext : s.OneSent next) : Requested t s (.ended (fail next f))
  | cancelled {raises : Bool} {w : Work (Option Response)} {f : Fault} {next : State}
      (hcall : t.sender s.count = .accepted raises w) (hsignal : s.signal ≠ none)
      (hfault : f.IsCancelled) (hnext : s.OneSent next) : Requested t s (.ended (fail next (.fault f)))
  | answered {raises : Bool} {w : Work (Option Response)} {answer : Option Response} {next : State}
      (hcall : t.sender s.count = .accepted raises w) (hending : w.EndsAs (.value answer))
      (hnext : s.OneSent next) :
      Requested t s (.pending { next with responses := next.responses ++ [answer] })
  | failed {raises : Bool} {w : Work (Option Response)} {f : Failure} {next : State}
      (hcall : t.sender s.count = .accepted raises w) (hending : w.EndsAs (.failed f))
      (hnext : s.OneSent next) : Requested t s (.ended (fail next f))
  | abandoned {raises : Bool} {w : Work (Option Response)} {next : State}
      (hcall : t.sender s.count = .accepted raises w) (hending : w.EndsAs .abandoned)
      (hnext : s.OneSent next) : Requested t s (.ended ⟨.abandoned, next⟩)
  | endless {raises : Bool} {w : Work (Option Response)} {next : State}
      (hcall : t.sender s.count = .accepted raises w) (hendless : w.duration = .endless)
      (hnext : s.OneSent next) : Requested t s (.ended ⟨.waitsForEver, next⟩)

theorem oneSent_sent (t : Turn) (s : State) (messages : List Message) :
    s.OneSent (t.sent s messages) := by
  refine ⟨rfl, ?_, id⟩
  exact List.length_append

theorem requested_request (t : Turn) (s : State) : Requested t s (t.request s) := by
  unfold request
  dsimp only
  have hsent := oneSent_sent t s (requestFor t.policy t.messages s.latest)
  cases hcall : t.sender s.count with
  | refused f => exact .refused hcall hsent
  | accepted raises w =>
    dsimp only
    generalize hheld : (if raises then _ else _ : Option Signal) = signal
    have hnone (h : s.signal = none) : signal = none := by
      rw [← hheld, hsent.signal h]
      cases raises <;> rfl
    have hwaits := Race.waits_await w (t.sent s (requestFor t.policy t.messages s.latest)).now signal
    generalize Race.await w _ signal false none = a at hwaits ⊢
    cases hwaits with
    | never hendless => exact .endless hcall hendless hsent
    | @cancelled a fault hsome hfault hending =>
      unfold receive
      dsimp only
      rw [hending]
      exact .cancelled hcall (fun h => hsome (hnone h)) hfault
        ⟨hsent.responses, hsent.requests, fun h => absurd (hnone h) hsome⟩
    | @ends a hends hsignal =>
      have hnext (h : s.signal = none) : a.signal = none := hsignal (hnone h)
      unfold receive
      dsimp only
      cases hending : a.ending with
      | value answer =>
        exact .answered hcall (hending ▸ hends) ⟨hsent.responses, hsent.requests, hnext⟩
      | failed f =>
        exact .failed hcall (hending ▸ hends) ⟨hsent.responses, hsent.requests, hnext⟩
      | abandoned =>
        exact .abandoned hcall (hending ▸ hends) ⟨hsent.responses, hsent.requests, hnext⟩

/-- What comes of a round: the turn ends at its cap, is cancelled, or stalls, or it waits for ever since
    its delay is infinite, or else it sends a request. -/
inductive Rounded [Json.Limits] (t : Turn) (s : State) : Progress → Prop where
  | capped (hcap : t.cap ≤ s.count) : Rounded t s (.ended (t.finish s .continuing))
  | cancelled {f : Fault} {next : State} (hcap : s.count < t.cap) (hsignal : s.signal ≠ none)
      (hnext : s.SameExchange next) : Rounded t s (.ended (cancel next f))
  | stalled {next : State} (hcap : s.count < t.cap) (hstalled : t.isStalled s = true)
      (hnext : s.SameExchange next) : Rounded t s (.ended (t.finish next .stalled))
  | endless (hcap : s.count < t.cap) (hstalled : t.isStalled s = false) (hcount : 0 < s.count)
      (hdelay : t.policy.delay.extent? = some .highest) : Rounded t s (.ended ⟨.waitsForEver, s⟩)
  | requested {next : State} {p : Progress} (hcap : s.count < t.cap)
      (hstalled : t.isStalled s = false) (hnext : s.SameExchange next) (hp : Requested t next p) :
      Rounded t s p

theorem sameExchange_remark (t : Turn) (s : State) : s.SameExchange (t.remark s) := by
  unfold remark
  split <;> exact ⟨rfl, rfl, rfl⟩

/-- Without a signal the pause before a request takes its time. -/
theorem ne_none_of_pause {fault : Fault} {at_ : Instant}
    (hpause : t.pause s = some ⟨some fault, at_⟩) : s.signal ≠ none := by
  unfold pause at hpause
  split at hpause
  · exact ne_none_of_wait hpause
  · cases hpause

/-- Only a delay that is infinite makes the pause before a request endless. -/
theorem extent?_of_pause (hpause : t.pause s = none) :
    0 < s.count ∧ t.policy.delay.extent? = some .highest := by
  unfold pause at hpause
  split at hpause
  · next hwaits =>
    rw [Bool.and_eq_true, decide_eq_true_eq] at hwaits
    have hend := eq_none_of_wait hpause
    rw [pauseEnd, if_pos hwaits.1] at hend
    exact ⟨hwaits.1, Number.after?_eq_none_iff.1 hend⟩
  · cases hpause

theorem rounded_round [Json.Limits] (t : Turn) (s : State) : Rounded t s (t.round s) := by
  unfold round
  split
  · next hcap => exact .capped hcap
  next hcap =>
  rw [Nat.not_le] at hcap
  split
  · next hcheck => exact .cancelled hcap (Signal.ne_none_of_check hcheck) ⟨rfl, rfl, rfl⟩
  split
  · next hstalled => exact .stalled hcap hstalled ⟨rfl, rfl, rfl⟩
  next hstalled =>
  rw [Bool.not_eq_true] at hstalled
  cases hpause : t.pause s with
  | none =>
    obtain ⟨hcount, hdelay⟩ := extent?_of_pause hpause
    exact .endless hcap hstalled hcount hdelay
  | some w =>
    obtain ⟨fault, at_⟩ := w
    cases fault with
    | some fault => exact .cancelled hcap (ne_none_of_pause hpause) ⟨rfl, rfl, rfl⟩
    | none =>
      have hsame := sameExchange_remark t { s with now := at_ }
      exact .requested hcap hstalled ⟨hsame.responses, hsame.requests, hsame.signal⟩
        (requested_request t _)

/-- What comes of a judgement: a complete response ends the turn, and after a truncated one there is
    another round. -/
inductive Resumed [Json.Limits] (t : Turn) (s : State) (v : Verdict) : Progress → Prop where
  | complete {next : State} (hcount : s.count = 0) (hcomplete : v.diagnosis.isTruncated = false)
      (hnext : s.SameExchange next) :
      Resumed t s v (.ended ⟨.result (.ofComplete s.latest), next⟩)
  | done {next : State} (hcount : 0 < s.count) (hcomplete : v.diagnosis.isTruncated = false)
      (hnext : s.SameExchange next) : Resumed t s v (.ended (t.finish next .done))
  | rounded {next : State} {p : Progress} (htruncated : v.diagnosis.isTruncated = true)
      (hnext : s.SameExchange next) (hp : Rounded t next p) : Resumed t s v p

theorem resumed_resume [Json.Limits] (t : Turn) (s : State) (v : Verdict) :
    Resumed t s v (t.resume s v) := by
  have hcount : (s.report v.records).count = s.count := rfl
  unfold resume
  dsimp only
  split
  · next hzero hcomplete => exact .complete hzero hcomplete ⟨rfl, rfl, rfl⟩
  · next htruncated =>
    refine .rounded htruncated ?_ (rounded_round t _)
    exact ⟨rfl, rfl, rfl⟩
  · next count hsucc hcomplete =>
    rw [hcount] at hsucc
    exact .done (by omega) hcomplete ⟨rfl, rfl, rfl⟩
  · next htruncated =>
    refine .rounded htruncated ?_ (rounded_round t _)
    exact ⟨rfl, rfl, rfl⟩

section Invariants

theorem exists_outcome_fail (s : State) (f : Failure) : ∃ g, (fail s f).outcome = .failed g := by
  unfold fail
  split
  · split <;> exact ⟨_, rfl⟩
  · exact ⟨_, rfl⟩

theorem fail_ne_result (s : State) (f : Failure) (result : Result) :
    (fail s f).outcome ≠ .result result := by
  obtain ⟨g, hfailed⟩ := exists_outcome_fail s f
  rw [hfailed]
  rintro ⟨⟩

theorem Requested.outcome_ne_result {report : Report} (hp : Requested t s (.ended report))
    (result : Result) : report.outcome ≠ .result result := by
  cases hp with
  | refused | cancelled | failed => exact fail_ne_result _ _ result
  | abandoned | endless => nofun

/-- Whether a turn has a reason to wait for ever: an infinite delay, or work that never ends. -/
def MayWaitForEver (t : Turn) : Prop :=
  t.policy.delay.extent? = some .highest ∨
    ∃ k raises w, t.sender k = .accepted raises w ∧ w.duration = .endless

theorem Requested.mayWaitForEver {report : Report} (hp : Requested t s (.ended report))
    (hwaits : report.outcome = .waitsForEver) : t.MayWaitForEver := by
  cases hp with
  | endless hcall hendless => exact .inr ⟨_, _, _, hcall, hendless⟩
  | abandoned => cases hwaits
  | refused | cancelled | failed =>
    obtain ⟨f, hfailed⟩ := exists_outcome_fail _ _
    rw [hfailed] at hwaits
    cases hwaits

variable [Json.Limits]

/-- A step that ends a turn with a result finds the first response complete, or it finishes the turn
    with the responses that there are. -/
theorem Resumed.of_result {v : Verdict} {report : Report} {result : Result}
    (hp : Resumed t s v (.ended report)) (hresult : report.outcome = .result result) :
    s.count = 0 ∧ v.diagnosis.isTruncated = false ∧ result = .ofComplete s.latest ∨
      ∃ next phase, next.responses = s.responses ∧ report = t.finish next phase := by
  cases hp with
  | complete hcount hcomplete =>
    cases hresult
    exact .inl ⟨hcount, hcomplete, rfl⟩
  | done _ _ hnext => exact .inr ⟨_, _, hnext.responses, rfl⟩
  | rounded _ hmiddle hp =>
    cases hp with
    | capped => exact .inr ⟨_, _, hmiddle.responses, rfl⟩
    | stalled _ _ hnext => exact .inr ⟨_, _, (hmiddle.trans hnext).responses, rfl⟩
    | cancelled | endless => cases hresult
    | requested _ _ _ hp => exact absurd hresult (hp.outcome_ne_result result)

/-- A step after which a turn goes on adds one response. -/
theorem Resumed.of_pending {v : Verdict} {next : State} (hp : Resumed t s v (.pending next)) :
    ∃ answer, next.responses = s.responses ++ [answer] := by
  cases hp with
  | rounded _ hmiddle hp =>
    cases hp with
    | requested _ _ hsame hp =>
      cases hp with
      | answered _ _ hnext =>
        refine ⟨_, congrArg (· ++ [_]) ?_⟩
        exact (hnext.responses.trans hsame.responses).trans hmiddle.responses

/-- What every step keeps is kept until the turn ends. -/
theorem drive_of_step {P : Progress → Prop} {d : Detector}
    (hstep : ∀ s v, P (.pending s) → P (t.resume s v))
    (hlast : ∀ s, P (.pending s) → P (.ended (t.finish s .continuing))) {p : Progress} (hp : P p)
    (judged left : Nat) : P (.ended (t.drive d judged left p)) := by
  induction left generalizing judged p with
  | zero =>
    cases p with
    | ended report => exact hp
    | pending s => exact hlast s hp
  | succ left ih =>
    cases p with
    | ended report => exact hp
    | pending s => exact ih (hstep s _ hp) (judged + 1)

end Invariants

section Undisturbed

/-- A turn that nobody can cancel: it has no signal, and none of its requests fails by being
    cancelled. -/
structure IsUndisturbed (t : Turn) : Prop where
  signal : t.signal = none
  calls : ∀ k f, (t.sender k).Fails (.fault f) → ¬ f.IsCancelled

/-- A turn without a signal, all of whose calls give work for a value, cannot be cancelled. -/
theorem isUndisturbed_of_values (hsignal : t.signal = none)
    (hvalues : ∀ k, ∃ raises w r, t.sender k = .accepted raises w ∧ w.ending = .value r) :
    t.IsUndisturbed := by
  refine ⟨hsignal, fun k f hfails => ?_⟩
  obtain ⟨raises, w, r, hcall, hvalue⟩ := hvalues k
  obtain hrefused | ⟨_, _, hother, _, hfailed⟩ := hfails
  · rw [hcall] at hrefused
    cases hrefused
  · rw [hcall] at hother
    cases hother
    rw [hvalue] at hfailed
    cases hfailed

/-- What is kept on the way of such a turn. -/
def Progress.IsUndisturbed : Progress → Prop
  | .pending s => s.signal = none
  | .ended report => ¬ report.outcome.IsCancelled

theorem not_isCancelled_finish [Json.Limits] (t : Turn) (s : State) (phase : Phase) :
    ¬ (t.finish s phase).outcome.IsCancelled := by
  unfold finish
  dsimp only
  split
  · rintro ⟨count, hkind⟩
    cases hkind
  · exact id

theorem not_isCancelled_fail {f : Failure} (hf : ∀ fault, f = .fault fault → ¬ fault.IsCancelled)
    (s : State) : ¬ (fail s f).outcome.IsCancelled := by
  cases f with
  | foreign => exact id
  | fault fault =>
    have hnot := hf fault rfl
    unfold fail
    dsimp only
    split
    · next count hkind => exact absurd ⟨count, hkind⟩ hnot
    · exact hnot

theorem Requested.isUndisturbed {p : Progress} (ht : t.IsUndisturbed) (hs : s.signal = none)
    (hp : Requested t s p) : p.IsUndisturbed := by
  cases hp with
  | refused hcall hnext =>
    refine not_isCancelled_fail (fun fault hfault => ?_) _
    subst hfault
    exact ht.calls s.count fault (.inl hcall)
  | cancelled _ hsignal => exact absurd hs hsignal
  | answered _ _ hnext => exact hnext.signal hs
  | failed hcall hending hnext =>
    refine not_isCancelled_fail (fun fault hfault => ?_) _
    subst hfault
    exact ht.calls s.count fault (.inr ⟨_, _, hcall, hending⟩)
  | abandoned | endless => exact id

variable [Json.Limits]

theorem Rounded.isUndisturbed {p : Progress} (ht : t.IsUndisturbed) (hs : s.signal = none)
    (hp : Rounded t s p) : p.IsUndisturbed := by
  cases hp with
  | capped | stalled => exact not_isCancelled_finish t _ _
  | cancelled _ hsignal => exact absurd hs hsignal
  | endless => exact id
  | requested _ _ hnext hp => exact hp.isUndisturbed ht (hnext.signal.trans hs)

theorem Resumed.isUndisturbed {v : Verdict} {p : Progress} (ht : t.IsUndisturbed)
    (hs : s.signal = none) (hp : Resumed t s v p) : p.IsUndisturbed := by
  cases hp with
  | complete => exact id
  | done => exact not_isCancelled_finish t _ _
  | rounded _ hnext hp => exact hp.isUndisturbed ht (hnext.signal.trans hs)

theorem not_isCancelled_drive (ht : t.IsUndisturbed) (d : Detector) (judged left : Nat)
    {p : Progress} (hp : p.IsUndisturbed) : ¬ (t.drive d judged left p).outcome.IsCancelled :=
  drive_of_step (fun s v hs => (resumed_resume t s v).isUndisturbed ht hs)
    (fun s _ => not_isCancelled_finish t s .continuing) hp judged left

/-- A turn that nobody can cancel is not cancelled. -/
theorem not_isCancelled_run (ht : t.IsUndisturbed) (d : Detector) :
    ¬ (t.run d).outcome.IsCancelled :=
  not_isCancelled_drive ht d 0 _ (congrArg (Option.map _) ht.signal)

end Undisturbed

end Turn

end Rejoin
