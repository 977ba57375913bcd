import Rejoin.Proofs.Turn.Forward

/-!
The pace of a turn. Each request asks for the continuation of the response before it and of nothing
older. The first is sent when the turn begins, and each later one as long after the response before it
arrived as the policy says. A turn waits for nothing else: one that is not cancelled ends with the
arrival of its last response, or with a request that brings none.
-/

namespace Rejoin

/-- A wait that no signal ends takes its time. -/
theorem until_wait {stop : Option Instant} {s : Option Signal} {now at_ : Instant}
    (hwait : wait stop s now = some ⟨none, at_⟩) : stop = some at_ := by
  have hplain (hplain : wait stop none now = some ⟨none, at_⟩) : stop = some at_ := by
    obtain ⟨e, he, heq⟩ := Option.map_eq_some_iff.1 hplain
    cases heq
    exact he
  cases s with
  | none => exact hplain hwait
  | some s =>
    cases hraised : s.isRaised now with
    | true =>
      rw [wait, if_pos hraised] at hwait
      cases hwait
    | false =>
      obtain ⟨_, heq⟩ | ⟨due, _, heq⟩ := wait_cases hraised stop
      · exact hplain (heq ▸ hwait)
      · rw [heq] at hwait
        cases hwait

/-- Work that is waited for gives its value when it is finished, and not before. -/
theorem Race.await_of_value {α : Type} {w : Work α} {start : Instant} {s : Option Signal}
    {a : Awaited α} {x : α} (ha : await w start s false none = some a) (hvalue : a.ending = .value x) :
    w.ending = .value x ∧ w.finishAt? start = some a.at_ := by
  have hanswered {s : Option Signal} (ha : answered? w s start = some a) :
      w.ending = .value x ∧ w.finishAt? start = some a.at_ := by
    obtain ⟨e, he, rfl⟩ := answered?_eq_some_iff.1 ha
    exact ⟨hvalue, he⟩
  cases s with
  | none => exact hanswered ha
  | some s =>
    cases hraised : s.isRaised start with
    | true =>
      rw [await_of_isRaised hraised] at ha
      cases ha
      cases hvalue
    | false =>
      cases htime : signalTime? w s start with
      | some c =>
        rw [await_of_signalTime? hraised htime] at ha
        cases ha
        cases hvalue
      | none =>
        rw [await_of_signalTime?_eq_none hraised htime] at ha
        exact hanswered ha

namespace Turn

variable {t : Turn} {d : Detector} {s next : State} {p : Progress} {began a : Instant} {k : Nat}

section Pace

/-- Whether the response at a position arrived at an instant: the first when the turn began, and any
    other when the work for its request was finished, with the response as its value. -/
inductive State.Arrives (t : Turn) (began : Instant) (s : State) : Nat → Instant → Prop where
  | initial : Arrives t began s 0 began
  | answer {k : Nat} {q : Request} {raises : Bool} {w : Work (Option Response)}
      {r : Option Response} {arrival : Instant} (hrequest : s.requests[k]? = some q)
      (hcall : t.sender k = .accepted raises w) (hvalue : w.ending = .value r)
      (hfinish : w.finishAt? q.at_ = some arrival) (hresponse : s.responses[k + 1]? = some r) :
      Arrives t began s (k + 1) arrival

/-- Whether the request at a position is to be sent at an instant: the first when the turn begins, and
    any other when the delay of the policy is over after the response before it arrived. -/
inductive State.DueAt (t : Turn) (began : Instant) (s : State) : Nat → Instant → Prop where
  | first : DueAt t began s 0 began
  | later {k : Nat} {arrival due : Instant} (harrives : s.Arrives t began (k + 1) arrival)
      (hdue : t.policy.delay.after? arrival = some due) : DueAt t began s (k + 1) due

/-- Whether a turn keeps its pace: each request is sent when it is due, and consists of the messages
    that the turn was given, the text of the response before it, if the policy wants it and it has any,
    and the prompt. -/
def State.KeepsPace (t : Turn) (began : Instant) (s : State) : Prop :=
  ∀ k q, s.requests[k]? = some q → s.DueAt t began k q.at_ ∧
    ∃ r, s.responses[k]? = some r ∧ q.messages = t.messages ++
      (if t.policy.includesPrevious = true ∧ Response.textOf r ≠ [] then
        [.assistant (Response.textOf r)] else []) ++ [.user t.policy.prompt]

/-- Whether each request of a turn was answered. -/
def State.IsAnswered (s : State) : Prop := s.responses.length = s.requests.length + 1

/-- What is kept on the way of a turn: its pace, an answer to each request, and that the last one has
    just arrived. -/
structure State.Ready (t : Turn) (began : Instant) (s : State) : Prop where
  pace : s.KeepsPace t began
  answered : s.IsAnswered
  arrived : s.Arrives t began s.requests.length s.now

/-- What holds of a turn that has ended: its pace, an answer to each request if it has a result, and
    that it did not wait for anything behind its last answer. -/
structure Report.Ready (t : Turn) (began : Instant) (report : Report) : Prop where
  pace : report.state.KeepsPace t began
  answered : ∀ result, report.outcome = .result result → report.state.IsAnswered
  arrived : report.state.IsAnswered → ¬ report.outcome.IsCancelled →
    report.state.Arrives t began report.state.requests.length report.state.now

def Progress.Ready (t : Turn) (began : Instant) : Progress → Prop
  | .pending s => s.Ready t began
  | .ended report => report.Ready t began

end Pace

section Keeping

theorem getElem?_mono {α : Type} {l m : List α} {x : α} (h : l <+: m) (hx : l[k]? = some x) :
    m[k]? = some x := by
  obtain ⟨rest, rfl⟩ := h
  rw [List.getElem?_append_left (List.getElem?_eq_some_iff.1 hx).1]
  exact hx

/-- Two states of which the second has all that was sent and received until the first. -/
structure State.Extends (s next : State) : Prop where
  requests : s.requests <+: next.requests
  responses : s.responses <+: next.responses

theorem State.extends_of_eq (hrequests : next.requests = s.requests)
    (hresponses : next.responses = s.responses) : s.Extends next where
  requests := hrequests ▸ List.prefix_rfl
  responses := hresponses ▸ List.prefix_rfl

theorem State.Arrives.of_extends (h : s.Arrives t began k a) (hnext : s.Extends next) :
    next.Arrives t began k a := by
  cases h with
  | initial => exact .initial
  | answer hrequest hcall hvalue hfinish hresponse =>
    exact .answer (getElem?_mono hnext.requests hrequest) hcall hvalue hfinish
      (getElem?_mono hnext.responses hresponse)

theorem State.DueAt.of_extends (h : s.DueAt t began k a) (hnext : s.Extends next) :
    next.DueAt t began k a := by
  cases h with
  | first => exact .first
  | later harrives hdue => exact .later (harrives.of_extends hnext) hdue

theorem State.KeepsPace.of_extends (h : s.KeepsPace t began) (hnext : s.Extends next)
    (hrequests : next.requests = s.requests) : next.KeepsPace t began := by
  intro k q hq
  rw [hrequests] at hq
  obtain ⟨hdue, r, hr, hmessages⟩ := h k q hq
  exact ⟨hdue.of_extends hnext, r, getElem?_mono hnext.responses hr, hmessages⟩

/-- With an answer to each request, the latest response is the one that the next request continues. -/
theorem State.IsAnswered.getElem?_latest (hs : s.IsAnswered) :
    s.responses[s.requests.length]? = some s.latest := by
  have hlast : s.requests.length = s.responses.length - 1 := by rw [hs, Nat.add_sub_cancel]
  have hne : s.responses ≠ [] := List.ne_nil_of_length_eq_add_one hs
  rw [hlast, ← List.getLast?_eq_getElem?, latest, List.getLast?_eq_some_getLast hne]
  rfl

theorem State.IsAnswered.count_eq (hs : s.IsAnswered) : s.count = s.requests.length := by
  rw [count, hs, Nat.add_sub_cancel]

/-- One more request, sent when it is due. -/
theorem State.KeepsPace.append {at_ : Instant} (h : s.KeepsPace t began) (hs : s.IsAnswered)
    (hdue : s.DueAt t began s.requests.length at_)
    (hrequests : next.requests =
      s.requests ++ [⟨at_, requestFor t.policy t.messages s.latest⟩])
    (hresponses : s.responses <+: next.responses) : next.KeepsPace t began := by
  have hnext : s.Extends next := ⟨hrequests ▸ List.prefix_append _ _, hresponses⟩
  intro k q hq
  rw [hrequests, List.getElem?_append] at hq
  split at hq
  · obtain ⟨hdue, r, hr, hmessages⟩ := h k q hq
    exact ⟨hdue.of_extends hnext, r, getElem?_mono hnext.responses hr, hmessages⟩
  · next hge =>
    rw [List.getElem?_singleton] at hq
    split at hq
    · next hzero =>
      obtain rfl : k = s.requests.length := by omega
      cases hq
      refine ⟨hdue.of_extends hnext, s.latest, getElem?_mono hresponses hs.getElem?_latest, ?_⟩
      simp [requestFor]
    · cases hq

end Keeping

section Steps

theorem responses_finish [Json.Limits] (t : Turn) (s : State) (phase : Phase) :
    (t.finish s phase).state.responses = s.responses := by
  unfold finish
  dsimp only
  split <;> split <;> rfl

theorem responses_fail (s : State) (f : Failure) : (fail s f).state.responses = s.responses := by
  unfold fail
  split
  · split <;> rfl
  · rfl

theorem receive_cases (s : State) (a : Option (Awaited (Option Response))) :
    (∃ x r next, a = some x ∧ x.ending = .value r ∧ receive s a = .pending next ∧
      next.now = x.at_ ∧ next.responses = s.responses ++ [r]) ∨
    ∃ report, receive s a = .ended report ∧ report.state.responses = s.responses ∧
      ∀ result, report.outcome ≠ .result result := by
  cases a with
  | none =>
    refine .inr ⟨⟨.waitsForEver, s⟩, rfl, rfl, fun result hresult => ?_⟩
    cases hresult
  | some a =>
    obtain ⟨ending, at_, trace, signal, records, drainedAt⟩ := a
    cases ending with
    | value r => exact .inl ⟨_, r, _, rfl, rfl, rfl, rfl, rfl⟩
    | failed f =>
      have hresponses := responses_fail
        ({ s with now := at_, signal, trace := s.trace ++ trace }.report records) f
      exact .inr ⟨_, rfl, hresponses, fail_ne_result _ f⟩
    | abandoned =>
      refine .inr ⟨_, rfl, rfl, fun result hresult => ?_⟩
      cases hresult

/-- A request brings its answer when the work is finished, or it ends the turn without a result. -/
theorem request_cases (t : Turn) (s : State) :
    (∃ next raises w r, t.request s = .pending next ∧ t.sender s.count = .accepted raises w ∧
      w.ending = .value r ∧ w.finishAt? s.now = some next.now ∧
      next.responses = s.responses ++ [r]) ∨
    ∃ report, t.request s = .ended report ∧ report.state.responses = s.responses ∧
      ∀ result, report.outcome ≠ .result result := by
  unfold request
  dsimp only
  cases hcall : t.sender s.count with
  | refused f =>
    have hresponses := responses_fail (t.sent s (requestFor t.policy t.messages s.latest)) f
    exact .inr ⟨_, rfl, hresponses, fail_ne_result _ f⟩
  | accepted raises w =>
    dsimp only
    generalize (if raises then _ else _ : Option Signal) = signal
    obtain ⟨x, r, next, ha, hending, hpending, hnow, hresponses⟩ | hended := receive_cases
      (t.sent s (requestFor t.policy t.messages s.latest)) (Race.await w s.now signal false none)
    · obtain ⟨hvalue, hfinish⟩ := Race.await_of_value ha hending
      exact .inl ⟨next, raises, w, r, hpending, rfl, hvalue, hnow ▸ hfinish, hresponses⟩
    · exact .inr hended

/-- What is reported changes nothing. -/
theorem State.Ready.of_eq (hs : s.Ready t began) (hrequests : next.requests = s.requests)
    (hresponses : next.responses = s.responses) (hnow : next.now = s.now) : next.Ready t began := by
  have hnext := State.extends_of_eq hrequests hresponses
  refine ⟨hs.pace.of_extends hnext hrequests, ?_, ?_⟩
  · rw [IsAnswered, hrequests, hresponses]
    exact hs.answered
  · rw [hrequests, hnow]
    exact hs.arrived.of_extends hnext

/-- A turn that ends without another request ends at once, unless it is cancelled. -/
theorem State.Ready.report {report : Report} (hs : s.Ready t began)
    (hrequests : report.state.requests = s.requests)
    (hresponses : report.state.responses = s.responses)
    (hnow : ¬ report.outcome.IsCancelled → report.state.now = s.now) : report.Ready t began := by
  have hnext := State.extends_of_eq hrequests hresponses
  refine ⟨hs.pace.of_extends hnext hrequests, fun _ _ => ?_, fun _ hnot => ?_⟩
  · rw [IsAnswered, hrequests, hresponses]
    exact hs.answered
  · rw [hrequests, hnow hnot]
    exact hs.arrived.of_extends hnext

theorem State.Ready.finish [Json.Limits] (hs : s.Ready t began) (phase : Phase) :
    (t.finish s phase).Ready t began :=
  hs.report (requests_finish t s phase) (responses_finish t s phase) fun _ => now_finish s t phase

theorem until_pause {at_ : Instant} (hpause : t.pause s = some ⟨none, at_⟩) :
    t.pauseEnd s = some at_ := by
  unfold pause at hpause
  split at hpause
  · exact until_wait hpause
  · next hnot =>
    cases hpause
    exact pauseEnd_of_not hnot

/-- The pause before a request ends when the request is due. -/
theorem State.Ready.dueAt {at_ : Instant} (hs : s.Ready t began)
    (hpause : t.pause s = some ⟨none, at_⟩) : s.DueAt t began s.requests.length at_ := by
  have harrived := hs.arrived
  have hend := until_pause hpause
  rw [pauseEnd, hs.answered.count_eq] at hend
  cases hlength : s.requests.length with
  | zero =>
    rw [hlength] at harrived hend
    obtain rfl : s.now = began := by
      cases harrived
      rfl
    cases hend
    exact .first
  | succ k =>
    rw [hlength] at harrived hend
    exact .later harrived hend

/-- A request that is sent when it is due keeps the pace. -/
theorem ready_request (hpace : s.KeepsPace t began) (hanswered : s.IsAnswered)
    (hdue : s.DueAt t began s.requests.length s.now) : (t.request s).Ready t began := by
  have hrequests := requests_request t s
  obtain ⟨next, raises, w, r, hpending, hcall, hvalue, hfinish, hresponses⟩ |
    ⟨report, hended, hresponses, hresult⟩ := request_cases t s
  · rw [hpending] at hrequests ⊢
    change next.requests = _ at hrequests
    have hlength : next.requests.length = s.requests.length + 1 := by
      rw [hrequests, List.length_append, List.length_singleton]
    refine ⟨hpace.append hanswered hdue hrequests (hresponses ▸ List.prefix_append _ _), ?_, ?_⟩
    · rw [State.IsAnswered, hresponses, hlength, List.length_append, List.length_singleton, hanswered]
    · rw [hlength]
      rw [hanswered.count_eq] at hcall
      refine .answer (q := ⟨s.now, requestFor t.policy t.messages s.latest⟩) ?_ hcall hvalue hfinish ?_
      · rw [hrequests, List.getElem?_append_right (Nat.le_refl _), Nat.sub_self]
        rfl
      · rw [hresponses, ← hanswered, List.getElem?_append_right (Nat.le_refl _), Nat.sub_self]
        rfl
  · rw [hended] at hrequests ⊢
    change report.state.requests = _ at hrequests
    refine ⟨hpace.append hanswered hdue hrequests (hresponses ▸ List.prefix_rfl), ?_, ?_⟩
    · exact fun result h => absurd h (hresult result)
    · intro hall
      rw [State.IsAnswered, hrequests, hresponses, hanswered, List.length_append] at hall
      simp at hall

variable [Json.Limits]

theorem ready_round (hs : s.Ready t began) : (t.round s).Ready t began := by
  unfold round
  split
  · exact hs.finish .continuing
  split
  · exact hs.report rfl rfl fun hnot => absurd (isCancelled_cancel s _) hnot
  split
  · refine State.Ready.finish ?_ .stalled
    exact hs.of_eq rfl rfl rfl
  cases hpause : t.pause s with
  | none => exact hs.report rfl rfl fun _ => rfl
  | some w =>
    obtain ⟨fault, at_⟩ := w
    cases fault with
    | some fault => exact hs.report rfl rfl fun hnot => absurd (isCancelled_cancel _ _) hnot
    | none =>
      have hsame := sameExchange_remark t { s with now := at_ }
      have hextends : s.Extends (t.remark { s with now := at_ }) :=
        State.extends_of_eq hsame.requests hsame.responses
      refine ready_request (hs.pace.of_extends hextends hsame.requests) ?_ ?_
      · rw [State.IsAnswered, hsame.requests, hsame.responses]
        exact hs.answered
      · rw [now_remark, hsame.requests]
        exact (hs.dueAt hpause).of_extends hextends

theorem ready_resume (hs : s.Ready t began) (v : Verdict) : (t.resume s v).Ready t began := by
  unfold resume
  dsimp only
  split
  · exact hs.report rfl rfl fun _ => rfl
  · exact ready_round (hs.of_eq rfl rfl rfl)
  · refine State.Ready.finish ?_ .done
    exact hs.of_eq rfl rfl rfl
  · exact ready_round (hs.of_eq rfl rfl rfl)

theorem ready_runFrom (t : Turn) (d : Detector) (judged : Nat) (began : Instant) :
    (t.runFrom d judged began).Ready t began := by
  have hstart : (State.start t began).Ready t began := by
    refine ⟨fun k q hq => ?_, rfl, .initial⟩
    cases hq
  exact drive_of_step (P := Progress.Ready t began) (fun s v hs => ready_resume hs v)
    (fun s hs => State.Ready.finish hs .continuing) (p := .pending (.start t began)) hstart judged _

end Steps

/-- Whatever becomes of a turn, each of its requests is sent when it is due: the first when the turn
begins, and any other when the delay of the policy is over after the response before it arrived: at
once if there is none, and never if it is infinite. It consists of the messages that the turn was given,
the text of that response, if the policy wants it and it has any, and the prompt, so that nothing
accumulates and no request has more than two messages beyond those given. A turn that has a result has
an answer to each request; and a turn that has these, and is not cancelled, comes no further than the
arrival of the last of them. -/
theorem runFrom_keeps_pace [Json.Limits] (t : Turn) (d : Detector) (judged : Nat)
    (began : Instant) :
    let report := t.runFrom d judged began
    (∀ k q, report.state.requests[k]? = some q →
      report.state.DueAt t began k q.at_ ∧
      (∃ r, report.state.responses[k]? = some r ∧ q.messages = t.messages ++
        (if t.policy.includesPrevious = true ∧ Response.textOf r ≠ [] then
          [.assistant (Response.textOf r)] else []) ++ [.user t.policy.prompt]) ∧
      q.messages.length ≤ t.messages.length + 2) ∧
    (∀ result, report.outcome = .result result → report.state.IsAnswered) ∧
    (report.state.IsAnswered → ¬ report.outcome.IsCancelled →
      report.state.Arrives t began report.state.requests.length report.state.now) := by
  intro report
  have hready : report.Ready t began := ready_runFrom t d judged began
  refine ⟨fun k q hq => ?_, hready.answered, hready.arrived⟩
  obtain ⟨hdue, r, hr, hmessages⟩ := hready.pace k q hq
  refine ⟨hdue, ⟨r, hr, hmessages⟩, ?_⟩
  rw [hmessages, List.length_append, List.length_append, List.length_singleton]
  split <;> simp

/-- Three requests that take two seconds each, with a delay of three in between. The third follows the
third response, which arrives after seven seconds, and asks for the continuation of that one alone; the
turn ends with its answer. -/
theorem runFrom_keeps_pace_of_three_requests :
    let response (c : Char) : Response := .chat (.ofText [c] none)
    let t : Turn :=
      ⟨{ Policy.default with delay := .int 3, minProgress := .int 0 }, [.user ['?']], response 'a',
        fun n => .accepted false
          ⟨none, .seconds 2, .value (some (response (['b', 'c', 'd'].getD n 'e'))), none, .abandoned⟩,
        none⟩
    let d : Detector := .scripted
      [.truncated .tokenLimit "", .truncated .tokenLimit "", .truncated .tokenLimit "", .complete]
    let report := t.runFrom d 0 0
    report.state.requests.map (·.at_) = [0, 5, 10] ∧
      report.state.requests[2]? =
        some ⟨10, [.user ['?'], .assistant ['c'], .user Policy.defaultPrompt.toList]⟩ ∧
      report.state.DueAt t 0 2 10 ∧ report.state.IsAnswered ∧
      report.state.Arrives t 0 3 report.state.now ∧ report.state.now = 12 := by
  intro response t d report
  obtain ⟨hpace, hanswered, harrived⟩ := runFrom_keeps_pace t d 0 0
  have hends : report.state.requests.map (·.at_) = [0, 5, 10] ∧ report.state.now = 12 := by
    decide +kernel
  have hthird : report.state.requests[2]? =
      some ⟨10, [.user ['?'], .assistant ['c'], .user Policy.defaultPrompt.toList]⟩ := by
    decide +kernel
  have hlength : report.state.requests.length = 3 := by
    rw [← List.length_map (fun q : Request => q.at_), hends.1]
    rfl
  have hresult : (match report.outcome with
      | .result _ => true
      | _ => false) = true := by decide +kernel
  cases houtcome : report.outcome with
  | result result =>
    have hall := hanswered result houtcome
    have hlast := harrived hall fun hcancelled => by rw [houtcome] at hcancelled; exact hcancelled
    rw [hlength] at hlast
    exact ⟨hends.1, hthird, (hpace 2 _ hthird).1, hall, hlast, hends.2⟩
  | failed | abandoned | waitsForEver =>
    rw [houtcome] at hresult
    cases hresult

end Turn

end Rejoin
