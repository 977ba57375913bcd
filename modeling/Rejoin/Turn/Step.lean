import Rejoin.Diagnosis.Detector
import Rejoin.Stitch
import Rejoin.Text.Preview
import Rejoin.Turn.Basic
import Rejoin.Turn.Recovery

/-!
The steps of a turn. A step starts with the judgement of the latest response. If the response is
complete the turn is done. Otherwise the turn ends at its cap, when it is cancelled, or when its
latest text is too short to count as progress, in this order; else it waits for its delay, sends one
request, and waits for the answer, which is the next response to be judged. A delay may be infinite,
and an answer may never come: then only the signal ends the wait, and without one the turn goes no
further.

A request consists of the messages that the turn was given, the text of the latest response, and the
prompt; nothing accumulates from one request to the next.
-/

namespace Rejoin.Turn

open Log

/-- The messages that ask for the continuation of a response. -/
def requestFor (p : Policy) (messages : List Message) (previous : Option Response) :
    List Message :=
  let text := Response.textOf previous
  messages ++ (if p.includesPrevious && !text.isEmpty then [.assistant text] else []) ++
    [.user p.prompt]

/-- More continuations than any turn receives; the cap of a turn whose policy has none. -/
def endless : Nat := Nat.pow 2 62

/-- The number of continuations that a turn may ask for. -/
def cap (t : Turn) : Nat := t.policy.maxContinuations.ceiling?.getD endless

/-- Whether a turn has received as many continuations as its policy allows. -/
def hasReachedMax (t : Turn) (s : State) : Bool :=
  t.policy.maxContinuations.le (.int s.count)

/-- Whether the latest text of a turn is shorter than its policy demands. The first text is never
    too short. -/
def isStalled (t : Turn) (s : State) : Bool :=
  1 < s.fragments.length &&
    s.fragments.getLast?.any fun f => (Number.int f.length).lt t.policy.minProgress

/-- Whether a turn has taken longer than its policy advises. -/
def isOverdue (t : Turn) (s : State) : Bool :=
  t.policy.maxDuration.isPositive &&
    t.policy.maxDuration.extent?.any fun e => e.lt (.point (s.now - s.began))

variable [Json.Limits]

/-- The end of a turn that has a result, unless its policy wants reaching the cap to be a fault. -/
def finish (t : Turn) (s : State) (phase : Phase) : Report :=
  let combined := Stitch.combine (s.fragments.map some)
  let reachedMax := t.hasReachedMax s
  let phase := if reachedMax && phase = .continuing then .maxReached else phase
  let s :=
    if reachedMax then
      s.tell .warning ("Max continuations reached (" ++ toString s.count ++ "/" ++
        t.policy.maxContinuations.truncatedText ++ ")")
    else s
  if reachedMax && t.policy.failsAtCap then
    ⟨.failed (.fault (.capReached t.policy.maxContinuations s.count combined s.responses)), s⟩
  else
    let recovered := Recovered.ofText t.policy combined
    let s := (s.report recovered.records).tell .info
      ("Continuation finished: state=" ++ phase.name ++ ", continuations=" ++ toString s.count ++
        ", chars=" ++ toString recovered.text.length)
    ⟨.result
      { final := some (Response.rebuild s.latest recovered.text)
        text := recovered.text
        count := s.count
        reachedMax
        responses := s.responses
        phase
        repair := recovered.repair
        rebuilt := true }, s⟩

/-- The end of a turn that was cancelled. The fault tells how many continuations it had received. -/
def cancel (s : State) (f : Fault) : Report :=
  ⟨.failed (.fault (f.cancelledAfter s.count)),
    s.tell f.severity.level
      ("Continuation cancelled after " ++ toString s.count ++ " request(s)")⟩

/-- The end of a turn whose request failed. A request that fails by being cancelled cancels the
    turn; any other failure is passed on as it is. -/
def fail (s : State) (f : Failure) : Report :=
  match f with
  | .fault fault =>
    match fault.kind with
    | .cancelled _ => cancel s fault
    | _ => ⟨.failed f, s⟩
  | .foreign .. => ⟨.failed f, s⟩

/-- When the wait before a request is over that nothing cuts short: at once before the first. -/
def pauseEnd (t : Turn) (s : State) : Option Instant :=
  if 0 < s.count then t.policy.delay.after? s.now else some s.now

/-- The wait before a request, if it ends: none before the first, nor if the policy has no delay. -/
def pause (t : Turn) (s : State) : Option Waited :=
  if 0 < s.count && t.policy.delay.isPositive then wait (t.pauseEnd s) s.signal s.now
  else some ⟨none, s.now⟩

/-- The state in which a remark on the duration is made, once. -/
def remark (t : Turn) (s : State) : State :=
  if !s.warned && t.isOverdue s then
    { s.tell .warning ("Continuation exceeded advisory duration of " ++
        t.policy.maxDuration.tenthsText ++ "s") with warned := true }
  else s

/-- The state after a request was handed over. -/
def sent (t : Turn) (s : State) (messages : List Message) : State :=
  let s := s.tell .debug
    ("Requesting continuation " ++ toString (s.count + 1) ++ "/" ++
      t.policy.maxContinuations.truncatedText ++ " (" ++ toString messages.length ++ " messages)")
  { s with requests := s.requests ++ [⟨s.now, messages⟩] }

/-- What becomes of a turn with the wait for an answer, which may never be over. -/
def receive (s : State) : Option (Awaited (Option Response)) → Progress
  | some a =>
    let s :=
      { s with now := a.at_, signal := a.signal, trace := s.trace ++ a.trace }.report a.records
    match a.ending with
    | .value r => .pending { s with responses := s.responses ++ [r] }
    | .failed f => .ended (fail s f)
    | .abandoned => .ended ⟨.abandoned, s⟩
  | none => .ended ⟨.waitsForEver, s⟩

/-- One request and the wait for its answer. -/
def request (t : Turn) (s : State) : Progress :=
  let call := t.sender s.count
  let s := t.sent s (requestFor t.policy t.messages s.latest)
  match call with
  | .refused f => .ended (fail s f)
  | .accepted raisesSignal work =>
    let signal := if raisesSignal then s.signal.map Signal.raise else s.signal
    receive s (Race.await work s.now signal false none)

/-- What becomes of a turn with the wait before its request: it is cancelled meanwhile, or sends the
    request, or waits for ever. -/
def goOn (t : Turn) (s : State) : Option Waited → Progress
  | some ⟨some fault, at_⟩ => .ended (cancel { s with now := at_ } fault)
  | some ⟨none, at_⟩ => t.request (t.remark { s with now := at_ })
  | none => .ended ⟨.waitsForEver, s⟩

/-- One round of a turn: the reasons to end in their order, the wait, and the request. -/
def round (t : Turn) (s : State) : Progress :=
  if t.cap ≤ s.count then .ended (t.finish s .continuing)
  else match Signal.check s.signal s.now Fault.cancelledMessage with
    | some fault => .ended (cancel s fault)
    | none =>
      if t.isStalled s then
        let length := (s.fragments.getLast?.getD []).length
        let s := s.tell .warning
          ("Continuation stalled: latest fragment has " ++ toString length ++ " chars (minimum " ++
            t.policy.minProgress.truncatedText ++ ")")
        .ended (t.finish s .stalled)
      else t.goOn s (t.pause s)

/-- A turn goes on when its latest response was judged. A turn whose first response is complete ends
    with it; after the first response the clock of the turn starts. -/
def resume (t : Turn) (s : State) (v : Verdict) : Progress :=
  let s := s.report v.records
  let d := v.diagnosis
  match s.count, d.isTruncated with
  | 0, false => .ended ⟨.result (.ofComplete s.latest), s⟩
  | 0, true =>
    let s := s.tell .info ("Response truncated (" ++ d.reason.name ++ "): " ++ d.details)
    t.round { s with began := s.now }
  | _ + 1, false => .ended (t.finish s .done)
  | _ + 1, true =>
    let tail := Text.preview (Response.textOf s.latest) Text.previewLimit
    t.round (s.tell .debug
      ("Continuation " ++ toString s.count ++ " still truncated (" ++ d.reason.name ++
        "), tail: " ++ String.ofList tail))

end Rejoin.Turn
