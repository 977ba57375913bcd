import Rejoin.Policy
import Rejoin.Timeline.Race
import Rejoin.Repair.Outcome

/-!
A turn: a response of a model that may have been cut off, and the means to ask for the rest of it.
This module has the data of a turn: what it is given, its state on the way, and how it can end.
-/

namespace Rejoin

/-- What comes of handing a request to the caller's send function: the call itself fails, or there
    is work to wait for. The call may raise the cancel signal. -/
inductive Call where
  | refused (f : Failure)
  | accepted (raisesSignal : Bool) (work : Work (Option Response))

/-- A send function, by its calls: the first, the second, and so on. -/
abbrev Sender := Nat → Call

/-- The send function with the given calls in turn, the last one again and again. Without calls it
    refuses each request. -/
def Sender.scripted (calls : List Call) (refusal : Failure) : Sender :=
  fun n => (calls[n]?.or calls.getLast?).getD (.refused refusal)

/-- What a turn is given: its policy, the messages that the response answers, the response, a way to
    send requests, and a signal that cancels it, due so long after the turn began. -/
structure Turn where
  policy : Policy
  messages : List Message
  initial : Response
  sender : Sender
  signal : Option Signal

/-- A request, with the instant at which it was sent. -/
structure Request where
  at_ : Instant
  messages : List Message
  deriving DecidableEq, Repr

namespace Turn

/-- Where a turn stands. -/
inductive Phase where
  | continuing
  | done
  | stalled
  | maxReached
  | cancelled
  deriving DecidableEq, Repr

/-- The name of a phase. -/
def Phase.name : Phase → String
  | continuing => "continuing"
  | done => "done"
  | stalled => "stalled"
  | maxReached => "max_reached"
  | cancelled => "cancelled"

/-- The state of a turn: the time, when it began, its signal, all responses received so far with the
    initial one first, whether its duration was remarked on, and what was sent, observed and
    reported. -/
structure State where
  now : Instant
  began : Instant
  signal : Option Signal
  responses : List (Option Response)
  warned : Bool
  requests : List Request
  trace : Trace
  records : List (Instant × Log.Record)

namespace State

/-- The state in which a turn begins. -/
def start (t : Turn) (now : Instant) : State :=
  ⟨now, now, t.signal.map (·.shiftedBy now), [some t.initial], false, [], [], []⟩

/-- The number of continuations that were received. -/
def count (s : State) : Nat := s.responses.length - 1

/-- The response received last. -/
def latest (s : State) : Option Response := s.responses.getLast?.join

/-- The texts of the responses, those without text left out. -/
def fragments (s : State) : List (List Char) :=
  (s.responses.map Response.textOf).filter (!·.isEmpty)

/-- The state with more reports. -/
def report (s : State) (records : List Log.Record) : State :=
  { s with records := s.records ++ records.map (s.now, ·) }

/-- The state with one more report of the turn itself. -/
def tell (s : State) (level : Log.Level) (message : String) : State :=
  s.report [⟨level, .turn, message⟩]

end State

/-- The result of a turn: the response to go on with, its text, whether the cap was reached, all
    responses received, the phase in which the turn ended, the repair that was adopted, and whether
    the final response is a new one. -/
structure Result where
  final : Option Response
  text : List Char
  count : Nat
  reachedMax : Bool
  responses : List (Option Response)
  phase : Phase
  repair : Option Repair
  rebuilt : Bool

namespace Result

/-- The result for a response that needs no continuation. -/
def ofComplete (r : Option Response) : Result where
  final := r
  text := Response.textOf r
  count := 0
  reachedMax := false
  responses := [r]
  phase := .done
  repair := none
  rebuilt := false

/-- Whether anything was asked for. -/
def wasContinued (r : Result) : Bool := 0 < r.count

/-- Whether text was dropped to make the result sound. -/
def isLossy (r : Result) : Bool := r.repair.any (·.isLossy)

end Result

/-- How a turn ends: with a result, with a failure, or abandoned; or it does not end, since it waits
    for ever, before a request or for the answer to one. -/
inductive Outcome where
  | result (r : Result)
  | failed (f : Failure)
  | abandoned
  | waitsForEver

/-- A turn that has ended, or goes on no more: how, and in which state. -/
structure Report where
  outcome : Outcome
  state : State

/-- A turn on its way: it waits for the judgement of its latest response, or it has ended. -/
inductive Progress where
  | pending (s : State)
  | ended (r : Report)

end Turn

end Rejoin
