import Rejoin.Log.Record
import Rejoin.Timeline.Work

/-!
Waiting for work that may be cancelled. Without a signal the work is simply waited for. With one,
the work is raced against the signal: work that ends first, or in the very step in which the signal
is raised, keeps its own outcome; otherwise it is cancelled and waited for until it has cleaned up,
and the outcome is that of the cancellation, whatever the work does. The same holds when the caller
itself is cancelled. Work that never ends is waited for in vain, unless it is cancelled.
-/

namespace Rejoin

/-- What came of waiting for work: the outcome and its instant, what was observed, the signal
    afterwards, what was reported, and when the work itself had ended, which it never may have. -/
structure Awaited (α : Type) where
  ending : Ending α
  at_ : Instant
  trace : Trace
  signal : Option Signal
  records : List Log.Record
  drainedAt : Option Instant

namespace Race

variable {α : Type}

/-- What interrupts work first: the signal or the cancellation of the caller. -/
inductive Interrupt where
  | signal (t : Instant)
  | caller (t : Instant)
  deriving DecidableEq, Repr

/-- The earlier of two possible interrupts. -/
def earlier? (signal caller : Option Instant) : Option Interrupt :=
  match signal, caller with
  | some s, some c => some (if s < c then .signal s else .caller c)
  | some s, none => some (.signal s)
  | none, some c => some (.caller c)
  | none, none => none

/-- The signal once the work has started. -/
def afterStart (w : Work α) (s : Signal) : Signal :=
  if w.raises = some .atStart then s.raise else s

/-- When the signal interrupts work that started at `start`, if it does so before the work is
    finished. A signal that the work raises as it starts interrupts it at once. -/
def signalTime? (w : Work α) (s : Signal) (start : Instant) : Option Instant :=
  if w.raises = some .atStart then (if w.isBusyAt start start then some start else none)
  else s.raisedBetween? start (w.finishAt? start)

/-- A failure of work that was being cancelled is reported and otherwise passed over. -/
def drainRecords (ending : Ending α) : List Log.Record :=
  match ending with
  | .failed f => [⟨.debug, .waiting, "Request failed during cancellation: " ++ f.text⟩]
  | _ => []

/-- The outcome of a wait that the signal ended. -/
def cancelledEnding (message : String) : Ending α := .failed (.fault (.cancelled message))

/-- Waiting for work without a signal. -/
def plain (w : Work α) (start : Instant) (caller : Option Instant) : Option (Awaited α) :=
  (w.underCaller start caller).map fun e => ⟨e.ending, e.at_, e.trace, none, [], e.at_⟩

/-- Waiting for work with a signal that is raised already. The work is never started, unless it is
    running: then it is left to itself. -/
def refused (w : Work α) (s : Signal) (start : Instant) (running : Bool) : Awaited α :=
  ⟨cancelledEnding "Continuation cancelled before request", start,
    if running then w.trace start else [], some s, [],
    if running then w.finishAt? start else start⟩

/-- Waiting for work with a signal that is not raised yet. -/
def against (w : Work α) (s : Signal) (start : Instant) (caller : Option Instant) :
    Option (Awaited α) :=
  let signal := afterStart w s
  match earlier? (signalTime? w s start) (caller.filter (w.isBusyAt start)) with
  | none =>
    let signal := if w.raises = some .atEnd then signal.raise else signal
    (w.complete start).map fun e => ⟨e.ending, e.at_, e.trace, some signal, [], e.at_⟩
  | some (.signal t) =>
    let again := caller.filter (t ≤ ·)
    let e := w.cancelledAt start t again
    let interruptedAgain := again.any (· < t + timeOf w.cleanup)
    if interruptedAgain then some ⟨.abandoned, e.at_, e.trace, some signal, [], e.at_⟩
    else
      some ⟨cancelledEnding "Continuation cancelled while awaiting response", e.at_, e.trace,
        some signal, drainRecords e.ending, e.at_⟩
  | some (.caller t) =>
    let e := w.cancelledAt start t none
    some ⟨.abandoned, e.at_, e.trace, some signal, drainRecords e.ending, e.at_⟩

/-- Waiting for work, with a signal or without. `running` tells that the work had been started
    before; `caller` is when the caller itself is cancelled. -/
def await (w : Work α) (start : Instant) (s : Option Signal) (running : Bool)
    (caller : Option Instant) : Option (Awaited α) :=
  match s with
  | none => plain w start caller
  | some s => if s.isRaised start then some (refused w s start running) else against w s start caller

end Race

end Rejoin
