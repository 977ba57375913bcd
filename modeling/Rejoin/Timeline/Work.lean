import Rejoin.Timeline.Signal

/-!
Pieces of work on the clock. Work starts, takes its time and ends, if it ever does: with a value, with
a failure, or abandoned. When it is cancelled while it takes its time it may first clean up, and then
ends as it chooses; being cancelled again while it cleans up, it is abandoned on the spot.
-/

namespace Rejoin

/-- How work ends. -/
inductive Ending (α : Type) where
  | value (a : α)
  | failed (f : Failure)
  | abandoned
  deriving Repr

/-- When work raises the cancel signal by itself. -/
inductive Moment where
  | atStart
  | atEnd
  deriving DecidableEq, Repr

/-- How long work takes: it ends in the step in which it starts; or after some seconds, where none at
    all mean the next step, at the same time; or never. -/
inductive Duration where
  | atOnce
  | seconds (length : Rat)
  | endless
  deriving DecidableEq, Repr

/-- A piece of work: when it raises the signal, how long it takes, how it ends, and, if it is
    cancelled, how long it cleans up and how it ends then. -/
structure Work (α : Type) where
  raises : Option Moment
  duration : Duration
  ending : Ending α
  cleanup : Option Rat
  afterCancel : Ending α
  deriving Repr

/-- The stages of work that can be observed. -/
inductive Stage where
  | started
  | finished
  | cancelled
  | cleaned
  deriving DecidableEq, Repr

/-- The name of a stage. -/
def Stage.name : Stage → String
  | started => "start"
  | finished => "finish"
  | cancelled => "cancelled"
  | cleaned => "cleaned"

/-- The observed stages, each with its instant. -/
abbrev Trace := List (Stage × Instant)

/-- The time that a delay takes: none if it is missing or negative. -/
def timeOf (delay : Option Rat) : Rat :=
  match delay with
  | some d => if 0 < d then d else 0
  | none => 0

/-- Work that has ended: how, when, and what was observed. -/
structure Ended (α : Type) where
  ending : Ending α
  at_ : Instant
  trace : Trace

namespace Work

variable {α : Type}

/-- The instant at which work ends that nobody cancels. -/
def finishAt? (w : Work α) (start : Instant) : Option Instant :=
  match w.duration with
  | .atOnce => some start
  | .seconds length => some (start + timeOf length)
  | .endless => none

/-- Whether work that nobody cancels is under way at an instant. -/
def isBusyAt (w : Work α) (start t : Instant) : Bool :=
  start ≤ t && (w.finishAt? start).all (t < ·)

/-- What is observed of work that nobody cancels. -/
def trace (w : Work α) (start : Instant) : Trace :=
  (.started, start) :: (w.finishAt? start).toList.map (.finished, ·)

/-- Work that nobody cancels. -/
def complete (w : Work α) (start : Instant) : Option (Ended α) :=
  (w.finishAt? start).map (⟨w.ending, ·, w.trace start⟩)

/-- Work that is cancelled at an instant at which it takes its time, and perhaps a second time. -/
def cancelledAt (w : Work α) (start cancel : Instant) (again : Option Instant) : Ended α :=
  let begun := [(.started, start), (.cancelled, cancel)]
  let cleaned := cancel + timeOf w.cleanup
  match again.filter (· < cleaned) with
  | some t => ⟨.abandoned, t, begun⟩
  | none =>
    ⟨w.afterCancel, cleaned, begun ++ if w.cleanup.isSome then [(.cleaned, cleaned)] else []⟩

/-- Work whose caller may be cancelled at an instant, and the cancellation reaches the work if it is
    not finished by then. -/
def underCaller (w : Work α) (start : Instant) (cancel : Option Instant) : Option (Ended α) :=
  match cancel.filter (w.isBusyAt start) with
  | some t => some (w.cancelledAt start t none)
  | none => w.complete start

end Work

end Rejoin
