import Rejoin.Fault

/-!
Time and the signal that cancels. Instants are rationals on a clock that starts at zero; work takes
the time it is said to take, and everything else takes none. A signal is raised once and stays
raised. When it will be raised from outside is known from the start; work may raise it earlier.
-/

namespace Rejoin

/-- A point on the clock. -/
abbrev Instant := Rat

/-- A signal: whether it was raised already, and when it will be raised from outside, if ever. -/
structure Signal where
  raised : Bool
  due : Option Instant
  deriving DecidableEq, Repr

namespace Signal

/-- The signal after it was raised. -/
def raise (s : Signal) : Signal := { s with raised := true }

/-- Whether the signal is raised at an instant. What falls due at an instant happens after the
    actions that were under way there. -/
def isRaised (s : Signal) (now : Instant) : Bool := s.raised || s.due.any (· < now)

/-- Whether the signal was raised by the end of an instant, once everything that falls due there has
    happened. -/
def wasRaised (s : Signal) (now : Instant) : Bool := s.raised || s.due.any (· ≤ now)

/-- The signal on a clock that had shown `start` when this one showed zero. -/
def shiftedBy (s : Signal) (start : Instant) : Signal := { s with due := s.due.map (start + ·) }

/-- When a signal that is not raised at `start` will be raised before `stop`, which may never come. -/
def raisedBetween? (s : Signal) (start : Instant) (stop : Option Instant) : Option Instant :=
  s.due.filter fun t => start ≤ t && stop.all (t < ·)

/-- The fault that a raised signal means, and none otherwise. -/
def check (s : Option Signal) (now : Instant) (message : String) : Option Fault :=
  if s.any (·.isRaised now) then some (.cancelled message) else none

end Signal

/-- When a time is over that begins at `start`: never, if it is infinite. A time that is not positive is
    over at once. -/
def Number.after? (length : Number) (start : Instant) : Option Instant :=
  if length.isPositive then length.rat?.map (start + ·) else some start

/-- What came of a wait. -/
structure Waited where
  fault : Option Fault
  until_ : Instant

/-- Waiting for an instant that may never come. Without a signal, or with one that is not raised
    meanwhile, the wait ends with the instant; a signal ends it at once. What nothing ends has no end. -/
def wait (stop : Option Instant) (s : Option Signal) (now : Instant) : Option Waited :=
  match s with
  | none => stop.map (⟨none, ·⟩)
  | some s =>
    if s.isRaised now then some ⟨some (.cancelled "Continuation cancelled before delay"), now⟩
    else match s.raisedBetween? now stop with
      | some t => some ⟨some (.cancelled "Continuation cancelled during delay"), t⟩
      | none => stop.map (⟨none, ·⟩)

end Rejoin
