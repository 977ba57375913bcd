import Rejoin.Turn.Step

/-!
Running turns from their first response to their end: one alone, several one after the other, or
several at once. Turns share nothing but the clock and the detector; of several turns at once the
one that waits for a judgement since the earliest instant goes on first.
-/

namespace Rejoin

variable [Json.Limits]

namespace Turn

/-- A turn carried on until it ends. The detector has made `judged` judgements before. A turn never
    needs more judgements than its cap and one; should they be used up, it ends as it stands. -/
def drive (t : Turn) (d : Detector) (judged : Nat) : Nat → Progress → Report
  | _, .ended r => r
  | 0, .pending s => t.finish s .continuing
  | left + 1, .pending s =>
    drive t d (judged + 1) left (t.resume s (d.judge judged s.latest))

/-- A turn run from an instant on, with a detector that has made some judgements before. -/
def runFrom (t : Turn) (d : Detector) (judged : Nat) (now : Instant) : Report :=
  t.drive d judged (t.cap + 1) (.pending (.start t now))

/-- A turn run alone. -/
def run (t : Turn) (d : Detector) : Report := t.runFrom d 0 0

end Turn

namespace Session

open Turn

/-- Turns run one after the other: each starts when the one before has ended. -/
def inTurn (d : Detector) : Nat → Instant → List Turn → List Report
  | _, _, [] => []
  | judged, now, t :: rest =>
    let r := t.runFrom d judged now
    r :: inTurn d (judged + r.state.responses.length) r.state.now rest

/-- The instant since which a turn waits for a judgement; none if it has ended. -/
def waitsSince? : Turn × Progress → Option Instant
  | (_, .pending s) => some s.now
  | (_, .ended _) => none

/-- The position of the turn that waits since the earliest instant, the first of several. -/
def next? (turns : List (Turn × Progress)) : Option Nat :=
  turns.zipIdx.foldl
    (fun best (p, i) =>
      match waitsSince? p, best with
      | none, _ => best
      | some now, none => some (now, i)
      | some now, some (earliest, _) => if now < earliest then some (now, i) else best)
    (none : Option (Instant × Nat)) |>.map (·.2)

/-- One judgement: the turn at a position goes on. -/
def advance (d : Detector) (judged i : Nat) (turns : List (Turn × Progress)) :
    List (Turn × Progress) :=
  turns.modify i fun (t, p) =>
    match p with
    | .pending s => (t, t.resume s (d.judge judged s.latest))
    | .ended r => (t, .ended r)

/-- All turns carried on until none waits for a judgement. -/
def driveAll (d : Detector) (judged : Nat) :
    Nat → List (Turn × Progress) → List (Turn × Progress)
  | 0, turns => turns
  | left + 1, turns =>
    match next? turns with
    | none => turns
    | some i => driveAll d (judged + 1) left (advance d judged i turns)

/-- How a turn has ended; one that waits ends as it stands. -/
def report : Turn × Progress → Report
  | (_, .ended r) => r
  | (t, .pending s) => t.finish s .continuing

/-- Turns run at once, all from the start of the clock. -/
def together (d : Detector) (turns : List Turn) : List Report :=
  let judgements := turns.foldl (fun n t => n + t.cap + 1) 0
  (driveAll d 0 judgements (turns.map fun t => (t, .pending (.start t 0)))).map report

/-- The reports of several turns, in the order in which they were made. Those of one instant stay in
    the order of the turns. -/
def records (reports : List Report) : List Log.Record :=
  ((reports.flatMap (·.state.records)).mergeSort fun a b => a.1 ≤ b.1).map (·.2)

end Session

end Rejoin
