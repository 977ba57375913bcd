import Rejoin.Log.Level

/-!
Log records: what the parts of the library report while they work. Records are data that a
computation returns beside its result, in the order in which they arose.
-/

namespace Rejoin.Log

/-- The parts of the library that report. -/
inductive Source where
  | turn
  | diagnosis
  | repair
  | waiting
  | settings
  deriving DecidableEq, Repr

/-- The name of the logger that all sources belong to. -/
def rootName : String := "llmstitch"

/-- The name of the logger that a source reports to. -/
def Source.name : Source → String
  | turn => rootName ++ ".continuation.engine"
  | diagnosis => rootName ++ ".continuation.truncation"
  | repair => rootName ++ ".continuation.recovery"
  | waiting => rootName ++ ".core.async_utils"
  | settings => rootName ++ ".config.settings"

/-- A report of one source. -/
structure Record where
  level : Level
  source : Source
  message : String
  deriving DecidableEq, Repr

/-- The records that are at least as important as a level. -/
def atLeast (l : Level) (records : List Record) : List Record :=
  records.filter fun r => l.rank ≤ r.level.rank

end Rejoin.Log
