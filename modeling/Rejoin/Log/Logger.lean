import Rejoin.Log.Record
import Rejoin.Text.Template

/-!
The logger of the library: a level below which nothing is reported, and the handlers that receive
what is. Nothing is attached to it from the start, so that a program that uses the library decides
where its records go.
-/

namespace Rejoin.Log

/-- A receiver of records, with the layout it writes them in once one is chosen. -/
structure Handler where
  name : String
  layout : Option String
  deriving DecidableEq, Repr

/-- The layout of a handler that has none of its own. -/
def defaultLayout : String := "%(asctime)s %(levelname)-7s %(name)s: %(message)s"

/-- The logger of the library. -/
structure Logger where
  level : Level
  handlers : List Handler
  deriving DecidableEq, Repr

/-- What one handler receives. -/
structure Emission where
  handler : String
  level : Level
  logger : String
  message : String
  deriving DecidableEq, Repr

namespace Logger

/-- The logger before anything is configured. -/
def start : Logger := ⟨.notSet, []⟩

/-- The logger with a handler attached, unless it is attached already. A handler without a layout
    is given the default one. -/
def attach (l : Logger) (h : Handler) : Logger :=
  if l.handlers.any (·.name = h.name) then l
  else
    let h := { h with layout := some (h.layout.getD defaultLayout) }
    { l with handlers := l.handlers ++ [h] }

/-- The logger with the level of the given name and, if one is given, one more handler. -/
def configure (l : Logger) (levelName : String) (h : Option Handler) : Logger :=
  let l := { l with level := .ofName levelName }
  h.elim l l.attach

/-- The level that decides what is reported. While none is chosen it is that of warnings, which
    holds for all loggers of a program. -/
def effective (l : Logger) : Level := if l.level = .notSet then .warning else l.level

/-- Whether records of a level are reported; a rank of zero or less never is. -/
def reports (l : Logger) (level : Level) : Bool :=
  0 < level.rank && l.effective.rank ≤ level.rank

/-- Whether a logger name belongs to the library: its own, or one below it. -/
def owns (name : String) : Bool := name = rootName || name.startsWith (rootName ++ ".")

/-- What the handlers receive of a message that is logged under a name. -/
def emit (l : Logger) (level : Level) (name template : String) (args : List Value) :
    List Emission :=
  if l.reports level && owns name then
    match Text.message? template args with
    | some message => l.handlers.map fun h => ⟨h.name, level, name, message⟩
    | none => []
  else []

end Logger

end Rejoin.Log
