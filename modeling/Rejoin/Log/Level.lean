import Rejoin.Text.LetterCase

/-!
Levels of log records. A level is a rank; the customary ranks have names, and one below all of them
is for the finest traces.
-/

namespace Rejoin.Log

/-- The rank of a record: the higher, the more important. -/
structure Level where
  rank : Int
  deriving DecidableEq, Repr

namespace Level

/-- Positions tried while cutting a text back. -/
def trace : Level := ⟨5⟩

/-- Diagnoses and requests. -/
def debug : Level := ⟨10⟩

/-- Truncation found, repairs made, turns finished. -/
def info : Level := ⟨20⟩

/-- Stalls, caps reached, text dropped. -/
def warning : Level := ⟨30⟩

/-- Faults. -/
def error : Level := ⟨40⟩

/-- Failures that end the program. -/
def critical : Level := ⟨50⟩

/-- No level chosen. -/
def notSet : Level := ⟨0⟩

/-- The levels with a name of their own. -/
def named : List (String × Level) :=
  [("TRACE", trace), ("NOTSET", notSet), ("DEBUG", debug), ("INFO", info), ("WARNING", warning),
    ("ERROR", error), ("CRITICAL", critical)]

/-- Other names for levels. -/
def aliases : List (String × Level) := [("WARN", warning), ("FATAL", critical)]

/-- The level with a given name, in any case; a name that is not known means `info`. -/
def ofName (name : String) : Level :=
  ((named ++ aliases).lookup (String.ofList (Text.upper name.toList))).getD info

/-- The name of a level; a level without one is named by its rank. -/
def name (l : Level) : String :=
  match named.find? (·.2 = l) with
  | some (n, _) => n
  | none => "Level " ++ toString l.rank

end Level

end Rejoin.Log
