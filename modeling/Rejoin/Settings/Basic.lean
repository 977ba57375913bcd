import Rejoin.Settings.Converter
import Rejoin.Settings.Field

/-!
The settings of the library: a log level, a policy and the options of a detector. They are read from
values for some of the fields; a field without a value keeps its default. If any value is refused there
are no settings, and every refusal is told, in the order of the fields.
-/

namespace Rejoin

/-- The settings, and the fields that were given a value. -/
structure Settings where
  level : Log.Level
  policy : Policy
  options : DetectorOptions
  given : List Settings.Field
  deriving DecidableEq, Repr

namespace Settings

/-- The settings in which no field was given. -/
def default : Settings := ⟨.info, .default, .default, []⟩

/-- The value of a field. -/
def get (s : Settings) : Field → Value
  | .level => .text s.level.name
  | .policy p => s.policy.get p
  | .options o => s.options.get o

/-- The policy with one setting read from a value. -/
def readPolicy (conv : Converter) (p : Policy) (n : Yaml.Node) :
    Policy.Setting → Except Refusal Policy
  | .maxContinuations => return { p with maxContinuations := .int (← conv.count n) }
  | .maxDuration => return { p with maxDuration := .real (← conv.duration n) }
  | .delay => return { p with delay := .real (← conv.duration n) }
  | .repairsJson => return { p with repairsJson := ← conv.truthValue n }
  | .repairsFences => return { p with repairsFences := ← conv.truthValue n }
  | .prompt => return { p with prompt := ← conv.prompt n }
  | .includesPrevious => return { p with includesPrevious := ← conv.truthValue n }
  | .minProgress => return { p with minProgress := .int (← conv.count n) }
  | .failsAtCap => return { p with failsAtCap := ← conv.truthValue n }

/-- The options with one part read from a value. -/
def readOptions (conv : Converter) (o : DetectorOptions) (n : Yaml.Node) :
    DetectorOptions.Setting → Except Refusal DetectorOptions
  | .structural => return { o with structural := ← conv.truthValue n }
  | .heuristic => return { o with heuristic := ← conv.truthValue n }
  | .minLength => return { o with minLength := ← conv.count n }
  | .terminators => return { o with terminators := ← conv.someText n }
  | .markers => return { o with markers := ← conv.textValue n }

/-- The settings with one field read from a value. -/
def read (conv : Converter) (s : Settings) (f : Field) (n : Yaml.Node) : Except Refusal Settings :=
  match f with
  | .level => return { s with level := ← conv.level n }
  | .policy p => return { s with policy := ← readPolicy conv s.policy n p }
  | .options p => return { s with options := ← readOptions conv s.options n p }

/-- A field whose value is refused, and why. -/
structure Refused where
  field : Field
  reason : Refusal
  deriving DecidableEq, Repr

/-- Values for some of the fields. -/
abbrev Values := Field → Option Yaml.Node

/-- The values of one source, and for the fields that it leaves out those of another. -/
def Values.backedBy (strong weak : Values) : Values := fun f => (strong f).or (weak f)

/-- The refusal of the value of a field, if it has one that cannot be read. -/
def refusal? (conv : Converter) (v : Values) (f : Field) : Option Refused :=
  match (v f).map (read conv default f) with
  | some (.error reason) => some ⟨f, reason⟩
  | _ => none

/-- The refusals of values, in the order of the fields. -/
def refusals (conv : Converter) (v : Values) : List Refused := Field.all.filterMap (refusal? conv v)

/-- The settings with one field taken from values, if it is given there. -/
def take (conv : Converter) (v : Values) (s : Settings) (f : Field) : Settings :=
  match v f with
  | none => s
  | some n =>
    match read conv s f n with
    | .ok read => { read with given := read.given ++ [f] }
    | .error _ => s

/-- The settings that values stand for, or all refusals. -/
def ofValues (conv : Converter) (v : Values) : Except (List Refused) Settings :=
  match refusals conv v with
  | [] => .ok (Field.all.foldl (take conv v) default)
  | refused => .error refused

/-- The policy that the settings describe, built anew. -/
def toPolicy (s : Settings) : Except Fault Policy := s.policy.validated

/-- The options of a detector that the settings describe, built anew. -/
def toOptions (s : Settings) : Except Fault DetectorOptions :=
  let o := s.options
  DetectorOptions.build o.structural o.heuristic o.minLength o.terminators o.markers

/-- The names of the fields that were given a value, in alphabetical order. -/
def givenNames (s : Settings) : List String :=
  (s.given.map (·.name)).mergeSort fun a b => !(b < a)

end Settings

end Rejoin
