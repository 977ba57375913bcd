import Rejoin.Fault

/-!
The policy of a turn: how far it may go, how long it waits, what it sends and how it repairs. The
four numbers of a policy must not be negative; a policy that breaks this is refused when it is built
or changed, so that a turn never sees one. Numbers keep the kind they were given in.
-/

namespace Rejoin

/-- How a turn is continued.
    `maxDuration` is advice: a turn that takes longer says so and goes on. -/
structure Policy where
  maxContinuations : Number
  maxDuration : Number
  delay : Number
  repairsJson : Bool
  repairsFences : Bool
  prompt : List Char
  includesPrevious : Bool
  minProgress : Number
  failsAtCap : Bool
  deriving DecidableEq, Repr

namespace Policy

/-- The message that asks a model to go on. -/
def defaultPrompt : String := "Please continue from where you left off."

/-- The policy of a turn that was given none. -/
def default : Policy where
  maxContinuations := .int 5
  maxDuration := .real (.ofInt 300)
  delay := .real (.zero false)
  repairsJson := true
  repairsFences := true
  prompt := defaultPrompt.toList
  includesPrevious := true
  minProgress := .int 10
  failsAtCap := false

/-- The settings of a policy. -/
inductive Setting where
  | maxContinuations
  | maxDuration
  | delay
  | repairsJson
  | repairsFences
  | prompt
  | includesPrevious
  | minProgress
  | failsAtCap
  deriving DecidableEq, Repr

namespace Setting

/-- All settings, in the order in which they are listed. -/
def all : List Setting :=
  [maxContinuations, maxDuration, delay, repairsJson, repairsFences, prompt, includesPrevious,
    minProgress, failsAtCap]

/-- The name of a setting. -/
def name : Setting → String
  | maxContinuations => "max_continuations"
  | maxDuration => "max_total_duration"
  | delay => "delay_between_continuations"
  | repairsJson => "enable_json_recovery"
  | repairsFences => "enable_code_block_recovery"
  | prompt => "continuation_prompt"
  | includesPrevious => "include_previous_response"
  | minProgress => "min_progress_per_continuation"
  | failsAtCap => "throw_on_max_continuations"

/-- The setting with a given name. -/
def ofName? (given : String) : Option Setting := all.find? (·.name = given)

end Setting

/-- The settings that must not be negative, in the order in which they are checked. -/
def bounded (p : Policy) : List (Setting × Number) :=
  [(.maxContinuations, p.maxContinuations), (.maxDuration, p.maxDuration), (.delay, p.delay),
    (.minProgress, p.minProgress)]

/-- The fault of a policy: the first of its numbers that is negative. -/
def fault? (p : Policy) : Option Fault :=
  (p.bounded.find? (·.2.isNegative)).map fun (s, n) => .negative s.name n

/-- The policy, if none of its numbers is negative. -/
def validated (p : Policy) : Except Fault Policy :=
  match p.fault? with
  | some f => .error f
  | none => .ok p

/-- The policy with one setting changed, unless the value is not of the kind the setting holds. -/
def set? (p : Policy) : Setting → Value → Option Policy
  | .maxContinuations, .number n => some { p with maxContinuations := n }
  | .maxDuration, .number n => some { p with maxDuration := n }
  | .delay, .number n => some { p with delay := n }
  | .repairsJson, .bool b => some { p with repairsJson := b }
  | .repairsFences, .bool b => some { p with repairsFences := b }
  | .prompt, .text s => some { p with prompt := s.toList }
  | .includesPrevious, .bool b => some { p with includesPrevious := b }
  | .minProgress, .number n => some { p with minProgress := n }
  | .failsAtCap, .bool b => some { p with failsAtCap := b }
  | _, _ => none

/-- The value of a setting. -/
def get (p : Policy) : Setting → Value
  | .maxContinuations => .number p.maxContinuations
  | .maxDuration => .number p.maxDuration
  | .delay => .number p.delay
  | .repairsJson => .bool p.repairsJson
  | .repairsFences => .bool p.repairsFences
  | .prompt => .text (String.ofList p.prompt)
  | .includesPrevious => .bool p.includesPrevious
  | .minProgress => .number p.minProgress
  | .failsAtCap => .bool p.failsAtCap

/-- The policy with one named setting changed; a name that is not one of a setting changes nothing. None
    if the value is not of the kind the setting holds: nothing checks that, and what is kept then is no
    policy of this kind any more. -/
def change (p : Policy) (entry : String × Value) : Option Policy :=
  match Setting.ofName? entry.1 with
  | some s => p.set? s entry.2
  | none => some p

/-- The names that are not those of settings, in alphabetical order. -/
def unknownNames (changes : List (String × Value)) : List String :=
  ((changes.map (·.1)).filter fun n => (Setting.ofName? n).isNone).mergeSort fun a b => !(b < a)

/-- The fault of changes to settings that do not exist. -/
def unknown (first : String) (names : List String) : Fault where
  kind := .configuration (some first) .null
  message := "Unknown continuation setting(s): " ++ String.intercalate ", " names
  givenHint := some "Check the field names of ContinuationConfig."

/-- The policy with changes applied. It is refused if a change names no setting, and otherwise if
    one of its numbers is negative. None if a value is not of the kind its setting holds. -/
def override (p : Policy) (changes : List (String × Value)) : Option (Except Fault Policy) :=
  match unknownNames changes with
  | first :: rest => some (.error (unknown first (first :: rest)))
  | [] => (changes.foldlM change p).map validated

/-- The policy with the given settings and the default for all others. A setting that does not exist
    cannot be given. None if a value is not of the kind its setting holds. -/
def ofSettings (settings : List (String × Value)) : Option (Except CallFailure Policy) :=
  match settings.find? fun e => (Setting.ofName? e.1).isNone with
  | some e => some (.error (.misuse (.unknownSetting "ContinuationConfig" e.1)))
  | none => (default.override settings).map (·.mapError .fault)

/-- Whether two policies have settings of the same value, integers and other numbers compared by
    value. -/
def same (p q : Policy) : Bool :=
  (p.bounded.zip q.bounded).all (fun (a, b) => a.2.sameValue b.2) &&
    p.repairsJson = q.repairsJson && p.repairsFences = q.repairsFences && p.prompt = q.prompt &&
    p.includesPrevious = q.includesPrevious && p.failsAtCap = q.failsAtCap

end Policy

end Rejoin
