import Rejoin.CleanBreak
import Rejoin.Fault

/-!
What a detector looks at. The two signs in the text itself can be switched off, and the second is
not looked for in short texts.
-/

namespace Rejoin

/-- The options of a detector: whether it examines the structure of a text and the way it ends, the
    length below which the ending is taken as intended, the characters that end a sentence, and
    those that introduce a list or a heading. -/
structure DetectorOptions where
  structural : Bool
  heuristic : Bool
  minLength : Nat
  terminators : List Char
  markers : List Char
  deriving DecidableEq, Repr

namespace DetectorOptions

/-- The parts of the options. -/
inductive Setting where
  | structural
  | heuristic
  | minLength
  | terminators
  | markers
  deriving DecidableEq, Repr

namespace Setting

/-- All parts, in the order in which they are listed. -/
def all : List Setting := [structural, heuristic, minLength, terminators, markers]

/-- The name of a part. -/
def name : Setting → String
  | structural => "enable_structural_analysis"
  | heuristic => "enable_heuristic_analysis"
  | minLength => "min_text_length_for_heuristics"
  | terminators => "sentence_terminators"
  | markers => "list_markers"

/-- The part with a given name. -/
def ofName? (given : String) : Option Setting := all.find? (·.name = given)

end Setting

/-- The options of a detector that was given none. -/
def default : DetectorOptions where
  structural := true
  heuristic := true
  minLength := 100
  terminators := sentenceTerminators
  markers := [':', '-', '*', '#']

/-- The fault of a negative length. -/
def negativeLength (length : Int) : Fault where
  kind := .configuration (some Setting.minLength.name) (.int length)
  message := "min_text_length_for_heuristics must be non-negative"

/-- The fault of having nothing that ends a sentence. -/
def noTerminators : Fault where
  kind := .configuration (some Setting.terminators.name) .null
  message := "sentence_terminators must not be empty"
  givenHint := some "Provide at least one terminator character, e.g. '.!?'."

/-- The options with the given parts, if the length is not negative and some character ends a
    sentence. -/
def build (structural heuristic : Bool) (minLength : Int) (terminators markers : List Char) :
    Except Fault DetectorOptions :=
  if minLength < 0 then .error (negativeLength minLength)
  else if terminators.isEmpty then .error noTerminators
  else .ok ⟨structural, heuristic, minLength.toNat, terminators, markers⟩

/-- The value of a part. -/
def get (o : DetectorOptions) : Setting → Value
  | .structural => .bool o.structural
  | .heuristic => .bool o.heuristic
  | .minLength => .int o.minLength
  | .terminators => .text (String.ofList o.terminators)
  | .markers => .text (String.ofList o.markers)

/-- The options with the given parts and the default for all others. A part that does not exist
    cannot be given. -/
def ofSettings (settings : List (String × Value)) : Except CallFailure DetectorOptions :=
  match settings.find? fun e => (Setting.ofName? e.1).isNone with
  | some e => .error (.misuse (.unknownSetting "TruncationDetectorOptions" e.1))
  | none =>
    let truth (s : Setting) (otherwise : Bool) : Bool :=
      match settings.lookup s.name with
      | some (.bool b) => b
      | _ => otherwise
    let text (s : Setting) (otherwise : List Char) : List Char :=
      match settings.lookup s.name with
      | some (.text t) => t.toList
      | _ => otherwise
    let length : Int :=
      match settings.lookup Setting.minLength.name with
      | some (.number (.int n)) => n
      | _ => default.minLength
    (build (truth .structural default.structural) (truth .heuristic default.heuristic) length
      (text .terminators default.terminators) (text .markers default.markers)).mapError .fault

end DetectorOptions

end Rejoin
