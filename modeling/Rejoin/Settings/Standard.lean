import Rejoin.DotEnv
import Rejoin.Number.Reading
import Rejoin.Settings.Environment
import Rejoin.Settings.File
import Rejoin.Yaml.Document

/-!
The means by which settings are loaded when a program runs: the reader of documents of `Rejoin.Yaml`, a
converter that takes for each type what says the same in another, and a builder that looks for the value
of a field among the named ones first and in the environment then.

They stand for libraries that have their own documentation, and follow it as far as settings files need:
names that a builder keeps for itself, which start with a low line, mean nothing here. What is true of
loading by any means does not depend on them.
-/

namespace Rejoin.Settings

open Text Yaml

namespace Standard

/-- The length that the text of an integer may have. -/
def lengthLimit : Nat := 4300

/-- The size that a number with a fraction part must stay below to stand for an integer. -/
def wholeLimit : Int := Nat.pow 2 63

/-- The integer that a number with a fraction part of zero stands for. -/
def wholeNumber (x : Binary64) : Except String Int :=
  match x.toRat? with
  | none => .error "finite_number"
  | some q =>
    if q.den ≠ 1 then .error "int_from_float"
    else if q.num.natAbs < wholeLimit then .ok q.num
    else .error "int_parsing_size"

/-- A node as an integer. A truth value is one or zero. -/
def integer : Node → Except String Int
  | .scalar (.truth b) => .ok (if b then 1 else 0)
  | .scalar (.number (.int n)) => .ok n
  | .scalar (.number (.real x)) => wholeNumber x
  | .scalar (.text t) =>
    if lengthLimit < (trim t).length then .error "int_parsing_size"
    else ((Numeral.whole? t).map .ok).getD (.error "int_parsing")
  | .scalar .null | .scalar .date | .list _ | .mapping _ => .error "int_type"

/-- A node as a number. -/
def real : Node → Except String Binary64
  | .scalar (.truth b) => .ok (.ofInt (if b then 1 else 0))
  | .scalar (.number (.int n)) => .ok (.ofInt n)
  | .scalar (.number (.real x)) => .ok x
  | .scalar (.text t) => ((Numeral.spacedReal? t).map .ok).getD (.error "float_parsing")
  | .scalar .null | .scalar .date | .list _ | .mapping _ => .error "float_type"

/-- The words that mean true. -/
def agreements : List String := ["1", "true", "t", "yes", "y", "on"]

/-- The words that mean false. -/
def denials : List String := ["0", "false", "f", "no", "n", "off"]

/-- The truth value of a whole number: only one and zero have one. -/
def wholeTruth (n : Int) : Except String Bool :=
  if n = 0 then .ok false else if n = 1 then .ok true else .error "bool_parsing"

/-- A node as a truth value. -/
def truth : Node → Except String Bool
  | .scalar (.truth b) => .ok b
  | .scalar (.number (.int n)) => wholeTruth n
  | .scalar (.number (.real x)) =>
    match wholeNumber x with
    | .ok n => wholeTruth n
    | .error _ => .error "bool_type"
  | .scalar (.text t) =>
    let word := String.ofList (lower t)
    if agreements.contains word then .ok true
    else if denials.contains word then .ok false
    else .error "bool_parsing"
  | .scalar .null | .scalar .date | .list _ | .mapping _ => .error "bool_type"

/-- A node as a text. -/
def text : Node → Except String (List Char)
  | .scalar (.text t) => .ok t
  | .scalar .null | .scalar (.truth _) | .scalar (.number _) | .scalar .date | .list _
  | .mapping _ => .error "string_type"

/-- The converter. -/
def converter : Converter := ⟨integer, real, truth, text⟩

/-- The document that a text is read as. -/
def read (t : List Char) : Except Unread Node :=
  match Yaml.read? t with
  | some n => .ok n
  | none => .error .malformed

/-- The settings from values that are given by name, and for all else from the environment. -/
def ofNamed (values : List (String × Node)) (e : Environment) : Except (List Refused) Settings :=
  ofValues converter ((namedValues values).backedBy e.values)

/-- The places of refused values: each is that of a field. -/
def places (refused : List Refused) : List (List String) := refused.map fun r => [r.field.name]

/-- The values that settings were given, each under the name of its field. -/
def dump (s : Settings) : List (String × Node) := s.given.map fun f => (f.name, .ofValue (s.get f))

/-- The means. -/
def means : Means Environment where
  read := read
  build values e := (ofNamed values e).mapError fun refused => .refused (places refused)
  dump := dump

end Standard

/-- Loads settings by the standard means. -/
def load (file : Option File) (e : Environment) : Except CallFailure Loaded :=
  Standard.means.load file e

end Rejoin.Settings
