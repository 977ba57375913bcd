import Rejoin.Log.Level
import Rejoin.Number.Basic
import Rejoin.Text.Blank
import Rejoin.Text.LetterCase
import Rejoin.Text.Quoted
import Rejoin.Yaml.Node

/-!
How the fields of settings are read from what is given for them. A given value is first converted to the
type of its field. Which values can be converted is not settled here: it is the business of a converter.
What was converted is then held against the constraints of the field. A value that passes neither is
refused, and the refusal tells why.
-/

namespace Rejoin.Settings

open Text

/-- Why a value is refused: it cannot be converted, for a reason that the converter has a code for, or
    it violates a constraint of its field. -/
inductive Refusal where
  | unconverted (code : String)
  | negative
  | tooShort
  | unknownLevel (given : List Char)
  | blankPrompt
  deriving DecidableEq, Repr

/-- The levels that can be chosen, in alphabetical order. -/
def levels : List Log.Level := [.critical, .debug, .error, .info, .trace, .warning]

namespace Refusal

/-- The code of a refusal. -/
def code : Refusal → String
  | unconverted code => code
  | negative => "greater_than_equal"
  | tooShort => "string_too_short"
  | unknownLevel _ | blankPrompt => "value_error"

/-- What is said about a refused value, where the library has words of its own for it. -/
def message? : Refusal → Option String
  | unknownLevel given =>
    some ("Value error, log_level must be one of " ++
      String.intercalate ", " (levels.map (·.name)) ++ ", got " ++ String.ofList (quoted given))
  | blankPrompt => some "Value error, continuation_prompt must not be blank"
  | unconverted _ | negative | tooShort => none

end Refusal

/-- A way to convert given values to the types of fields. A value that cannot be converted has a code
    that tells why. -/
structure Converter where
  integer : Yaml.Node → Except String Int
  real : Yaml.Node → Except String Binary64
  truth : Yaml.Node → Except String Bool
  text : Yaml.Node → Except String (List Char)

/-- What a converter made of a value, seen as the start of reading a field. -/
def converted {α : Type} (r : Except String α) : Except Refusal α := r.mapError .unconverted

/-- The level that a text names, in any case and with blanks around it. -/
def levelOf (t : List Char) : Except Refusal Log.Level :=
  let name := String.ofList (upper (trim t))
  match levels.find? (·.name = name) with
  | some l => .ok l
  | none => .error (.unknownLevel t)

namespace Converter

variable (conv : Converter) (n : Yaml.Node)

/-- The value as a truth value. -/
def truthValue : Except Refusal Bool := converted (conv.truth n)

/-- The value as a text. -/
def textValue : Except Refusal (List Char) := converted (conv.text n)

/-- The value as a count. -/
def count : Except Refusal Nat := do
  let i ← converted (conv.integer n)
  if i < 0 then .error .negative else .ok i.toNat

/-- The value as a duration. "Not a number" is none. -/
def duration : Except Refusal Binary64 := do
  let x ← converted (conv.real n)
  if (Number.int 0).le (.real x) then .ok x else .error .negative

/-- The value as a text that is not empty. -/
def someText : Except Refusal (List Char) := do
  let t ← conv.textValue n
  if t.isEmpty then .error .tooShort else .ok t

/-- The value as a text that is not blank. -/
def prompt : Except Refusal (List Char) := do
  let t ← conv.textValue n
  if (trim t).isEmpty then .error .blankPrompt else .ok t

/-- The value as the name of a level. -/
def level : Except Refusal Log.Level := do
  let t ← conv.textValue n
  levelOf t

end Converter

end Rejoin.Settings
