import Rejoin.Number.Basic
import Rejoin.Number.Reading

/-!
Scalars of YAML documents. A scalar that is written plainly is a text unless it has the form of
something else: a truth value, a number, a missing value or a date. The forms are those of YAML 1.1,
where `yes` and `off` are truth values, a leading zero means base eight, and colons mean base sixty.
-/

namespace Rejoin.Yaml

/-- A scalar. A date is told from other scalars, and is not looked into. -/
inductive Scalar where
  | null
  | truth (b : Bool)
  | number (n : Number)
  | text (t : List Char)
  | date
  deriving DecidableEq, Repr

namespace Scalar

open Numeral

/-- The spellings of the missing value. -/
def nullNames : List String := ["", "~", "null", "Null", "NULL"]

/-- The spellings of true. -/
def trueNames : List String :=
  ["yes", "Yes", "YES", "true", "True", "TRUE", "on", "On", "ON"]

/-- The spellings of false. -/
def falseNames : List String :=
  ["no", "No", "NO", "false", "False", "FALSE", "off", "Off", "OFF"]

/-- Whether a character may stand inside a run of digits. -/
def isDigitOrLowLine (c : Char) : Bool := isDigit c || c = '_'

/-- Whether a text is a run of digits and low lines that starts with one of the given characters. -/
def isRun (first rest : Char → Bool) : List Char → Bool
  | [] => false
  | c :: more => first c && more.all rest

/-- The text without its low lines. -/
def dropLowLines (t : List Char) : List Char := t.filter (· ≠ '_')

/-- An integer of a given sign and magnitude. -/
def signed (negative : Bool) (n : Nat) : Int := if negative then -n else n

/-- The truth value of a plain scalar. -/
def truth? (t : List Char) : Option Scalar :=
  let name := String.ofList t
  if trueNames.contains name then some (.truth true)
  else if falseNames.contains name then some (.truth false)
  else none

/-- The special numbers: infinity, which may have a sign, and "not a number", which has none. -/
def special? (t : List Char) : Option Scalar :=
  let (negative, body) := splitSign t
  if [".inf", ".Inf", ".INF"].contains (String.ofList body) then
    some (.number (.real (.infinite negative)))
  else if [".nan", ".NaN", ".NAN"].contains (String.ofList t) then some (.number (.real .nan))
  else none

/-- Whether a text is empty or an exponent; the sign of an exponent must be written. -/
def isExponent : List Char → Bool
  | [] => true
  | e :: s :: digits =>
    (e = 'e' || e = 'E') && (s = '+' || s = '-') && !digits.isEmpty && digits.all isDigit
  | _ => false

/-- Whether an unsigned text has the form of a decimal with a point. At least one digit stands
    before the point, or directly behind it. -/
def isPointed (allowBare : Bool) (t : List Char) : Bool :=
  let whole := t.takeWhile isDigitOrLowLine
  match t.dropWhile isDigitOrLowLine with
  | '.' :: more =>
    let fraction := more.takeWhile isDigitOrLowLine
    let tail := more.dropWhile isDigitOrLowLine
    isExponent tail &&
      if whole.isEmpty then allowBare && isRun isDigit isDigitOrLowLine fraction
      else isRun isDigit isDigitOrLowLine whole
  | _ => false

/-- The decimal with a point that a plain scalar has the form of. A sign needs a digit behind it. -/
def pointed? (t : List Char) : Option Scalar :=
  let (negative, body) := splitSign t
  if isPointed (body.length = t.length) body then
    (decimal? negative (dropLowLines body)).map fun x => .number (.real x)
  else none

/-- The parts of a text between colons. -/
def colonParts : List Char → List (List Char)
  | [] => [[]]
  | c :: rest =>
    match colonParts rest with
    | [] => [[c]]
    | part :: more => if c = ':' then [] :: part :: more else (c :: part) :: more

/-- Whether a text is a number below sixty, in one or two digits. -/
def isSixtieth : List Char → Bool
  | [a] => isDigit a
  | [a, b] => '0' ≤ a && a ≤ '5' && isDigit b
  | _ => false

/-- The value of parts in base sixty. -/
def sixtyValue (parts : List (List Char)) : Nat :=
  parts.foldl (fun n part => n * 60 + value 10 (dropLowLines part)) 0

/-- The integer in base sixty that a plain scalar has the form of. -/
def sixty? (t : List Char) : Option Scalar :=
  let (negative, body) := splitSign t
  match colonParts body with
  | first :: second :: more =>
    if isRun (fun c => isDigit c && c ≠ '0') isDigitOrLowLine first &&
        (second :: more).all isSixtieth then
      some (.number (.int (signed negative (sixtyValue (first :: second :: more)))))
    else none
  | _ => none

/-- The decimal in base sixty that a plain scalar has the form of: the last of its parts has a
    point. -/
def pointedSixty? (t : List Char) : Option Scalar :=
  let (negative, body) := splitSign t
  let whole := body.takeWhile (· ≠ '.')
  match colonParts whole, body.dropWhile (· ≠ '.') with
  | first :: second :: more, '.' :: fraction =>
    if isRun isDigit isDigitOrLowLine first && (second :: more).all isSixtieth &&
        fraction.all isDigitOrLowLine then
      let places := dropLowLines fraction
      let scale := Nat.pow 10 places.length
      let units := sixtyValue (first :: second :: more) * scale + Numeral.value 10 places
      some (.number (.real (.ofQuotient negative units scale)))
    else none
  | _, _ => none

/-- The integer that a plain scalar has the form of: in base two, eight, ten or sixteen. -/
def integer? (t : List Char) : Option Scalar :=
  let (negative, body) := splitSign t
  let whole (base : Nat) (digits : List Char) : Option Scalar :=
    let digits := dropLowLines digits
    if digits.isEmpty then none
    else some (.number (.int (signed negative (Numeral.value base digits))))
  match body with
  | ['0'] => whole 10 ['0']
  | '0' :: 'b' :: digits =>
    if digits.all fun c => c = '0' || c = '1' || c = '_' then whole 2 digits else none
  | '0' :: 'x' :: digits =>
    let isHexDigit (c : Char) : Bool :=
      isDigitOrLowLine c || ('a' ≤ c && c ≤ 'f') || ('A' ≤ c && c ≤ 'F')
    if digits.all isHexDigit then whole 16 digits else none
  | '0' :: digits =>
    let isOctalDigit (c : Char) : Bool := ('0' ≤ c && c ≤ '7') || c = '_'
    if digits.all isOctalDigit then whole 8 ('0' :: digits) else none
  | digits => if isRun isDigit isDigitOrLowLine digits then whole 10 digits else none

/-- The text behind a run of digits whose length is within bounds. -/
def afterDigits? (least most : Nat) (t : List Char) : Option (List Char) :=
  let n := (t.takeWhile isDigit).length
  if least ≤ n && n ≤ most then some (t.drop n) else none

/-- The text behind a given character. -/
def after? (c : Char) : List Char → Option (List Char)
  | d :: rest => if c = d then some rest else none
  | [] => none

/-- Whether a text is the end of a time: nothing, a fraction of a second, a time zone, or both. -/
def isTimeEnd (t : List Char) : Bool :=
  let behind := match t with
    | '.' :: rest => rest.dropWhile isDigit
    | _ => t
  match behind.dropWhile fun c => c = ' ' || c = '\t' with
  | [] => behind.isEmpty
  | ['Z'] => true
  | s :: offset =>
    (s = '+' || s = '-') &&
      match afterDigits? 1 2 offset with
      | some [] => true
      | some (':' :: minutes) => afterDigits? 2 2 minutes = some []
      | _ => false

/-- Whether a text has the form of a time of the day, behind the blanks or the letter that separate
    it from a date. -/
def isTime (t : List Char) : Bool :=
  let time := match t with
    | 'T' :: rest => rest
    | 't' :: rest => rest
    | _ => t.dropWhile fun c => c = ' ' || c = '\t'
  time.length < t.length &&
    match (do
      let t ← afterDigits? 1 2 time
      let t ← after? ':' t
      let t ← afterDigits? 2 2 t
      let t ← after? ':' t
      afterDigits? 2 2 t) with
    | some rest => isTimeEnd rest
    | none => false

/-- Whether a plain scalar has the form of a date. A date without a time has all its digits. -/
def isDate (t : List Char) : Bool :=
  match (do
    let t ← afterDigits? 4 4 t
    let month ← after? '-' t
    let day ← after? '-' (← afterDigits? 1 2 month)
    let rest ← afterDigits? 1 2 day
    return (month, day, rest)) with
  | some (month, day, rest) =>
    if rest.isEmpty then (afterDigits? 2 2 month).isSome && (afterDigits? 2 2 day).isSome
    else isTime rest
  | none => false

/-- The scalar that is written plainly. The signs for a default value and for the merging of
    mappings stand for no value of their own. -/
def ofPlain? (t : List Char) : Option Scalar :=
  if t = ['='] || t = ['<', '<'] then none
  else if nullNames.contains (String.ofList t) then some .null
  else
    (truth? t).or <| (pointed? t).or <| (pointedSixty? t).or <| (special? t).or <|
      (integer? t).or <| (sixty? t).or <| some (if isDate t then .date else .text t)

end Scalar

end Rejoin.Yaml
