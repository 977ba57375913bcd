import Rejoin.Number.Binary64
import Rejoin.Text.Blank
import Rejoin.Text.LetterCase

/-!
Reading numbers from text. A decimal is an optional sign, digits with an optional point among,
before or behind them, and an optional exponent; the names of infinity and of "not a number" are
read in any case. Low lines may separate digits where the reader allows it.
-/

namespace Rejoin

open Text

namespace Numeral

/-- Whether a character is a decimal digit. -/
def isDigit (c : Char) : Bool := '0' ≤ c && c ≤ '9'

/-- The value of a run of digits; any other character counts as zero. -/
def value (base : Nat) (digits : List Char) : Nat :=
  digits.foldl (fun n c => n * base + digitValue c) 0
where
  /-- The value of a digit, in bases up to sixteen. -/
  digitValue (c : Char) : Nat :=
    if isDigit c then c.toNat - '0'.toNat
    else if 'a' ≤ c && c ≤ 'f' then c.toNat - 'a'.toNat + 10
    else if 'A' ≤ c && c ≤ 'F' then c.toNat - 'A'.toNat + 10
    else 0

/-- The text without its sign, and whether the sign is a minus. -/
def splitSign : List Char → Bool × List Char
  | '-' :: rest => (true, rest)
  | '+' :: rest => (false, rest)
  | t => (false, t)

/-- The text without the low lines that stand between two digits, or nothing if a low line stands
    anywhere else. `afterDigit` tells whether the character before was a digit. -/
def dropSeparators? (afterDigit : Bool) : List Char → Option (List Char)
  | [] => some []
  | '_' :: d :: rest =>
    if afterDigit && isDigit d then (dropSeparators? true rest).map (d :: ·) else none
  | '_' :: [] => none
  | c :: rest => (dropSeparators? (isDigit c) rest).map (c :: ·)

/-- The exponent written behind a significand: nothing, or a letter, a sign and digits. -/
def exponent? : List Char → Option Int
  | [] => some 0
  | e :: rest =>
    let (negative, digits) := splitSign rest
    if (e = 'e' || e = 'E') && !digits.isEmpty && digits.all isDigit then
      let n : Int := value 10 digits
      some (if negative then -n else n)
    else none

/-- The number written by an unsigned decimal. There must be a digit before or behind the point. -/
def decimal? (negative : Bool) (t : List Char) : Option Binary64 :=
  let whole := t.takeWhile isDigit
  let rest := t.dropWhile isDigit
  let (fraction, tail) :=
    match rest with
    | '.' :: more => (more.takeWhile isDigit, more.dropWhile isDigit)
    | _ => ([], rest)
  if whole.isEmpty && fraction.isEmpty then none
  else (exponent? tail).map fun e =>
    Binary64.ofDecimal negative (value 10 (whole ++ fraction)) (e - fraction.length)

/-- The number written by a decimal or by a name of infinity or of "not a number". -/
def real? (t : List Char) : Option Binary64 :=
  let (negative, t) := splitSign t
  let name := String.ofList (lower t)
  if name = "inf" || name = "infinity" then some (.infinite negative)
  else if name = "nan" then some .nan
  else decimal? negative t

/-- The integer written by digits, of which there must be at least one. -/
def digits? (negative : Bool) (digits : List Char) : Option Int :=
  if digits.isEmpty || !digits.all isDigit then none
  else
    let n : Int := value 10 digits
    some (if negative then -n else n)

/-- The integer written by a sign and digits. -/
def integer? (t : List Char) : Option Int :=
  let (negative, digits) := splitSign t
  digits? negative digits

/-- The integer written by a sign and digits, with blanks around it, low lines between its digits,
    and a point with zeros behind it. -/
def whole? (t : List Char) : Option Int := do
  let (negative, body) := splitSign (trim t)
  let digits ← dropSeparators? false (body.takeWhile (· ≠ '.'))
  let fraction := (body.dropWhile (· ≠ '.')).drop 1
  if fraction.all (· = '0') then digits? negative digits else none

/-- Whether two low lines stand side by side. -/
def hasDoubleLowLine : List Char → Bool
  | '_' :: '_' :: _ => true
  | _ :: rest => hasDoubleLowLine rest
  | [] => false

/-- The text without its low lines, if none stands at an end or beside another. -/
def withoutLowLines? (t : List Char) : Option (List Char) :=
  if t.head? = some '_' || t.getLast? = some '_' || hasDoubleLowLine t then none
  else some (t.filter (· ≠ '_'))

/-- The number written by a decimal or by a name, with blanks around it or low lines inside it. -/
def spacedReal? (t : List Char) : Option Binary64 :=
  (real? (trim t)).or ((withoutLowLines? t).bind real?)

end Numeral

end Rejoin
