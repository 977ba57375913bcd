/-!
Binary floating-point numbers of 64 bits, as exact values. A finite number is an integer times a
power of two, so that comparing, converting and printing it are exact rational arithmetic; rounding
happens in one place only, where a quotient is turned into the nearest number.
-/

namespace Rejoin

/-- A binary64 number: `m * 2 ^ e` with a sign, an infinity, or not a number. A zero has a sign. -/
inductive Binary64 where
  | finite (negative : Bool) (m : Nat) (e : Int)
  | infinite (negative : Bool)
  | nan
  deriving DecidableEq, Repr

namespace Binary64

/-- The least exponent of a finite number. -/
def leastExponent : Int := -1074

/-- The greatest exponent of a finite number. -/
def greatestExponent : Int := 971

/-- One past the greatest significand. -/
def significandLimit : Nat := Nat.pow 2 53

/-- A zero. -/
def zero (negative : Bool) : Binary64 := .finite negative 0 leastExponent

/-- The quotient rounded to the nearest integer; a half goes to the even neighbour. -/
def roundDiv (num den : Nat) : Nat :=
  let quotient := num / den
  let twice := 2 * (num % den)
  if twice < den then quotient
  else if den < twice then quotient + 1
  else quotient + quotient % 2

/-- The exponent of the last binary place that a number of the size of `num / den` can have. The
    quotient of the two logarithms is at most one too large. -/
def placeOf (num den : Nat) : Int :=
  let guess : Int := num.log2 - den.log2
  let reaches :=
    if 0 ≤ guess then den * Nat.pow 2 guess.toNat ≤ num else den ≤ num * Nat.pow 2 (-guess).toNat
  let size := if reaches then guess else guess - 1
  max (size - 52) leastExponent

/-- The number nearest to a quotient; a quotient half way between two numbers goes to the one with
    the even significand, and one beyond the greatest number to infinity. -/
def ofQuotient (negative : Bool) (num den : Nat) : Binary64 :=
  if num = 0 then zero negative
  else
    let e := placeOf num den
    let m :=
      if 0 ≤ e then roundDiv num (den * Nat.pow 2 e.toNat)
      else roundDiv (num * Nat.pow 2 (-e).toNat) den
    let (m, e) := if m = significandLimit then (m / 2, e + 1) else (m, e)
    if greatestExponent < e then .infinite negative else .finite negative m e

/-- The number nearest to `digits * 10 ^ scale`. Quotients that are certainly too large or too small
    are not computed. -/
def ofDecimal (negative : Bool) (digits : Nat) (scale : Int) : Binary64 :=
  let size : Int := (Nat.toDigits 10 digits).length + scale
  if digits = 0 || size < -330 then zero negative
  else if 310 < size then .infinite negative
  else if 0 ≤ scale then ofQuotient negative (digits * Nat.pow 10 scale.toNat) 1
  else ofQuotient negative digits (Nat.pow 10 (-scale).toNat)

/-- The number nearest to a rational. -/
def ofRat (q : Rat) : Binary64 := ofQuotient (q < 0) q.num.natAbs q.den

/-- The number nearest to an integer. -/
def ofInt (n : Int) : Binary64 := ofQuotient (n < 0) n.natAbs 1

/-- The magnitude of a finite number. -/
def magnitude (m : Nat) (e : Int) : Rat := m * (2 : Rat) ^ e

/-- The value of a finite number. -/
def toRat? : Binary64 → Option Rat
  | .finite negative m e => some (if negative then -magnitude m e else magnitude m e)
  | _ => none

end Binary64

end Rejoin
