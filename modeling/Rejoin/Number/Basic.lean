import Rejoin.Number.Shortest

/-!
Numbers as settings and policies hold them: integers of any size and binary64 numbers, which keep
their kind. They are compared by value across the two kinds; nothing is above, below or equal to
"not a number".
-/

namespace Rejoin

/-- An integer or a binary64 number. -/
inductive Number where
  | int (n : Int)
  | real (x : Binary64)
  deriving DecidableEq, Repr

/-- Where a number lies on the line of rationals with its two ends. -/
inductive Extent where
  | lowest
  | point (q : Rat)
  | highest
  deriving DecidableEq

/-- The order of the extended line. -/
def Extent.lt : Extent → Extent → Bool
  | .lowest, .lowest => false
  | .lowest, _ => true
  | .point p, .point q => p < q
  | .point _, .highest => true
  | _, _ => false

namespace Number

instance : Coe Int Number := ⟨.int⟩

/-- The place of a number on the extended line; "not a number" has none. -/
def extent? : Number → Option Extent
  | .int n => some (.point n)
  | .real (.finite negative m e) =>
    some (.point (if negative then -Binary64.magnitude m e else Binary64.magnitude m e))
  | .real (.infinite negative) => some (if negative then .lowest else .highest)
  | .real .nan => none

/-- Whether the first number is below the second. -/
def lt (x y : Number) : Bool :=
  match x.extent?, y.extent? with
  | some a, some b => a.lt b
  | _, _ => false

/-- Whether the first number is at most the second. -/
def le (x y : Number) : Bool :=
  match x.extent?, y.extent? with
  | some a, some b => !b.lt a
  | _, _ => false

/-- Whether the two numbers have the same value. -/
def sameValue (x y : Number) : Bool :=
  match x.extent?, y.extent? with
  | some a, some b => a = b
  | _, _ => false

/-- Whether the number is below zero. -/
def isNegative (x : Number) : Bool := x.lt (.int 0)

/-- Whether the number is above zero. -/
def isPositive (x : Number) : Bool := (Number.int 0).lt x

/-- The text of a number: decimal digits for an integer, the shortest decimal otherwise. -/
def text : Number → String
  | .int n => String.ofList ((if n < 0 then ['-'] else []) ++ Nat.toDigits 10 n.natAbs)
  | .real x => x.text

/-- The number without its fraction, if it is finite. -/
def whole? : Number → Option Int
  | .int n => some n
  | .real (.finite negative m e) =>
    let whole : Int := (Binary64.magnitude m e).floor
    some (if negative then -whole else whole)
  | .real _ => none

/-- The number without its fraction, as text; one that is not finite has none. -/
def truncatedText (x : Number) : String := x.whole?.elim x.text fun n => text (.int n)

/-- The number with one decimal, as text; a half goes to the even digit. -/
def tenthsText (x : Number) : String :=
  match x.extent? with
  | none => "nan"
  | some .lowest => "-inf"
  | some .highest => "inf"
  | some (.point q) =>
    let scaled := q * 10
    let tenths := Binary64.roundDiv scaled.num.natAbs scaled.den
    String.ofList ((if q < 0 then ['-'] else []) ++
      Nat.toDigits 10 (tenths / 10) ++ '.' :: Nat.toDigits 10 (tenths % 10))

/-- The number as a rational, if it is finite. -/
def rat? (x : Number) : Option Rat :=
  match x.extent? with
  | some (.point q) => some q
  | some .lowest | some .highest | none => none

/-- The least natural number that is not below the number, if there is one. -/
def ceiling? (x : Number) : Option Nat :=
  match x.extent? with
  | none => some 0
  | some .lowest => some 0
  | some .highest => none
  | some (.point q) => some q.ceil.toNat

end Number

end Rejoin
