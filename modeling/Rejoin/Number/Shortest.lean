import Rejoin.Number.Binary64

/-!
Decimal text of binary64 numbers: the fewest digits that read back as the same number, and among
these the nearest. The text is positional for exponents from -4 to 15 and scientific otherwise; a
whole number keeps its point and one zero behind it.
-/

namespace Rejoin.Binary64

/-- The reals that round to a finite number: from half a unit below to half a unit above. Below a
    power of two the unit is half as large. The ends belong to it if the significand is even. -/
structure Neighbourhood where
  low : Rat
  high : Rat
  closed : Bool

/-- The neighbourhood of a finite positive number. -/
def neighbourhood (m : Nat) (e : Int) : Neighbourhood where
  low :=
    if m = significandLimit / 2 ∧ leastExponent < e then magnitude m e - (2 : Rat) ^ (e - 2)
    else magnitude m e - (2 : Rat) ^ (e - 1)
  high := magnitude m e + (2 : Rat) ^ (e - 1)
  closed := m % 2 = 0

/-- Whether a real reads back as the number whose neighbourhood this is. -/
def Neighbourhood.contains (n : Neighbourhood) (q : Rat) : Bool :=
  if n.closed then n.low ≤ q && q ≤ n.high else n.low < q && q < n.high

/-- The least power of ten above a positive rational, by its exponent: the first of the candidates
    from `k` on that is above it. -/
def powerAbove (q : Rat) (k : Int) : Nat → Int
  | 0 => k
  | fuel + 1 => if q < (10 : Rat) ^ k then k else powerAbove q (k + 1) fuel

/-- The number of digits before the decimal point of a finite positive number; zero or less if it is
    smaller than a tenth. The logarithm of two to base ten is a little below 0.30103. -/
def decimalPlace (m : Nat) (e : Int) : Int :=
  powerAbove (magnitude m e) (((m.log2 + e) * 30103).fdiv 100000 - 1) 4

/-- The number on the grid of multiples of `10 ^ scale` that reads back and is nearest, if one of
    the two neighbours on the grid reads back at all. Of two equally near ones the even is taken. -/
def onGrid? (q : Rat) (n : Neighbourhood) (scale : Int) : Option Nat :=
  let unit := (10 : Rat) ^ scale
  let below := (q / unit).floor.toNat
  let lower := below * unit
  let upper := (below + 1) * unit
  match n.contains lower, n.contains upper with
  | true, true =>
    let fromLower := q - lower
    let toUpper := upper - q
    let isLower := fromLower < toUpper || (fromLower = toUpper && below % 2 = 0)
    some (if isLower then below else below + 1)
  | true, false => some below
  | false, true => some (below + 1)
  | false, false => none

/-- The first grid, from `digits` digits on, that holds a number which reads back. Seventeen digits
    always suffice. -/
def firstGrid (q : Rat) (n : Neighbourhood) (place : Int) (digits : Nat) : Nat → Nat × Int
  | 0 => ((q / (10 : Rat) ^ (place - digits)).floor.toNat, place - digits)
  | fuel + 1 =>
    match onGrid? q n (place - digits) with
    | some c => (c, place - digits)
    | none => firstGrid q n place (digits + 1) fuel

/-- The shortest decimal `(c, s)` for which `c * 10 ^ s` reads back as the positive number. -/
def shortest (m : Nat) (e : Int) : Nat × Int :=
  firstGrid (magnitude m e) (neighbourhood m e) (decimalPlace m e) 1 17

/-- The digits of a number without the zeros at its end. -/
def significantDigits (c : Nat) : List Char :=
  (((Nat.toDigits 10 c).reverse.dropWhile (· = '0'))).reverse

/-- The text of an exponent: a sign and at least two digits. -/
def exponentText (e : Int) : List Char :=
  let digits := Nat.toDigits 10 e.natAbs
  (if e < 0 then '-' else '+') :: (List.replicate (2 - digits.length) '0' ++ digits)

/-- The digits `ds`, of which the first `place` stand before the point, as text. -/
def layout (ds : List Char) (place : Int) : List Char :=
  if place < -3 || 16 < place then
    let fraction := ds.tail
    ds.take 1 ++ (if fraction.isEmpty then [] else '.' :: fraction) ++
      'e' :: exponentText (place - 1)
  else if place ≤ 0 then
    ['0', '.'] ++ List.replicate (-place).toNat '0' ++ ds
  else
    let whole := ds.take place.toNat ++ List.replicate (place.toNat - ds.length) '0'
    let fraction := ds.drop place.toNat
    whole ++ '.' :: (if fraction.isEmpty then ['0'] else fraction)

/-- The text of a number that is not negative. -/
def magnitudeText (m : Nat) (e : Int) : List Char :=
  if m = 0 then ['0', '.', '0']
  else
    let (c, scale) := shortest m e
    layout (significantDigits c) ((Nat.toDigits 10 c).length + scale)

/-- The shortest text that reads back as the number. -/
def text : Binary64 → String
  | .finite negative m e => String.ofList ((if negative then ['-'] else []) ++ magnitudeText m e)
  | .infinite negative => if negative then "-inf" else "inf"
  | .nan => "nan"

end Rejoin.Binary64
