import Rejoin.Proofs.Json.Move

/-!
The grammar of JSON, as rules for texts. A rule for values carries how deep they may nest, and the
rule for numbers how long an integer may be, so that the texts of the grammar are those that are
read. The last part is about texts that break off: what stands before a value that is nested in open
containers.
-/

namespace Rejoin.Json

/-- The rest of a string behind its first quotation mark. -/
inductive IsStringTail : List Char → Prop where
  | quote : IsStringTail ['"']
  | plain {c : Char} {rest : List Char} (hquote : c ≠ '"') (hslash : c ≠ '\\')
      (hcontrol : ¬ c < ' ') (hrest : IsStringTail rest) : IsStringTail (c :: rest)
  | escape {c : Char} {rest : List Char} (hc : isEscape c = true) (hrest : IsStringTail rest) :
      IsStringTail ('\\' :: c :: rest)
  | unit {a b c d : Char} {rest : List Char} (hhex : [a, b, c, d].all isHexDigit = true)
      (hrest : IsStringTail rest) : IsStringTail ('\\' :: 'u' :: a :: b :: c :: d :: rest)

/-- The texts of strings. -/
inductive IsString : List Char → Prop where
  | mk {tail : List Char} (htail : IsStringTail tail) : IsString ('"' :: tail)

/-- The digits before the point: a zero alone, or digits that start with another one. -/
inductive IsWholePart : List Char → Prop where
  | zero : IsWholePart ['0']
  | digits {d : Char} {rest : List Char} (hd : isDigit d = true) (hzero : d ≠ '0')
      (hrest : rest.all isDigit = true) : IsWholePart (d :: rest)

/-- The point and the digits behind it, if there are any. -/
inductive IsFraction : List Char → Prop where
  | absent : IsFraction []
  | present {d : Char} {rest : List Char} (hd : isDigit d = true) (hrest : rest.all isDigit = true) :
      IsFraction ('.' :: d :: rest)

/-- The exponent of a number, if it has one. -/
inductive IsExponent : List Char → Prop where
  | absent : IsExponent []
  | present {letter d : Char} {sign rest : List Char} (hletter : letter = 'e' ∨ letter = 'E')
      (hsign : sign = [] ∨ sign = ['+'] ∨ sign = ['-']) (hd : isDigit d = true)
      (hrest : rest.all isDigit = true) : IsExponent (letter :: (sign ++ d :: rest))

variable [Limits]

/-- The texts of numbers. One without fraction and exponent is an integer, whose digits are
    limited. -/
inductive IsNumber : List Char → Prop where
  | mk {sign whole fraction exponent : List Char} (hsign : sign = [] ∨ sign = ['-'])
      (hwhole : IsWholePart whole) (hfraction : IsFraction fraction)
      (hexponent : IsExponent exponent)
      (hlimit : fraction = [] → exponent = [] → whole.length ≤ Limits.digits) :
      IsNumber (sign ++ (whole ++ (fraction ++ exponent)))

/-- The names that are values. -/
def names : List (List Char) :=
  [['n', 'u', 'l', 'l'], ['t', 'r', 'u', 'e'], ['f', 'a', 'l', 's', 'e'], ['N', 'a', 'N'],
    ['I', 'n', 'f', 'i', 'n', 'i', 't', 'y'], ['-', 'I', 'n', 'f', 'i', 'n', 'i', 't', 'y']]

/-- What stands before the value of an item: blanks in an array, and a key with its colon in an
    object. -/
inductive IsLead : Container → List Char → Prop where
  | element {w : List Char} (hw : w.all isBlank = true) : IsLead .array w
  | member {w key before after : List Char} (hw : w.all isBlank = true) (hkey : IsString key)
      (hbefore : before.all isBlank = true) (hafter : after.all isBlank = true) :
      IsLead .object (w ++ (key ++ (before ++ ':' :: after)))

mutual

/-- The texts of strings, arrays and objects that nest at most so deep. -/
inductive IsElement : Nat → List Char → Prop where
  | string {n : Nat} {t : List Char} (ht : IsString t) : IsElement n t
  | empty {n : Nat} {w : List Char} (k : Container) (hw : w.all isBlank = true) :
      IsElement (n + 1) (k.opener :: (w ++ [k.closer]))
  | filled {n : Nat} {t : List Char} (k : Container) (ht : IsItems k n t) :
      IsElement (n + 1) (k.opener :: (t ++ [k.closer]))

/-- The texts of values that nest at most so deep. -/
inductive IsValue : Nat → List Char → Prop where
  | element {n : Nat} {t : List Char} (ht : IsElement n t) : IsValue n t
  | number {n : Nat} {t : List Char} (ht : IsNumber t) : IsValue n t
  | name {n : Nat} {t : List Char} (ht : t ∈ names) : IsValue n t

/-- The items of a container, with commas between them. -/
inductive IsItems : Container → Nat → List Char → Prop where
  | last {k : Container} {n : Nat} {lead v w : List Char} (hlead : IsLead k lead)
      (hv : IsValue n v) (hw : w.all isBlank = true) : IsItems k n (lead ++ (v ++ w))
  | more {k : Container} {n : Nat} {lead v w rest : List Char} (hlead : IsLead k lead)
      (hv : IsValue n v) (hw : w.all isBlank = true) (hrest : IsItems k n rest) :
      IsItems k n (lead ++ (v ++ (w ++ ',' :: rest)))

end

/-- Items of a container that has more to come: each has a comma behind it. -/
inductive IsItemsBefore (k : Container) (n : Nat) : List Char → Prop where
  | nil : IsItemsBefore k n []
  | cons {lead v w rest : List Char} (hlead : IsLead k lead) (hv : IsValue n v)
      (hw : w.all isBlank = true) (hrest : IsItemsBefore k n rest) :
      IsItemsBefore k n (lead ++ (v ++ (w ++ ',' :: rest)))

/-- The texts that end with a complete string, array or object, in containers that are still open
    and whose earlier items are complete. All of it nests at most so deep. -/
inductive IsOpenText : Nat → List Char → Prop where
  | element {n : Nat} {t : List Char} (ht : IsElement n t) : IsOpenText n t
  | inside {n : Nat} {items lead t : List Char} (k : Container) (hitems : IsItemsBefore k n items)
      (hlead : IsLead k lead) (ht : IsOpenText n t) :
      IsOpenText (n + 1) (k.opener :: (items ++ (lead ++ t)))

end Rejoin.Json
