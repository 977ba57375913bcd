import Rejoin.Text.Printable

/-!
Quoted text, as it appears inside a message. The text stands between apostrophes, or between
quotation marks if it holds an apostrophe and no quotation mark. The delimiter, the backslash and
every character that cannot be shown are escaped, so that the quoted form is one printable line.
-/

namespace Rejoin.Text

/-- The mark that a text is quoted with. -/
def delimiter (t : List Char) : Char :=
  if t.contains '\'' && !t.contains '"' then '"' else '\''

/-- A code point in hexadecimal, with at least the given number of digits. -/
def hexText (width : Nat) (n : Nat) : List Char :=
  let digits := Nat.toDigits 16 n
  List.replicate (width - digits.length) '0' ++ digits

/-- A character as it is written between the given marks. -/
def quotedChar (mark c : Char) : List Char :=
  if c = mark || c = '\\' then ['\\', c]
  else if c = '\n' then ['\\', 'n']
  else if c = '\r' then ['\\', 'r']
  else if c = '\t' then ['\\', 't']
  else if isPrintable c then [c]
  else if c.toNat < 0x100 then '\\' :: 'x' :: hexText 2 c.toNat
  else if c.toNat < 0x10000 then '\\' :: 'u' :: hexText 4 c.toNat
  else '\\' :: 'U' :: hexText 8 c.toNat

/-- The quoted form of a text. -/
def quoted (t : List Char) : List Char :=
  let mark := delimiter t
  mark :: (t.flatMap (quotedChar mark) ++ [mark])

/-- The quoted form of a string. -/
def quotedString (s : String) : String := String.ofList (quoted s.toList)

end Rejoin.Text
