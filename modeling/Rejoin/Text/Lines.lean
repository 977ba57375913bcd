/-!
Splitting text into lines. A line ends at a line feed, a carriage return, the two together, or one
of the other line, page, file, group, record and paragraph separators. The separators belong to no
line, and a text that ends in a separator has no empty last line.
-/

namespace Rejoin.Text

/-- Whether a character ends a line. -/
def isLineEnd (c : Char) : Bool :=
  c = '\n' || c = '\r' || c = '\u000b' || c = '\u000c' || c = '\u001c' || c = '\u001d' ||
    c = '\u001e' || c = '\u0085' || c = '\u2028' || c = '\u2029'

/-- The text with `c` written in front of its first line. -/
def consToFirst (c : Char) : List (List Char) → List (List Char)
  | [] => [[c]]
  | line :: rest => (c :: line) :: rest

/-- The lines of a text, without the separators that end them. -/
def lines : List Char → List (List Char)
  | [] => []
  | '\r' :: '\n' :: rest => [] :: lines rest
  | c :: rest => if isLineEnd c then [] :: lines rest else consToFirst c (lines rest)

end Rejoin.Text
