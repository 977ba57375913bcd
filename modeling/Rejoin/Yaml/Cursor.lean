/-!
Places in the text of a document. A place knows its line and its column, because the columns of a
document carry its structure and a key must stand on one line with its colon. Line ends are line
feeds and the separators of lines and paragraphs.
-/

namespace Rejoin.Yaml

/-- Whether a character ends a line. -/
def isBreak (c : Char) : Bool := c = '\n' || c = '\u2028' || c = '\u2029'

/-- Whether a character separates words: a space, a tab or the end of a line. -/
def isGap (c : Char) : Bool := c = ' ' || c = '\t' || isBreak c

/-- Whether a word ends where this text begins. -/
def startsWithGap (t : List Char) : Bool := t.head?.all isGap

/-- A place in a document: the text from there on, its line and its column. -/
structure Cursor where
  rest : List Char
  line : Nat
  column : Nat
  deriving DecidableEq, Repr

namespace Cursor

/-- The place at the start of a text. -/
def start (t : List Char) : Cursor := ⟨t, 0, 0⟩

/-- Whether nothing follows. -/
def atEnd (c : Cursor) : Bool := c.rest.isEmpty

/-- The character that follows. -/
def peek? (c : Cursor) : Option Char := c.rest.head?

/-- Whether one of the given characters follows. -/
def isAt (c : Cursor) (chars : List Char) : Bool := c.peek?.any chars.contains

/-- Whether a character follows and then a gap, so that the character stands for itself. -/
def isAtSign (c : Cursor) (sign : Char) : Bool :=
  c.peek? = some sign && startsWithGap c.rest.tail

/-- The place behind the character that follows. -/
def next (c : Cursor) : Cursor :=
  match c.rest with
  | [] => c
  | d :: rest => if isBreak d then ⟨rest, c.line + 1, 0⟩ else ⟨rest, c.line, c.column + 1⟩

/-- The place behind some characters. -/
def advance (c : Cursor) : Nat → Cursor
  | 0 => c
  | n + 1 => c.next.advance n

/-- The place behind the longest run of characters of a kind. -/
def pass (c : Cursor) (p : Char → Bool) : Cursor := c.advance (c.rest.takeWhile p).length

/-- The place behind the spaces that follow. -/
def passSpaces (c : Cursor) : Cursor := c.pass (· = ' ')

/-- The place behind spaces, line ends and comments, when one may stand inside a comment already. -/
def skipFrom (line column : Nat) (inComment : Bool) : List Char → Cursor
  | [] => ⟨[], line, column⟩
  | d :: rest =>
    if isBreak d then skipFrom (line + 1) 0 false rest
    else if inComment || d = '#' then skipFrom line (column + 1) true rest
    else if d = ' ' then skipFrom line (column + 1) false rest
    else ⟨d :: rest, line, column⟩

/-- The place behind the spaces, line ends and comments that follow. -/
def skip (c : Cursor) : Cursor := skipFrom c.line c.column false c.rest

/-- Whether a line that consists of a mark starts here, alone or with a gap behind it. -/
def startsWithMark (c : Cursor) (sign : Char) : Bool :=
  c.column = 0 && c.rest.take 3 = [sign, sign, sign] && startsWithGap (c.rest.drop 3)

/-- Whether a document starts or ends here: three hyphens or three points at the start of a line. -/
def isAtMark (c : Cursor) : Bool := c.startsWithMark '-' || c.startsWithMark '.'

/-- Whether the document has no more content here. -/
def isOver (c : Cursor) : Bool := c.atEnd || c.isAtMark

end Cursor

end Rejoin.Yaml
