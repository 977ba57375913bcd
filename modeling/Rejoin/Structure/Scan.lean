import Rejoin.Structure.Bracket

/-!
The bracket scan. It reads a text once, from left to right, and knows after each character which
brackets are open, whether it stands inside a string, and whether the next character is escaped.
What is left open at the end tells how to close the text.

A backslash escapes the next character wherever it stands. Outside a string a quotation mark of the
dialect opens one, and only the same mark closes it. Brackets inside strings are ordinary text. The
tally counts every bracket outside strings; the stack of open brackets gives one up only to a closer
that matches the innermost.
-/

namespace Rejoin.Structure

/-- What a text leaves open: the text that would end its last string, if a string is open, and the
    closers of its open brackets, innermost first. -/
structure Opened where
  string : Option (List Char)
  closers : List Char

/-- The text that closes everything that is open, the string before the brackets around it. -/
def Opened.closing (o : Opened) : List Char := o.string.getD [] ++ o.closers

/-- The state of a bracket scan: the tally of brackets, the open brackets with the innermost first,
    the mark that will end the open string, and whether the next character is escaped. A string is
    entered with its mark, and the mark is given up with the string; so there is no flag for being
    inside one, which is to have a mark. -/
structure Scan where
  tally : Tally Bracket
  pending : List Bracket
  quote : Option Char
  escaped : Bool
  deriving DecidableEq, Repr

namespace Scan

/-- The state before the first character. -/
def start (d : Dialect) : Scan := ⟨.zero d.brackets, [], none, false⟩

/-- Whether the scan stands inside a string. -/
def inString (s : Scan) : Bool := s.quote.isSome

/-- The state after an opening bracket. -/
def opening (s : Scan) (b : Bracket) : Scan :=
  { s with tally := s.tally.change b 1, pending := b :: s.pending }

/-- The state after a closing bracket. One that does not match the innermost open bracket is
    counted, and leaves the open brackets as they are. -/
def closing (s : Scan) (b : Bracket) : Scan :=
  { s with
    tally := s.tally.change b (-1)
    pending := if s.pending.head? = some b then s.pending.tail else s.pending }

/-- The state after one more character. -/
def step (d : Dialect) (s : Scan) (c : Char) : Scan :=
  if s.escaped then { s with escaped := false }
  else if c = '\\' then { s with escaped := true }
  else match s.quote with
    | some q => if c = q then { s with quote := none } else s
    | none =>
      if d.quotes.contains c then { s with quote := some c }
      else match d.opens? c with
        | some b => s.opening b
        | none =>
          match d.closes? c with
          | some b => s.closing b
          | none => s

/-- The state after a text, from a given state on. -/
def run (d : Dialect) (s : Scan) (t : List Char) : Scan := t.foldl (step d) s

/-- The state after a whole text. -/
def ofText (d : Dialect) (t : List Char) : Scan := run d (start d) t

/-- The states after each character of a text, in order. -/
def trail (d : Dialect) (s : Scan) : List Char → List Scan
  | [] => []
  | c :: rest => s.step d c :: trail d (s.step d c) rest

/-- What the scanned text leaves open. -/
def opened (s : Scan) : Opened := ⟨s.quote.map ([·]), s.pending.map Bracket.closer⟩

/-- The text that closes the open string and every open bracket, innermost first. -/
def suffix (s : Scan) : List Char := s.opened.closing

@[simp] theorem run_nil (d : Dialect) (s : Scan) : run d s [] = s := rfl

@[simp] theorem run_cons (d : Dialect) (s : Scan) (c : Char) (t : List Char) :
    run d s (c :: t) = run d (s.step d c) t := rfl

/-- Scanning two texts in turn is scanning one after the other. -/
theorem run_append (d : Dialect) (s : Scan) (t u : List Char) :
    run d s (t ++ u) = run d (run d s t) u := by
  simp [run]

/-- The closing suffix ends the string, if one is open, and then closes the open brackets. -/
theorem suffix_eq (s : Scan) : s.suffix = s.quote.toList ++ s.pending.map Bracket.closer := by
  cases h : s.quote <;> simp [suffix, opened, Opened.closing, h]

end Scan

end Rejoin.Structure
