/-!
Short excerpts of text for one-line messages.
-/

namespace Rejoin.Text

/-- The length of an excerpt when none is asked for. -/
def previewLimit : Int := 60

/-- The text on one line, each line feed written as a backslash and the letter n. -/
def flatten (t : List Char) : List Char :=
  t.flatMap fun c => if c = '\n' then ['\\', 'n'] else [c]

/-- The end of a text, on one line, behind three points if something is left out. A positive limit
    is the number of characters that are kept; zero keeps all of them, and a negative limit drops as
    many from the front. -/
def preview (t : List Char) (limit : Int) : List Char :=
  let flat := flatten t
  if flat.length ≤ limit then flat
  else
    let dropped := if 0 < limit then flat.length - limit.toNat else limit.natAbs
    ['.', '.', '.'] ++ flat.drop dropped

end Rejoin.Text
