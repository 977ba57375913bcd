import Rejoin.Text.Alphanumeric
import Rejoin.Text.Blank
import Rejoin.Text.Lines

/-!
Code fences. A fence line is three backticks with an optional language tag and trailing blanks, and
nothing before them. Fence lines open and close code blocks in turn, so a text is inside a block
exactly after an odd number of them.
-/

namespace Rejoin.Structure

open Text

namespace Fence

/-- The backtick. -/
def tick : Char := '\x60'

/-- The mark that starts a fence line: three backticks. -/
def marker : List Char := [tick, tick, tick]

/-- Whether a character may stand in a language tag, such as those of C++ and C#. -/
def isTagChar (c : Char) : Bool := isWordChar c || c = '+' || c = '#'

/-- Whether a line is a fence: the mark, a language tag that may be empty, and trailing blanks. -/
def isFenceLine (line : List Char) : Bool :=
  match trimRight line with
  | a :: b :: c :: tag => a = tick && b = tick && c = tick && tag.all isTagChar
  | _ => false

/-- Whether a text, its trailing blanks aside, ends with the mark of a fence. -/
def endsWithFence (t : List Char) : Bool := marker.isSuffixOf (trimRight t)

end Fence

/-- What the fence lines of a text add up to: their number, and whether the last one opened a block
    that is still open. -/
structure FenceScan where
  fenceLines : Nat
  inside : Bool
  deriving DecidableEq, Repr

namespace FenceScan

/-- The scan of a text without lines. -/
def start : FenceScan := ⟨0, false⟩

/-- The scan after one more line. -/
def step (s : FenceScan) (line : List Char) : FenceScan :=
  if Fence.isFenceLine line then ⟨s.fenceLines + 1, !s.inside⟩ else s

/-- The scan of all lines of a text. -/
def ofText (t : List Char) : FenceScan := (lines t).foldl step start

end FenceScan

end Rejoin.Structure
