import Rejoin.Text.Blank
import Rejoin.Text.Punctuation

/-!
Stitching the fragments of a text that came in pieces. Two pieces are separated by a space unless
the first ends in a blank or in punctuation, or the second starts with a blank; nothing is added or
removed otherwise. Empty and missing fragments count for nothing.
-/

namespace Rejoin.Stitch

open Text

/-- Whether a space belongs between a piece that ends with one character and a piece that starts
    with another. -/
def needsSpace (last first : Char) : Bool :=
  !(isBlank last || isBlank first || isPunctuation last)

/-- What stands between two pieces when they are joined: a space or nothing. An empty piece needs
    no space beside it. -/
def gap (a b : List Char) : List Char :=
  match a.getLast?, b.head? with
  | some last, some first => if needsSpace last first then [' '] else []
  | _, _ => []

/-- Two pieces joined. -/
def join (a b : List Char) : List Char := a ++ gap a b ++ b

/-- All fragments joined in order; a missing one is left out. -/
def combine (fragments : List (Option (List Char))) : List Char :=
  (fragments.filterMap id).foldl join []

@[simp] theorem join_nil_left (b : List Char) : join [] b = b := by simp [join, gap]

@[simp] theorem join_nil_right (a : List Char) : join a [] = a := by
  cases h : a.getLast? <;> simp [join, gap, h]

end Rejoin.Stitch
