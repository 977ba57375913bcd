import Rejoin.Json.Reader
import Rejoin.Repair.Outcome
import Rejoin.Structure.Scan
import Rejoin.Text.Blank

/-!
Repairing JSON that was cut off. A text is first completed: whatever closes its open string and its
open containers is appended. If that does not make it a document, the text is cut back to the
longest prefix that ends a string, an array or an object and that can be completed.

The closing texts of all prefixes come from one pass of the bracket scan; then the prefixes are
tried from the right, and the first that closes to a document is the longest.
-/

namespace Rejoin

open Structure Text

namespace Json

/-- The closing text of a JSON text: what ends its open string and its open brackets. -/
def closing (t : List Char) : List Char := (Scan.ofText .json t).suffix

/-- The text with its open string and its open brackets closed. -/
def close (t : List Char) : List Char := t ++ closing t

/-- The characters that an object, an array or a string may start with. -/
def startsElement (c : Char) : Bool := c = '{' || c = '[' || c = '"'

/-- The characters that an object, an array or a string may end with. -/
def endsElement (c : Char) : Bool := c = '}' || c = ']' || c = '"'

/-- The positions behind which an element may end, in order, each with the text that closes the
    prefix up to there. The first character alone is never kept. -/
def closings (t : List Char) : List (Nat × List Char) :=
  ((Scan.trail .json (.start .json) t).zip t).zipIdx.filterMap fun ((scan, c), i) =>
    if 0 < i && endsElement c then some (i, scan.suffix) else none

variable [Limits]

/-- The last position behind which the text closes to a document, with the closing text. -/
def lastClosing? (t : List Char) : Option (Nat × List Char) :=
  (closings t).reverse.find? fun (i, closing) => isValid (t.take (i + 1) ++ closing)

/-- The cut that keeps most of a text. When the text starts with a complete value the cut is behind
    it, because no longer prefix is a document. -/
def cutBack? (t : List Char) : Option Cut :=
  match leadingValueEnd? t with
  | some n => some ⟨t.take n, t.drop n, [], true⟩
  | none =>
    (lastClosing? t).map fun (i, closing) => ⟨t.take (i + 1), t.drop (i + 1), closing, false⟩

end Json

namespace Repair

variable [Json.Limits]

/-- Repairs a JSON text. A document is left as it is, blanks included. Otherwise the text is trimmed
    and completed, or else cut back; only a text that starts an object, an array or a string can
    be. -/
def json (text : Option (List Char)) : Repair :=
  match text with
  | none => .failed .blank
  | some t =>
    match trim t with
    | [] => .failed .blank
    | first :: rest =>
      if Json.isValid t then .notNeeded t
      else if !Json.startsElement first then .failed .noClosing
      else
        let trimmed := first :: rest
        let closing := Json.closing trimmed
        if !closing.isEmpty && Json.isValid (trimmed ++ closing) then .closed trimmed closing
        else match Json.cutBack? trimmed with
          | some cut => .cutBack cut
          | none => .failed .noClosing

end Repair

end Rejoin
