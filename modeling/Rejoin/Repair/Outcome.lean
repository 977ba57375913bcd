/-!
The outcomes of repairing a text. An outcome records what was done, and the repaired text follows
from it: a text that needed nothing, one that was completed, one that was cut back and so lost
something, or one that could not be repaired.
-/

namespace Rejoin

/-- A cut through a text that can be closed: the part that is kept, the part that is dropped, and
    what closes the kept part. The cut is `whole` when the kept part is a complete value already. -/
structure Cut where
  kept : List Char
  dropped : List Char
  closing : List Char
  whole : Bool
  deriving DecidableEq, Repr

/-- The text that the cut leaves: the kept part, closed. -/
def Cut.content (c : Cut) : List Char := c.kept ++ c.closing

/-- Why a text could not be repaired: it is blank, or no part of it can be closed. -/
inductive Irreparable where
  | blank
  | noClosing
  deriving DecidableEq, Repr

/-- What became of a text that was to be repaired. -/
inductive Repair where
  /-- The text is sound as it stands. -/
  | notNeeded (text : List Char)
  /-- A JSON text lacked only its closing characters. -/
  | closed (text closing : List Char)
  /-- A code block lacked only its last fence. -/
  | fenced (text : List Char)
  /-- A JSON text was cut back and then closed. -/
  | cutBack (cut : Cut)
  /-- Nothing could be done. -/
  | failed (reason : Irreparable)
  deriving DecidableEq, Repr

namespace Repair

/-- How a repair ended, for a caller that does not ask for details. -/
inductive Status where
  | notNeeded
  | recovered
  | partially
  | failed
  deriving DecidableEq, Repr

/-- The name of a status. -/
def Status.name : Status → String
  | notNeeded => "no_recovery_needed"
  | recovered => "recovered"
  | partially => "partially_recovered"
  | failed => "failed"

/-- How the repair ended. -/
def status : Repair → Status
  | notNeeded _ => .notNeeded
  | closed .. | fenced _ => .recovered
  | cutBack _ => .partially
  | failed _ => .failed

/-- The repaired text; empty when the repair failed. -/
def content : Repair → List Char
  | notNeeded text => text
  | closed text closing => text ++ closing
  | fenced text => text
  | cutBack cut => cut.content
  | failed _ => []

/-- One line on what was done, or on why nothing could be done. -/
def description : Repair → String
  | notNeeded _ => ""
  | closed _ closing => "Added missing JSON closures: " ++ String.ofList closing
  | fenced _ => "Closed 1 code block(s)"
  | cutBack _ => "Truncated to last complete element"
  | failed .blank => "Input is null or empty"
  | failed .noClosing => "Unable to recover JSON"

/-- Whether there is a sound text to go on with. -/
def isSuccess (r : Repair) : Bool := r.status != .failed

/-- Whether a part of the text was dropped. -/
def isLossy (r : Repair) : Bool := r.status == .partially

/-- Whether the text was changed. -/
def isChanged (r : Repair) : Bool := r.status == .recovered || r.status == .partially

end Repair

end Rejoin
