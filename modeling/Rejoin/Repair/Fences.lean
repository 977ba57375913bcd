import Rejoin.Repair.Outcome
import Rejoin.Structure.Fence

/-!
Repairing a code block that was cut off: a closing fence is appended on a line of its own.
-/

namespace Rejoin.Repair

open Structure

/-- The text with a fence line appended, on a new line if the last one is not ended. -/
def closeFence (t : List Char) : List Char :=
  (if t.getLast? = some '\n' then t else t ++ ['\n']) ++ Fence.marker ++ ['\n']

/-- Repairs the fences of a text: one that ends inside a code block has the block closed. A missing
    text counts as empty. -/
def fences (text : Option (List Char)) : Repair :=
  let t := text.getD []
  if (FenceScan.ofText t).inside then .fenced (closeFence t) else .notNeeded t

end Rejoin.Repair
