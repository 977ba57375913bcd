import Rejoin.Log.Record
import Rejoin.Repair.Outcome

/-!
What is reported of repairs: where a text was cut while a repair was sought, and which repair was
adopted.
-/

namespace Rejoin.Repair

open Log

/-- What is reported while a repair is sought: the place of the cut, if the text was cut. -/
def searchRecords : Repair → List Record
  | cutBack cut =>
    let length := cut.kept.length
    let message :=
      if cut.whole then "JSON cut back to leading value ending at " ++ toString length
      else "JSON cut back to position " ++ toString length ++ " of " ++
        toString (length + cut.dropped.length)
    [⟨.trace, .repair, message⟩]
  | _ => []

/-- What is reported of a repair that was adopted: a warning if text was dropped. -/
def adoptionRecords (r : Repair) : List Record :=
  match r with
  | cutBack _ => [⟨.warning, .turn, "JSON recovery dropped content: " ++ r.description⟩]
  | closed .. => [⟨.info, .turn, "JSON recovery applied: " ++ r.description⟩]
  | fenced _ => [⟨.info, .turn, "Code block recovery applied: " ++ r.description⟩]
  | notNeeded _ | failed _ => []

end Rejoin.Repair
