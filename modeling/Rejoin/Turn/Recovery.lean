import Rejoin.Policy
import Rejoin.Repair.Fences
import Rejoin.Repair.Json
import Rejoin.Repair.Records

/-!
The last repair of a turn's text: as JSON if the policy allows it and that changes anything, else of
its code blocks.
-/

namespace Rejoin

/-- A text after the repairs of a policy: the text to use, the repair that was adopted, if any, and
    what was reported. -/
structure Recovered where
  text : List Char
  repair : Option Repair
  records : List Log.Record

namespace Recovered

/-- A text that is used as it is. -/
def unchanged (t : List Char) (records : List Log.Record) : Recovered := ⟨t, none, records⟩

/-- The repair, if a policy allows it and it changes the text. -/
def adopt? (allowed : Bool) (r : Repair) : Option Repair :=
  if allowed && r.isChanged then some r else none

/-- A text after the repairs that a policy allows. -/
def ofText [Json.Limits] (p : Policy) (t : List Char) : Recovered :=
  if t.isEmpty then unchanged t []
  else
    let json := Repair.json (some t)
    match (adopt? p.repairsJson json).or (adopt? p.repairsFences (.fences (some t))) with
    | some r => ⟨r.content, some r, r.searchRecords ++ r.adoptionRecords⟩
    | none => unchanged t []

end Recovered

end Rejoin
