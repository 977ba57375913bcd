import Rejoin.Number.Basic
import Rejoin.Text.Quoted

/-!
Data of any shape: what settings files hold, what responses carry along untouched, and what errors
report. Records keep the order in which their entries were written.
-/

namespace Rejoin

/-- A value of any shape. -/
inductive Value where
  | null
  | bool (b : Bool)
  | number (n : Number)
  | text (s : String)
  | list (items : List Value)
  | record (entries : List (String × Value))
  deriving Repr, Inhabited

namespace Value

/-- A whole number. -/
def int (n : Int) : Value := .number (.int n)

mutual

/-- The value written out; a text inside another value is quoted. -/
def written : Value → String
  | .null => "None"
  | .bool b => if b then "True" else "False"
  | .number n => n.text
  | .text s => Text.quotedString s
  | .list items => "[" ++ String.intercalate ", " (writtenItems items) ++ "]"
  | .record entries => "\x7b" ++ String.intercalate ", " (writtenEntries entries) ++ "\x7d"

/-- The items of a list written out. -/
def writtenItems : List Value → List String
  | [] => []
  | v :: rest => v.written :: writtenItems rest

/-- The entries of a record written out, each behind its name. -/
def writtenEntries : List (String × Value) → List String
  | [] => []
  | (name, v) :: rest => (Text.quotedString name ++ ": " ++ v.written) :: writtenEntries rest

end

/-- The value as plain text: a text is itself, anything else is written out. -/
def plain : Value → String
  | .text s => s
  | v => v.written

end Value

/-- The entry of a name set to a value: in place if the name is there, at the end otherwise. -/
def setEntry {α : Type} (entries : List (String × α)) (name : String) (v : α) :
    List (String × α) :=
  if entries.any (·.1 = name) then entries.map fun e => if e.1 = name then (name, v) else e
  else entries ++ [(name, v)]

end Rejoin
