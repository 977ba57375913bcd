import Rejoin.Value

/-!
Messages with places for values. `%s` stands for a value as plain text, `%d` for a whole number, and
`%%` for a percent sign.
-/

namespace Rejoin.Text

/-- A value as a whole number: a finite number without its fraction, and a truth value as one or
    zero. -/
def wholeText? : Value → Option String
  | .number n => n.whole?.map fun whole => (Number.int whole).text
  | .bool b => some (if b then "1" else "0")
  | _ => none

/-- The template with its places filled in order. There is no such text when a place is left empty,
    a value is left over, or a place cannot hold its value. -/
def fill? : List Char → List Value → Option (List Char)
  | [], [] => some []
  | [], _ :: _ => none
  | '%' :: '%' :: rest, args => (fill? rest args).map ('%' :: ·)
  | '%' :: 's' :: rest, v :: args => (fill? rest args).map (v.plain.toList ++ ·)
  | '%' :: 'd' :: rest, v :: args => do
    let whole ← wholeText? v
    let tail ← fill? rest args
    return whole.toList ++ tail
  | '%' :: _, _ => none
  | c :: rest, args => (fill? rest args).map (c :: ·)

/-- A template with its places filled; without values it is a text as it stands. -/
def message? (template : String) (args : List Value) : Option String :=
  if args.isEmpty then some template else (fill? template.toList args).map String.ofList

end Rejoin.Text
