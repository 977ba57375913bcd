import Rejoin.Yaml.Word

/-!
Block text: lines that stand as they are, below a sign that announces them. The sign says whether
line ends are kept or folded into spaces, and what happens to the line ends behind the last line.
The lines are indented further than the node they belong to; the first of them tells how far, unless
the sign does.
-/

namespace Rejoin.Yaml.Block

/-- What happens to the line ends behind the last line: all are dropped, one is kept, or all are. -/
inductive Chomp where
  | strip
  | clip
  | keep
  deriving DecidableEq, Repr

/-- What the sign of a block text says. -/
structure Header where
  folds : Bool
  chomp : Chomp
  indent : Option Nat

/-- What a plus or a minus behind the sign means. -/
def chomp? : Char → Option Chomp
  | '+' => some .keep
  | '-' => some .strip
  | _ => none

/-- The indentation that a digit behind the sign means. -/
def indent? (c : Char) : Option Nat :=
  if '1' ≤ c && c ≤ '9' then some (c.toNat - '0'.toNat) else none

/-- The place behind a character that has a meaning, with that meaning. -/
def mark? {α : Type} (meaning : Char → Option α) (c : Cursor) : Option α × Cursor :=
  match c.peek?.bind meaning with
  | some a => (some a, c.next)
  | none => (none, c)

/-- The sign of a block text, with the rest of its line, which holds at most a comment. -/
def header? (c : Cursor) : Option (Header × Cursor) :=
  let folds := c.peek? = some '>'
  let (first, c) := mark? chomp? c.next
  let (indent, c) := mark? indent? c
  let (second, c) := if first.isNone then mark? chomp? c else (none, c)
  let chomp := (first.or second).getD .clip
  if c.peek?.all fun d => d = ' ' || isBreak d then
    let c := c.passSpaces
    let c := if c.peek? = some '#' then c.pass (!isBreak ·) else c
    if c.peek?.all isBreak then some (⟨folds, chomp, indent⟩, c.next) else none
  else none

/-- The empty lines at a place, where the indentation is not known yet: their line ends, the widest
    indentation, and the place behind them. -/
def margin (widest : Nat) : Nat → Cursor → List Char × Nat × Cursor
  | 0, c => ([], widest, c)
  | n + 1, c =>
    match c.peek? with
    | some d =>
      if d = ' ' then margin (max widest c.next.column) n c.next
      else if isBreak d then
        let (breaks, widest, c) := margin widest n c.next
        (d :: breaks, widest, c)
      else ([], widest, c)
    | none => ([], widest, c)

/-- The place behind the indentation of a line. -/
def indented (indent : Nat) (c : Cursor) : Cursor :=
  c.advance (min (c.rest.takeWhile (· = ' ')).length (indent - c.column))

/-- The empty lines at a place and the indentation of the line behind them. -/
def emptyLines (indent : Nat) : Nat → Cursor → Reading
  | 0, c => ([], c)
  | n + 1, c =>
    let c := indented indent c
    match c.peek? with
    | some d => if isBreak d then (emptyLines indent n c.next).after [d] else ([], c)
    | none => ([], c)

/-- Whether another line of the text starts at a place. -/
def goesOn (indent : Nat) (c : Cursor) : Bool := c.column = indent && !c.atEnd

/-- The character that ends a line, if there is one. -/
def lineEnd (c : Cursor) : List Char := (c.peek?.filter isBreak).toList

/-- The lines of a block text and what is left behind the last of them: the end of that line, and
    the ends of empty lines. -/
structure Lines where
  text : List Char
  lastEnd : List Char
  empty : List Char
  stop : Cursor

/-- Whether a line starts with a blank. Such a line is never folded. -/
def startsBlank (c : Cursor) : Bool := c.isAt [' ', '\t']

/-- The lines of a block text from a place on, behind the ends of empty lines. -/
def lines (folds : Bool) (indent : Nat) : Nat → List Char → Cursor → Lines
  | 0, empty, c => ⟨[], [], empty, c⟩
  | n + 1, empty, c =>
    if goesOn indent c then
      let line := c.rest.takeWhile (!isBreak ·)
      let behind := c.pass (!isBreak ·)
      let ending := lineEnd behind
      let (more, next) := emptyLines indent (behind.rest.length + 1) behind.next
      if goesOn indent next then
        let between :=
          if folds && ending = ['\n'] && !startsBlank c && !startsBlank next then
            if more.isEmpty then [' '] else []
          else ending
        let rest := lines folds indent n more next
        { rest with text := empty ++ line ++ between ++ rest.text }
      else ⟨empty ++ line, ending, more, next⟩
    else ⟨[], [], empty, c⟩

/-- The block text whose sign stands at a place, below a node with the given indentation. -/
def read? (indent : Int) (c : Cursor) : Option Reading := do
  let (header, c) ← header? c
  let least := (max (indent + 1) 1).toNat
  let (empty, width, c) :=
    match header.indent with
    | some n =>
      let width := least + n - 1
      let (empty, c) := emptyLines width (c.rest.length + 1) c
      (empty, width, c)
    | none =>
      let (empty, widest, c) := margin 0 (c.rest.length + 1) c
      (empty, max least widest, c)
  let l := lines header.folds width (c.rest.length + 1) empty c
  let tail := match header.chomp with
    | .strip => []
    | .clip => l.lastEnd
    | .keep => l.lastEnd ++ l.empty
  return (l.text ++ tail, l.stop)

end Rejoin.Yaml.Block
