import Rejoin.Yaml.Block
import Rejoin.Yaml.Node

/-!
Reading documents. A document is one node. In blocks the columns tell what belongs together: the
entries of a mapping, and likewise the items of a list, start in one column, and all that belongs to
an entry stands further to the right. Only the items of a list that is the value of an entry may
start in the column of the entry itself. Between brackets the columns mean nothing.

A key stands on one line with its colon and is a scalar. Tags, anchors, directives and keys that are
announced by a question mark are not read; a text that uses them is refused like one that is
malformed.
-/

namespace Rejoin.Yaml

/-- The greatest distance of a colon from the start of its key. -/
def keyLimit : Nat := 1024

/-- The scalar that starts at a place, and the place behind it. -/
def scalar? (inFlow : Bool) (indent : Int) (c : Cursor) : Option (Scalar × Cursor) :=
  if c.isAtMark then none
  else if c.isAt ['\'', '"'] then (Quoted.read? c).map fun (t, c) => (.text t, c)
  else if Plain.mayStart inFlow c.rest then
    let (t, c) := Plain.read inFlow indent c
    (Scalar.ofPlain? t).map (·, c)
  else none

/-- The place behind the colon of a key that was read from `start` to `c`. Inside brackets the colon
    needs no gap behind it. -/
def behindColon? (inFlow : Bool) (start c : Cursor) : Option Cursor :=
  let c := c.passSpaces
  if c.line = start.line && c.column ≤ start.column + keyLimit &&
      (c.isAtSign ':' || inFlow && c.isAt [':']) then some c.next
  else none

namespace Flow

mutual

/-- The node that starts at a place inside brackets. -/
def node? : Nat → Cursor → Option (Node × Cursor)
  | 0, _ => none
  | n + 1, c =>
    if c.isAt ['['] then do
      let (items, c) ← items? n true c.next.skip
      return (.list items, c)
    else if c.isAt ['\x7b'] then do
      let (entries, c) ← entries? n true c.next.skip
      return (.ofEntries entries, c)
    else do
      let (s, c) ← scalar? true 0 c
      return (.scalar s, c)

/-- The value behind a colon, which may be missing. -/
def value? : Nat → Cursor → Option (Node × Cursor)
  | 0, _ => none
  | n + 1, c =>
    let c := c.skip
    if c.isAt [',', ']', '\x7d'] then some (.null, c) else node? n c

/-- An item of a list. A key with a value is a mapping of one entry. -/
def item? : Nat → Cursor → Option (Node × Cursor)
  | 0, _ => none
  | n + 1, c =>
    if c.isAt ['[', '\x7b'] then node? n c
    else do
      let (s, behind) ← scalar? true 0 c
      match behindColon? true c behind with
      | some c =>
        let (v, c) ← value? n c
        return (.ofEntries [(s, v)], c)
      | none => return (.scalar s, behind)

/-- The items of a list up to its closing bracket. A comma stands between them, and may stand behind
    the last. -/
def items? : Nat → Bool → Cursor → Option (List Node × Cursor)
  | 0, _, _ => none
  | n + 1, isFirst, c => do
    if c.isAt [']'] then return ([], c.next)
    let c ← if isFirst then some c else if c.isAt [','] then some c.next.skip else none
    if c.isAt [']'] then return ([], c.next)
    let (item, c) ← item? n c
    let (items, c) ← items? n false c.skip
    return (item :: items, c)

/-- The entries of a mapping up to its closing bracket, separated like the items of a list. A key
    may stand alone. -/
def entries? : Nat → Bool → Cursor → Option (List (Scalar × Node) × Cursor)
  | 0, _, _ => none
  | n + 1, isFirst, c => do
    if c.isAt ['\x7d'] then return ([], c.next)
    let c ← if isFirst then some c else if c.isAt [','] then some c.next.skip else none
    if c.isAt ['\x7d'] then return ([], c.next)
    let (key, behind) ← scalar? true 0 c
    let (v, c) ←
      match behindColon? true c behind with
      | some c => value? n c
      | none => some (.null, behind)
    let (entries, c) ← entries? n false c.skip
    return ((key, v) :: entries, c)

end

end Flow

mutual

/-- The node that starts behind a place, or a missing value if none does. What belongs to the node
    is indented further than `indent`. A list or a mapping may only start at the beginning of a
    line, or where `isFresh` says so; a list that is the value of an entry may start in the entry's
    column. -/
def node? : Nat → Int → Bool → Bool → Cursor → Option (Node × Cursor)
  | 0, _, _, _, _ => none
  | n + 1, indent, isFresh, isValue, before =>
    let c := before.skip
    let isFresh := isFresh || c.line ≠ before.line
    if c.isOver then some (.null, c)
    else if c.column ≤ indent then
      if isValue && c.column = indent && c.isAtSign '-' then do
        let (items, c) ← items? n c.column true c
        return (.list items, c)
      else some (.null, c)
    else if c.isAtSign '-' then
      if isFresh then do
        let (items, c) ← items? n c.column false c
        return (.list items, c)
      else none
    else if c.isAt ['[', '\x7b'] then Flow.node? n c
    else if c.isAt ['|', '>'] then (Block.read? indent c).map fun (t, c) => (.scalar (.text t), c)
    else do
      let (s, behind) ← scalar? false indent c
      match behindColon? false c behind with
      | some value =>
        if isFresh then do
          let (entries, c) ← entries? n c.column s value
          return (.ofEntries entries, c)
        else none
      | none => return (.scalar s, behind)

/-- The items of a list whose hyphens stand in a column, the first of them at the given place. In
    the column of an entry, the list may be followed by the next entry. -/
def items? : Nat → Nat → Bool → Cursor → Option (List Node × Cursor)
  | 0, _, _, _ => none
  | n + 1, column, isValue, c => do
    let (item, c) ← node? n column true false c.next
    let c := c.skip
    if c.isOver || c.column < column then return ([item], c)
    else if c.column = column && c.isAtSign '-' then
      let (items, c) ← items? n column isValue c
      return (item :: items, c)
    else if c.column = column && isValue then return ([item], c)
    else none

/-- The entries of a mapping whose keys stand in a column, from the value of the given key on. -/
def entries? : Nat → Nat → Scalar → Cursor → Option (List (Scalar × Node) × Cursor)
  | 0, _, _, _ => none
  | n + 1, column, key, c => do
    let (v, c) ← node? n column false true c
    let c := c.skip
    if c.isOver || c.column < column then return ([(key, v)], c)
    else if c.column = column then
      let (next, behind) ← scalar? false column c
      let (entries, c) ← entries? n column next (← behindColon? false c behind)
      return ((key, v) :: entries, c)
    else none

end

/-- Whether a character may stand in a document. -/
def isPrintable (c : Char) : Bool :=
  c = '\t' || c = '\n' || c = '\r' || (' ' ≤ c && c ≤ '~') || c = '\u0085' ||
    ('\u00a0' ≤ c && c ≤ '\ufffd') || 0x10000 ≤ c.toNat

/-- The text with one kind of line end. -/
def plainLines : List Char → List Char
  | [] => []
  | '\r' :: '\n' :: rest => '\n' :: plainLines rest
  | c :: rest => (if c = '\r' || c = '\u0085' then '\n' else c) :: plainLines rest

/-- Whether nothing follows but the marks that end a document. -/
def isFinished : Nat → Cursor → Bool
  | 0, c => c.atEnd
  | n + 1, c => c.atEnd || (c.startsWithMark '.' && isFinished n (c.advance 3).skip)

/-- The node of the one document that starts at a place, which may be announced by a mark. -/
def document? (c : Cursor) : Option Node := do
  let isAnnounced := c.startsWithMark '-'
  if !isAnnounced && c.isAtMark then none
  let (v, c) ← node? (4 * c.rest.length + 8) (-1) (!isAnnounced) false
    (if isAnnounced then c.advance 3 else c)
  if isFinished c.rest.length c.skip then return v else none

/-- The data of a text, if it is one document. A text without content has a missing value. -/
def read? (t : List Char) : Option Node :=
  if !t.all isPrintable then none
  else
    let content := match plainLines t with
      | '\ufeff' :: rest => rest
      | rest => rest
    let c := (Cursor.start content).skip
    if c.atEnd then some .null else document? c

end Rejoin.Yaml
