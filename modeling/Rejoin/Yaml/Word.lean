import Rejoin.Yaml.Cursor

/-!
Plain and quoted text in documents. Such a text may go on over several lines: a single line end
between two of its lines becomes a space, and of several the first is dropped. Plain text ends at a
comment, at a colon with a gap behind it, and at a line that is not indented far enough; inside
brackets it also ends at a comma or a bracket. Quoted text ends at its quotation mark.
-/

namespace Rejoin.Yaml

/-- A text and the place behind it. -/
abbrev Reading := List Char × Cursor

namespace Reading

/-- The reading with more text in front. -/
def after (r : Reading) (front : List Char) : Reading := (front ++ r.1, r.2)

end Reading

/-- What a line end and the empty lines behind it add to a text. -/
def folded (first : Char) (more : List Char) : List Char :=
  if first ≠ '\n' then first :: more else if more.isEmpty then [' '] else more

namespace Plain

/-- The brackets and the comma, which end plain text inside brackets. -/
def flowSigns : List Char := [',', '[', ']', '\x7b', '\x7d']

/-- The length of the word that a text starts with. -/
def wordLength (inFlow : Bool) : List Char → Nat
  | [] => 0
  | c :: rest =>
    if isGap c then 0
    else if c = ':' && (startsWithGap rest || inFlow && rest.head?.any flowSigns.contains) then 0
    else if inFlow && (c = '?' || flowSigns.contains c) then 0
    else wordLength inFlow rest + 1

/-- The line ends and spaces behind a line of plain text; of these the line ends. There is no more
    text if a document ends here. -/
def breaks? : Nat → Cursor → Option Reading
  | 0, c => some ([], c)
  | n + 1, c =>
    match c.peek? with
    | some ' ' => breaks? n c.next
    | some d =>
      if isBreak d then
        if c.next.isAtMark then none else (breaks? n c.next).map (Reading.after · [d])
      else some ([], c)
    | none => some ([], c)

/-- The gap behind a word of plain text: what it adds if another word follows, and where that word
    would start. A gap that ends the text adds nothing. -/
def gap (c : Cursor) : Reading :=
  let spaces := c.rest.takeWhile (· = ' ')
  let c := c.passSpaces
  match c.peek? with
  | some d =>
    if isBreak d then
      if c.next.isAtMark then ([], c.next)
      else match breaks? c.rest.length c.next with
        | some (more, c) => (folded d more, c)
        | none => ([], c.next)
    else (spaces, c)
  | none => (spaces, c)

/-- The words of plain text from a place on, and the place at which the text is known to have ended.
    The lines after the first must be indented further than `indent`. -/
def words (inFlow : Bool) (indent : Int) : Nat → Cursor → Reading
  | 0, c => ([], c)
  | n + 1, c =>
    let length := if c.peek? = some '#' then 0 else wordLength inFlow c.rest
    if length = 0 then ([], c)
    else
      let word := c.rest.take length
      let (between, c) := gap (c.advance length)
      if between.isEmpty || c.peek? = some '#' || (!inFlow && c.column ≤ indent) then (word, c)
      else
        let (more, c) := words inFlow indent n c
        if more.isEmpty then (word, c) else (word ++ between ++ more, c)

/-- Whether plain text may start with the text that follows. Signs that have a meaning of their own
    may not, unless they are a hyphen, or outside brackets a question mark or a colon, and a
    character follows them directly. -/
def mayStart (inFlow : Bool) : List Char → Bool
  | [] => false
  | c :: rest =>
    let isSign := isGap c || flowSigns.contains c ||
      ['-', '?', ':', '#', '&', '*', '!', '|', '>', '\'', '"', '%', '@', '\x60'].contains c
    !isSign || (!startsWithGap rest && (c = '-' || (!inFlow && (c = '?' || c = ':'))))

/-- The plain text that starts at a place, and the place at which it is known to have ended. -/
def read (inFlow : Bool) (indent : Int) (c : Cursor) : Reading :=
  words inFlow indent (c.rest.length + 1) c

end Plain

namespace Quoted

/-- The line ends and blanks behind a line of quoted text; of these the line ends. No document may
    end inside quotes. -/
def breaks? : Nat → Cursor → Option Reading
  | 0, c => some ([], c)
  | n + 1, c =>
    if c.isAtMark then none
    else
      let c := c.pass fun d => d = ' ' || d = '\t'
      match c.peek? with
      | some d =>
        if isBreak d then (breaks? n c.next).map (Reading.after · [d]) else some ([], c)
      | none => some ([], c)

/-- A gap inside quoted text: blanks as they stand, or line ends with the blanks around them left
    out. -/
def gap? (c : Cursor) : Option Reading :=
  let isSpace (d : Char) : Bool := d = ' ' || d = '\t'
  let spaces := c.rest.takeWhile isSpace
  let c := c.pass isSpace
  match c.peek? with
  | some d =>
    if isBreak d then (breaks? c.rest.length c.next).map fun (more, c) => (folded d more, c)
    else some (spaces, c)
  | none => none

/-- The character that a letter behind a backslash stands for. -/
def escaped? : Char → Option Char
  | '0' => some '\x00'
  | 'a' => some '\x07'
  | 'b' => some '\x08'
  | 't' => some '\t'
  | '\t' => some '\t'
  | 'n' => some '\n'
  | 'v' => some '\x0b'
  | 'f' => some '\x0c'
  | 'r' => some '\r'
  | 'e' => some '\x1b'
  | ' ' => some ' '
  | '"' => some '"'
  | '\\' => some '\\'
  | '/' => some '/'
  | 'N' => some '\u0085'
  | '_' => some '\u00a0'
  | 'L' => some '\u2028'
  | 'P' => some '\u2029'
  | _ => none

/-- The number of hexadecimal digits behind the letter of a code point. -/
def hexLength? : Char → Option Nat
  | 'x' => some 2
  | 'u' => some 4
  | 'U' => some 8
  | _ => none

/-- The value of a hexadecimal digit. -/
def hexValue? (c : Char) : Option Nat :=
  if '0' ≤ c && c ≤ '9' then some (c.toNat - '0'.toNat)
  else if 'a' ≤ c && c ≤ 'f' then some (c.toNat - 'a'.toNat + 10)
  else if 'A' ≤ c && c ≤ 'F' then some (c.toNat - 'A'.toNat + 10)
  else none

/-- The character whose code point is written by exactly so many hexadecimal digits. -/
def codePoint? (length : Nat) (digits : List Char) : Option Char :=
  if digits.length = length then
    match digits.mapM hexValue? with
    | some values =>
      let n := values.foldl (fun n d => n * 16 + d) 0
      if h : n.isValidChar then some (Char.ofNatAux n h) else none
    | none => none
  else none

/-- What stands behind a backslash between quotation marks. A line end there is dropped, together
    with the blanks at the start of the next line. -/
def escape? (c : Cursor) : Option Reading := do
  let d ← c.peek?
  match escaped? d with
  | some e => return ([e], c.next)
  | none =>
    match hexLength? d with
    | some length =>
      let e ← codePoint? length (c.next.rest.take length)
      return ([e], c.next.advance length)
    | none => if isBreak d then breaks? c.rest.length c.next else none

/-- The quoted text up to its closing mark. Between apostrophes an apostrophe is written twice;
    between quotation marks a backslash escapes. -/
def body? (mark : Char) : Nat → Cursor → Option Reading
  | 0, _ => none
  | n + 1, c =>
    match c.peek? with
    | none => none
    | some d =>
      if d = mark then
        if mark = '\'' && c.next.peek? = some mark then
          (body? mark n c.next.next).map (Reading.after · [mark])
        else some ([], c.next)
      else do
        let (part, c) ←
          if mark = '"' && d = '\\' then escape? c.next
          else if isGap d then gap? c
          else some ([d], c.next)
        return (← body? mark n c).after part

/-- The quoted text that starts at a place with its opening mark. -/
def read? (c : Cursor) : Option Reading := do
  body? (← c.peek?) (c.rest.length + 1) c.next

end Quoted

end Rejoin.Yaml
