/-!
Reading JSON one character at a time. The reader is a machine with a stack: the containers that are
open, and what the next character may be. It accepts one document with blanks around it, where a
document may also be one of the number names `NaN`, `Infinity` and `-Infinity`, where a string may
hold any character but the controls below the space, and where neither very deep nesting nor very
long integers are read.

Because the machine never looks ahead, the documents that start with a given text are decided by the
state after that text; in particular an object, an array or a string ends at the first character
after which the machine has a complete document.
-/

namespace Rejoin.Json

/-- The containers of JSON that nest. -/
inductive Container where
  | array
  | object
  deriving DecidableEq, Repr

/-- How much is read: the deepest nesting, which depends on the stack that the reader has left, and
    the most digits that an integer may have. -/
class Limits where
  depth : Nat
  digits : Nat
  depth_pos : 0 < depth

/-- The limits where nothing else is said: the stack that is left as a program starts, and the digits
    that are read unless the program allows more. -/
instance : Limits := ⟨990, 4300, by decide⟩

/-- Where the reader stands inside a string: between characters, after a backslash, or before the
    given number of hexadecimal digits of an escape. -/
inductive StringPart where
  | plain
  | escape
  | hex (needed : Nat)
  deriving DecidableEq, Repr

/-- Where the reader stands inside a number: after its sign, after a leading zero, after so many
    digits of its integer part, after its point, in its fraction, after the letter of its exponent,
    after the sign of the exponent, or in the digits of the exponent. -/
inductive NumberPart where
  | minus
  | zero
  | integer (digits : Nat)
  | point
  | fraction
  | exponent
  | exponentSign
  | exponentDigits
  deriving DecidableEq, Repr

/-- What the reader expects next: a value; in a new array a value or its end; in a new object a key
    or its end; a key; a colon; what may follow a value; or the rest of a string, of a name or of a
    number. A string is read either as a key or as a value. -/
inductive Mode where
  | value
  | elementOrEnd
  | keyOrEnd
  | key
  | colon
  | afterValue
  | string (isKey : Bool) (part : StringPart)
  | name (rest : List Char)
  | number (part : NumberPart)
  deriving DecidableEq, Repr

/-- The blanks that JSON allows between tokens. -/
def isBlank (c : Char) : Bool := c = ' ' || c = '\t' || c = '\n' || c = '\r'

/-- The decimal digits. -/
def isDigit (c : Char) : Bool := '0' ≤ c && c ≤ '9'

/-- The hexadecimal digits. -/
def isHexDigit (c : Char) : Bool :=
  isDigit c || ('a' ≤ c && c ≤ 'f') || ('A' ≤ c && c ≤ 'F')

/-- The letters that may follow a backslash, the one of a code unit aside. -/
def isEscape (c : Char) : Bool :=
  c = '"' || c = '\\' || c = '/' || c = 'b' || c = 'f' || c = 'n' || c = 'r' || c = 't'

/-- The state of the reader: the containers that are open, innermost first, and what may follow. -/
structure Reader where
  frames : List Container
  mode : Mode
  deriving DecidableEq, Repr

namespace Reader

/-- The state before the first character. -/
def start : Reader := ⟨[], .value⟩

variable [Limits]

/-- The state inside one more container, unless the nesting is too deep. -/
def enter (frames : List Container) (k : Container) : Option Reader :=
  if frames.length < Limits.depth then
    some ⟨k :: frames, match k with | .array => .elementOrEnd | .object => .keyOrEnd⟩
  else none

/-- The state after a character that starts a value. -/
def stepValue (frames : List Container) (c : Char) : Option Reader :=
  if c = '"' then some ⟨frames, .string false .plain⟩
  else if c = '{' then enter frames .object
  else if c = '[' then enter frames .array
  else if c = 'n' then some ⟨frames, .name ['u', 'l', 'l']⟩
  else if c = 't' then some ⟨frames, .name ['r', 'u', 'e']⟩
  else if c = 'f' then some ⟨frames, .name ['a', 'l', 's', 'e']⟩
  else if c = 'N' then some ⟨frames, .name ['a', 'N']⟩
  else if c = 'I' then some ⟨frames, .name ['n', 'f', 'i', 'n', 'i', 't', 'y']⟩
  else if c = '-' then some ⟨frames, .number .minus⟩
  else if c = '0' then some ⟨frames, .number .zero⟩
  else if isDigit c then some ⟨frames, .number (.integer 1)⟩
  else none

/-- The state after a character that follows a complete value. -/
def stepAfter (frames : List Container) (c : Char) : Option Reader :=
  if isBlank c then some ⟨frames, .afterValue⟩
  else match frames with
    | [] => none
    | .array :: outer =>
      if c = ',' then some ⟨frames, .value⟩
      else if c = ']' then some ⟨outer, .afterValue⟩
      else none
    | .object :: outer =>
      if c = ',' then some ⟨frames, .key⟩
      else if c = '}' then some ⟨outer, .afterValue⟩
      else none

/-- The state after a character of a string. -/
def stepString (frames : List Container) (isKey : Bool) (c : Char) : StringPart → Option Reader
  | .plain =>
    if c = '"' then some ⟨frames, if isKey then .colon else .afterValue⟩
    else if c = '\\' then some ⟨frames, .string isKey .escape⟩
    else if c < ' ' then none
    else some ⟨frames, .string isKey .plain⟩
  | .escape =>
    if c = 'u' then some ⟨frames, .string isKey (.hex 4)⟩
    else if isEscape c then some ⟨frames, .string isKey .plain⟩
    else none
  | .hex needed =>
    if isHexDigit c then
      some ⟨frames, .string isKey (if needed ≤ 1 then .plain else .hex (needed - 1))⟩
    else none

/-- The state after a character that follows the integer part of a number. -/
def stepTail (frames : List Container) (c : Char) : Option Reader :=
  if c = '.' then some ⟨frames, .number .point⟩
  else if c = 'e' || c = 'E' then some ⟨frames, .number .exponent⟩
  else stepAfter frames c

/-- The state after a character of a number, or after the character that ends it. -/
def stepNumber (frames : List Container) (c : Char) : NumberPart → Option Reader
  | .minus =>
    if c = '0' then some ⟨frames, .number .zero⟩
    else if isDigit c then some ⟨frames, .number (.integer 1)⟩
    else if c = 'I' then some ⟨frames, .name ['n', 'f', 'i', 'n', 'i', 't', 'y']⟩
    else none
  | .zero => stepTail frames c
  | .integer digits =>
    if isDigit c then some ⟨frames, .number (.integer (digits + 1))⟩
    else if c = '.' || c = 'e' || c = 'E' || digits ≤ Limits.digits then stepTail frames c
    else none
  | .point => if isDigit c then some ⟨frames, .number .fraction⟩ else none
  | .fraction =>
    if isDigit c then some ⟨frames, .number .fraction⟩
    else if c = 'e' || c = 'E' then some ⟨frames, .number .exponent⟩
    else stepAfter frames c
  | .exponent =>
    if isDigit c then some ⟨frames, .number .exponentDigits⟩
    else if c = '+' || c = '-' then some ⟨frames, .number .exponentSign⟩
    else none
  | .exponentSign => if isDigit c then some ⟨frames, .number .exponentDigits⟩ else none
  | .exponentDigits =>
    if isDigit c then some ⟨frames, .number .exponentDigits⟩ else stepAfter frames c

/-- The state after one more character, or nothing if no document goes on like this. -/
def step (r : Reader) (c : Char) : Option Reader :=
  match r.mode with
  | .value => if isBlank c then some r else stepValue r.frames c
  | .elementOrEnd =>
    if isBlank c then some r
    else if c = ']' then some ⟨r.frames.tail, .afterValue⟩
    else stepValue r.frames c
  | .keyOrEnd =>
    if isBlank c then some r
    else if c = '}' then some ⟨r.frames.tail, .afterValue⟩
    else if c = '"' then some ⟨r.frames, .string true .plain⟩
    else none
  | .key =>
    if isBlank c then some r
    else if c = '"' then some ⟨r.frames, .string true .plain⟩
    else none
  | .colon =>
    if isBlank c then some r
    else if c = ':' then some ⟨r.frames, .value⟩
    else none
  | .afterValue => stepAfter r.frames c
  | .string isKey part => stepString r.frames isKey c part
  | .name [] => none
  | .name (next :: rest) =>
    if c = next then some ⟨r.frames, if rest.isEmpty then .afterValue else .name rest⟩ else none
  | .number part => stepNumber r.frames c part

/-- The state after a text, from a given state on. -/
def run (r : Reader) : List Char → Option Reader
  | [] => some r
  | c :: rest => (r.step c).bind fun next => next.run rest

/-- Whether a number may end here. -/
def isWhole : NumberPart → Bool
  | .zero | .fraction | .exponentDigits => true
  | .integer digits => digits ≤ Limits.digits
  | .minus | .point | .exponent | .exponentSign => false

/-- Whether the text read so far is a document. -/
def accepts (r : Reader) : Bool :=
  r.frames.isEmpty &&
    match r.mode with
    | .afterValue => true
    | .number part => isWhole part
    | _ => false

/-- Whether a document goes on, from a given state, with exactly this text. -/
def acceptsRest (r : Reader) (t : List Char) : Bool := (r.run t).any accepts

/-- Reading two texts in turn is reading one after the other. -/
theorem run_append (r : Reader) (t u : List Char) :
    r.run (t ++ u) = (r.run t).bind fun next => next.run u := by
  induction t generalizing r with
  | nil => rfl
  | cons c rest ih =>
    cases h : r.step c with
    | none => simp [run, h]
    | some next => simp [run, h, ih]

end Reader

variable [Limits]

/-- Whether a text is one JSON document. -/
def isValid (t : List Char) : Bool := Reader.start.acceptsRest t

/-- The length of the shortest prefix of the text after which the reader has a complete value, from
    a given state on. -/
def valueEnd? (r : Reader) : List Char → Option Nat
  | [] => none
  | c :: rest =>
    match r.step c with
    | none => none
    | some next =>
      if next.frames.isEmpty && next.mode = .afterValue then some 1
      else (valueEnd? next rest).map (· + 1)

/-- The length of the object, array or string that a text starts with, if it starts with a complete
    one. -/
def leadingValueEnd? (t : List Char) : Option Nat := valueEnd? .start t

end Rejoin.Json
