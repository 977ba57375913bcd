import Rejoin.Text.Blank
import Rejoin.Value

/-!
Files that list variables, one `NAME=value` to a line. The name may follow the word `export`, blanks
may stand around the equals sign, a value may be quoted, and a number sign starts a comment. A line
that is malformed is passed over. A name may stand alone, which takes its value away. A value may
refer to variables of the lines before it and to those that are set outside.
-/

namespace Rejoin.DotEnv

open Text

/-- A line of a file: a name and its value, if it has one. -/
abbrev Binding := List Char × Option (List Char)

/-- Whether a character ends a line. -/
def isLineEnd (c : Char) : Bool := c = '\n' || c = '\r'

/-- Whether a character is a blank inside a line. -/
def isSpace (c : Char) : Bool := isBlank c && !isLineEnd c

/-- The text without the blanks that it starts with, as far as they are in its first line. -/
def skipSpace (t : List Char) : List Char := t.dropWhile isSpace

/-- The text behind its first line. -/
def nextLine (t : List Char) : List Char :=
  match t.dropWhile (!isLineEnd ·) with
  | '\r' :: '\n' :: rest => rest
  | _ :: rest => rest
  | [] => []

/-- The text behind a word and the blanks that follow it, or the text as it is. -/
def skipWord (word t : List Char) : List Char :=
  let rest := t.drop word.length
  if word.isPrefixOf t && rest.head?.any isSpace then skipSpace rest else t

/-- The length of the text before the closing mark: the first mark without a backslash before it, or
    else the last mark there is. -/
def closing? (mark : Char) (escaped : Bool) : List Char → Option Nat
  | [] => none
  | c :: rest =>
    if c = mark && !escaped then some 0
    else
      match closing? mark (c = '\\') rest with
      | some n => some (n + 1)
      | none => if c = mark then some 0 else none

/-- The character that a letter behind a backslash stands for between quotation marks. -/
def escaped? : Char → Option Char
  | '\\' => some '\\'
  | '\'' => some '\''
  | '"' => some '"'
  | 'a' => some '\x07'
  | 'b' => some '\x08'
  | 'f' => some '\x0c'
  | 'n' => some '\n'
  | 'r' => some '\r'
  | 't' => some '\t'
  | 'v' => some '\x0b'
  | _ => none

/-- A quoted value with its escapes replaced. Between apostrophes only the apostrophe and the
    backslash are escaped. -/
def unescape (mark : Char) : List Char → List Char
  | '\\' :: c :: rest =>
    match (escaped? c).filter fun _ => mark = '"' || c = '\\' || c = '\'' with
    | some e => e :: unescape mark rest
    | none => '\\' :: unescape mark (c :: rest)
  | c :: rest => c :: unescape mark rest
  | [] => []

/-- A value without the comment behind it, which starts with a number sign after a blank. -/
def withoutComment : List Char → List Char
  | [] => []
  | c :: rest =>
    if isBlank c && (rest.dropWhile isBlank).head? = some '#' then []
    else c :: withoutComment rest

/-- The value that a text starts with, and the text behind it. A quoted value must be closed. -/
def value? (t : List Char) : Option (List Char × List Char) :=
  match t with
  | '\'' :: rest =>
    (closing? '\'' false rest).map fun n => (unescape '\'' (rest.take n), rest.drop (n + 1))
  | '"' :: rest =>
    (closing? '"' false rest).map fun n => (unescape '"' (rest.take n), rest.drop (n + 1))
  | _ =>
    let line := t.takeWhile (!isLineEnd ·)
    some (trimRight (withoutComment line), t.dropWhile (!isLineEnd ·))

/-- The name that a text starts with, and the text behind it. -/
def name? (t : List Char) : Option (List Char × List Char) :=
  match t with
  | '\'' :: rest =>
    let name := rest.takeWhile (· ≠ '\'')
    match rest.dropWhile (· ≠ '\'') with
    | _ :: behind => if name.isEmpty then none else some (name, behind)
    | [] => none
  | _ =>
    let isNameChar (c : Char) : Bool := c ≠ '=' && c ≠ '#' && !isBlank c
    let name := t.takeWhile isNameChar
    if name.isEmpty then none else some (name, t.dropWhile isNameChar)

/-- Whether nothing but blanks and a comment stands before the end of the line. -/
def endsLine (t : List Char) : Bool :=
  match skipSpace t with
  | [] => true
  | c :: _ => c = '#' || isLineEnd c

/-- The line that a text starts with, and the text behind it. A line that is malformed or a comment
    binds nothing. -/
def line (t : List Char) : Option Binding × List Char :=
  let t := skipWord "export".toList t
  match name? t with
  | none => (none, nextLine t)
  | some (name, behind) =>
    match skipSpace behind with
    | '=' :: rest =>
      match value? (skipSpace rest) with
      | some (v, behind) =>
        (if endsLine behind then some (name, some v) else none, nextLine behind)
      | none => (none, nextLine rest)
    | behind => (if endsLine behind then some (name, none) else none, nextLine behind)

/-- The lines of a text that bind a name, in order. -/
def bindings : Nat → List Char → List Binding
  | 0, _ => []
  | n + 1, t =>
    match t.dropWhile isBlank with
    | [] => []
    | rest =>
      let (found, behind) := line rest
      found.toList ++ bindings n behind

/-- A reference to a variable, behind its dollar sign and brace: the name, the value that stands in
    for one that is not set, and the text behind the reference. -/
def reference? (t : List Char) : Option (List Char × List Char × List Char) :=
  let name := t.takeWhile fun c => c ≠ '\x7d' && c ≠ ':'
  match t.drop name.length with
  | '\x7d' :: behind => some (name, [], behind)
  | ':' :: '-' :: rest =>
    let fallback := rest.takeWhile (· ≠ '\x7d')
    match rest.drop fallback.length with
    | _ :: behind => some (name, fallback, behind)
    | [] => none
  | _ => none

/-- A value with its references replaced by the values of the variables. -/
def expand (valueOf? : String → Option (List Char)) : Nat → List Char → List Char
  | 0, t => t
  | _ + 1, [] => []
  | n + 1, '$' :: '\x7b' :: rest =>
    match reference? rest with
    | some (name, fallback, behind) =>
      (valueOf? (String.ofList name)).getD fallback ++ expand valueOf? n behind
    | none => '$' :: expand valueOf? n ('\x7b' :: rest)
  | n + 1, c :: rest => c :: expand valueOf? n rest

/-- The variables of a file with their values, where others are set outside. A name that is written
    twice has its last value; a reference means the lines before it rather than the outside. -/
def read (outside : List (String × String)) (t : List Char) :
    List (String × Option (List Char)) :=
  (bindings t.length t).foldl
    (fun known (name, v) =>
      let valueOf? (name : String) : Option (List Char) :=
        match known.lookup name with
        | some v => some (v.getD [])
        | none => (outside.lookup name).map (·.toList)
      setEntry known (String.ofList name) (v.map fun v => expand valueOf? v.length v))
    []

end Rejoin.DotEnv
