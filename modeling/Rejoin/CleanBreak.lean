/-!
Clean places to break a text that was cut off: behind the last sentence, else behind the last
paragraph, else behind the last line. A paragraph or line break at the very start of a text is no
place to break, since nothing stands before it.
-/

namespace Rejoin

/-- The characters that end a sentence, in Latin and in Chinese, Japanese and Korean text. The
    enumeration comma is among them. -/
def sentenceTerminators : List Char := ['.', '!', '?', '。', '、', '！', '？']

/-- The last index at which the rest of the text satisfies a condition. -/
def lastIndex? (p : List Char → Bool) : List Char → Option Nat
  | [] => none
  | c :: rest =>
    match lastIndex? p rest with
    | some i => some (i + 1)
    | none => if p (c :: rest) then some 0 else none

namespace CleanBreak

/-- Whether a text starts with one of the terminators. -/
def atTerminator (terminators : List Char) : List Char → Bool
  | [] => false
  | c :: _ => terminators.contains c

/-- Whether a text starts with a line feed. -/
def atLine : List Char → Bool
  | '\n' :: _ => true
  | _ => false

/-- Whether a text starts with two line feeds. -/
def atParagraph : List Char → Bool
  | '\n' :: '\n' :: _ => true
  | _ => false

/-- The place behind the last break of the given width, unless that break is at the start. -/
def behind? (p : List Char → Bool) (width : Nat) (t : List Char) : Option Nat :=
  match lastIndex? p t with
  | some (i + 1) => some (i + 1 + width)
  | _ => none

/-- The length of the longest prefix that ends cleanly: with a terminator, else with a paragraph
    break, else with a line break. There is none if the text has no such break. -/
def find? (terminators : List Char) (t : List Char) : Option Nat :=
  match lastIndex? (atTerminator terminators) t with
  | some i => some (i + 1)
  | none =>
    match behind? atParagraph 2 t with
    | some n => some n
    | none => behind? atLine 1 t

end CleanBreak

end Rejoin
