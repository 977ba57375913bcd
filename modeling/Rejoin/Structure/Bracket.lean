/-!
Brackets, the dialects that decide which brackets and quotation marks count, and tallies of how
many brackets of each kind are open.
-/

namespace Rejoin.Structure

/-- The kinds of bracket that structured text is made of. -/
inductive Bracket where
  | brace
  | square
  | round
  deriving DecidableEq, Repr

namespace Bracket

/-- The character that opens a bracket. -/
def opener : Bracket → Char
  | brace => '{'
  | square => '['
  | round => '('

/-- The character that closes a bracket. -/
def closer : Bracket → Char
  | brace => '}'
  | square => ']'
  | round => ')'

/-- The bracket that a character opens, if it opens one. -/
def ofOpener? : Char → Option Bracket
  | '{' => some brace
  | '[' => some square
  | '(' => some round
  | _ => none

@[simp] theorem ofOpener?_opener (b : Bracket) : ofOpener? b.opener = some b := by
  cases b <;> rfl

theorem opener_ne_closer (a b : Bracket) : a.opener ≠ b.closer := by
  cases a <;> cases b <;> decide

theorem closer_injective {a b : Bracket} (h : a.closer = b.closer) : a = b := by
  cases a <;> cases b <;> first | rfl | exact absurd h (by decide)

end Bracket

/-- What a scan pays attention to: the characters that delimit strings, and the brackets whose
    nesting it follows. -/
structure Dialect where
  quotes : List Char
  brackets : List Bracket

namespace Dialect

/-- Prose and program text: both quotation marks delimit strings and all brackets nest. -/
def prose : Dialect := ⟨['"', '\''], [.brace, .square, .round]⟩

/-- JSON text: only the double quotation mark delimits strings, and only braces and square brackets
    nest. -/
def json : Dialect := ⟨['"'], [.brace, .square]⟩

/-- The dialect with the given string delimiters and opening brackets. A character that opens no
    bracket is refused and named. A bracket that is listed twice counts once. -/
def ofChars (quotes openers : List Char) : Except Char Dialect := do
  let brackets ← openers.mapM fun c => (Bracket.ofOpener? c).elim (.error c) .ok
  return ⟨quotes, brackets.eraseDups⟩

/-- The followed bracket that a character opens. -/
def opens? (d : Dialect) (c : Char) : Option Bracket := d.brackets.find? (·.opener = c)

/-- The followed bracket that a character closes. -/
def closes? (d : Dialect) (c : Char) : Option Bracket := d.brackets.find? (·.closer = c)

end Dialect

/-- How many brackets of each kind are open: one more for each opening, one less for each closing,
    so that a kind closed more often than opened has a negative count. -/
abbrev Tally (κ : Type) := List (κ × Int)

namespace Tally

variable {κ : Type}

/-- The tally of the given kinds before anything was counted. -/
def zero (kinds : List κ) : Tally κ := kinds.map (·, 0)

/-- The tally after a change in the count of one kind. Kinds that are not counted stay so. -/
def change [DecidableEq κ] (t : Tally κ) (kind : κ) (amount : Int) : Tally κ :=
  t.map fun (k, n) => if k = kind then (k, n + amount) else (k, n)

/-- The count of one kind; zero for a kind that is not counted. -/
def count [DecidableEq κ] (t : Tally κ) (kind : κ) : Int := (t.lookup kind).getD 0

/-- The kinds that were opened more often than closed. -/
def unclosed (t : Tally κ) : Tally κ := t.filter (0 < ·.2)

/-- Whether no kind was opened more often than closed. -/
def isBalanced (t : Tally κ) : Bool := t.unclosed.isEmpty

end Tally

end Rejoin.Structure
