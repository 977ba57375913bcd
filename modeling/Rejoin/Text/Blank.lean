import Rejoin.Text.CharClass

/-!
Blank characters and the trimming of text. A character is blank when Unicode counts it as white
space or as a separator between lines, paragraphs or fields; the zero-width space and the byte
order mark are not blank. Trimming removes the longest blank run at an end of the text and
nothing else.
-/

namespace Rejoin.Text

/-- The blank characters: the line and field separators among the controls, and every space of
    Unicode that takes up room. -/
def blanks : CharClass where
  ranges := [(0x09, 0x0D), (0x1C, 0x20), (0x85, 0x85), (0xA0, 0xA0), (0x1680, 0x1680),
    (0x2000, 0x200A), (0x2028, 0x2029), (0x202F, 0x202F), (0x205F, 0x205F), (0x3000, 0x3000)]

/-- Whether a character is blank. -/
def isBlank (c : Char) : Bool := blanks.contains c

/-- The text without its leading blanks. -/
def trimLeft (t : List Char) : List Char := t.dropWhile isBlank

/-- The text without its trailing blanks. -/
def trimRight (t : List Char) : List Char := (t.reverse.dropWhile isBlank).reverse

/-- The text without the blanks at either end. -/
def trim (t : List Char) : List Char := trimRight (trimLeft t)

@[simp] theorem trimLeft_nil : trimLeft [] = [] := rfl

@[simp] theorem trimRight_nil : trimRight [] = [] := rfl

@[simp] theorem trim_nil : trim [] = [] := rfl

/-- A text is its trimmed form followed by the blanks that trimming took off its end. -/
theorem trimRight_append_blanks (t : List Char) :
    trimRight t ++ (t.reverse.takeWhile isBlank).reverse = t := by
  rw [trimRight, ← List.reverse_append, List.takeWhile_append_dropWhile, List.reverse_reverse]

/-- A text is the blanks that trimming took off its front followed by its trimmed form. -/
theorem blanks_append_trimLeft (t : List Char) : t.takeWhile isBlank ++ trimLeft t = t :=
  List.takeWhile_append_dropWhile

end Rejoin.Text
