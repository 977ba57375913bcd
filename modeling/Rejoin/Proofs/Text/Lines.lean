import Rejoin.Proofs.Text.Trim
import Rejoin.Text.Lines

/-!
Where the lines of a text stand: the first one at its start, and every other one behind a character
that ends a line. And what is added to the lines of a text by what stands behind it: a line feed
ends the last one, and blanks of all kinds write nothing.
-/

namespace Rejoin.Text

variable {c : Char} {t rest line : List Char}

theorem head?_consToFirst (c : Char) (ls : List (List Char)) :
    (consToFirst c ls).head? = some (c :: ls.head?.getD []) := by
  cases ls <;> rfl

theorem tail_consToFirst (c : Char) (ls : List (List Char)) :
    (consToFirst c ls).tail = ls.tail := by
  cases ls <;> rfl

/-- The lines of a text that does not start with the two characters that end a line together. -/
theorem lines_cons (hpair : ∀ rest', c = '\r' → rest = '\n' :: rest' → False) :
    lines (c :: rest) = if isLineEnd c then [] :: lines rest else consToFirst c (lines rest) := by
  rw [lines.eq_def]
  split
  · next h => cases h
  · next h =>
    cases h
    exact (hpair _ rfl rfl).elim
  · next h =>
    cases h
    rfl

/-- The first line stands at the start of the text. -/
theorem prefix_of_head?_lines (hline : (lines t).head? = some line) : line <+: t := by
  induction t using lines.induct generalizing line with
  | case1 => cases hline
  | case2 rest =>
    cases hline
    exact List.nil_prefix
  | case3 c rest hpair hend =>
    rw [lines_cons hpair, if_pos hend] at hline
    cases hline
    exact List.nil_prefix
  | case4 c rest hpair hend ih =>
    rw [lines_cons hpair, if_neg hend, head?_consToFirst] at hline
    cases hline
    rw [List.cons_prefix_cons]
    cases hfirst : (lines rest).head? with
    | none => exact ⟨rfl, List.nil_prefix⟩
    | some first => exact ⟨rfl, ih hfirst⟩

theorem prefix_or_mem_tail_of_mem_lines (hline : line ∈ lines t) :
    line <+: t ∨ line ∈ (lines t).tail := by
  cases hlines : lines t with
  | nil =>
    rw [hlines] at hline
    cases hline
  | cons first others =>
    rw [hlines] at hline
    obtain rfl | hother := List.mem_cons.1 hline
    · exact .inl (prefix_of_head?_lines (by rw [hlines]; rfl))
    · exact .inr hother

/-- Whether a text stands somewhere in another behind a character that ends a line. -/
def StandsBehindEnd (line t : List Char) : Prop := ∃ c, isLineEnd c = true ∧ c :: line <:+: t

theorem StandsBehindEnd.cons (hline : StandsBehindEnd line rest) (c : Char) :
    StandsBehindEnd line (c :: rest) := by
  obtain ⟨d, hend, hinside⟩ := hline
  exact ⟨d, hend, hinside.trans (List.suffix_cons c rest).isInfix⟩

/-- The lines of what follows a line end all stand behind one. -/
theorem StandsBehindEnd.of_mem_lines (hend : isLineEnd c = true)
    (htail : line ∈ (lines rest).tail → StandsBehindEnd line rest) (hline : line ∈ lines rest) :
    StandsBehindEnd line (c :: rest) := by
  obtain hfirst | hother := prefix_or_mem_tail_of_mem_lines hline
  · exact ⟨c, hend, (List.cons_prefix_cons.2 ⟨rfl, hfirst⟩).isInfix⟩
  · exact (htail hother).cons c

/-- Every line but the first stands behind a character that ends a line. -/
theorem standsBehindEnd_of_mem_tail_lines (hline : line ∈ (lines t).tail) :
    StandsBehindEnd line t := by
  induction t using lines.induct with
  | case1 => cases hline
  | case2 rest ih => exact (StandsBehindEnd.of_mem_lines rfl ih hline).cons '\r'
  | case3 c rest hpair hend ih =>
    rw [lines_cons hpair, if_pos hend] at hline
    exact .of_mem_lines hend ih hline
  | case4 c rest hpair hend ih =>
    rw [lines_cons hpair, if_neg hend, tail_consToFirst] at hline
    exact (ih hline).cons c

/-- A line stands at the start of the text or behind a character that ends a line. -/
theorem prefix_or_standsBehindEnd_of_mem_lines (hline : line ∈ lines t) :
    line <+: t ∨ StandsBehindEnd line t :=
  (prefix_or_mem_tail_of_mem_lines hline).imp_right standsBehindEnd_of_mem_tail_lines

theorem infix_of_mem_lines (hline : line ∈ lines t) : line <:+: t := by
  obtain hfirst | ⟨c, _, hbehind⟩ := prefix_or_standsBehindEnd_of_mem_lines hline
  · exact hfirst.isInfix
  · exact (List.suffix_cons c line).isInfix.trans hbehind

section Newline

theorem consToFirst_append {ls : List (List Char)} (c : Char) (hne : ls ≠ [])
    (ms : List (List Char)) : consToFirst c (ls ++ ms) = consToFirst c ls ++ ms := by
  cases ls with
  | nil => exact absurd rfl hne
  | cons first others => rfl

theorem lines_ne_nil (hne : t ≠ []) : lines t ≠ [] := by
  rw [lines.eq_def]
  split
  · exact absurd rfl hne
  · nofun
  · split
    · nofun
    · next c rest _ _ =>
      cases lines rest <;> nofun

/-- A line feed ends the last line of the text before it. If that line is ended already there is one
    more, an empty one, unless a carriage return stands before the line feed and the two end it
    together. -/
theorem lines_append_newline (t rest : List Char) :
    lines (t ++ '\n' :: rest) = lines t ++ lines rest ∨
      lines (t ++ '\n' :: rest) = lines t ++ [] :: lines rest := by
  induction t using lines.induct with
  | case1 => exact .inr rfl
  | case2 u ih => exact ih.imp (congrArg ([] :: ·)) (congrArg ([] :: ·))
  | case3 c u hpair hend ih =>
    rw [lines_cons hpair, if_pos hend]
    by_cases hreturn : c = '\r' ∧ u = []
    · -- the line feed is the second half of a line end that the text already has
      obtain ⟨rfl, rfl⟩ := hreturn
      exact .inl rfl
    · have hpair' (v : List Char) (hc : c = '\r') (hv : u ++ '\n' :: rest = '\n' :: v) : False := by
        cases u with
        | nil => exact hreturn ⟨hc, rfl⟩
        | cons b u =>
          cases hv
          exact hpair u hc rfl
      rw [List.cons_append, lines_cons hpair', if_pos hend]
      exact ih.imp (congrArg ([] :: ·)) (congrArg ([] :: ·))
  | case4 c u hpair hend ih =>
    have hreturn : c ≠ '\r' := by
      rintro rfl
      exact hend rfl
    rw [List.cons_append, lines_cons fun _ hc _ => hreturn hc, lines_cons hpair, if_neg hend,
      if_neg hend]
    cases u with
    | nil => exact .inl rfl
    | cons b u =>
      have hne := lines_ne_nil (List.cons_ne_nil b u)
      rw [← consToFirst_append c hne, ← consToFirst_append c hne]
      exact ih.imp (congrArg (consToFirst c)) (congrArg (consToFirst c))

end Newline

section Blanks

/-- What is written on some lines: each line without the blanks at its end, if it is not blank. -/
def written (ls : List (List Char)) : List (List Char) := (ls.map trimRight).filter (!·.isEmpty)

theorem written_cons (line : List Char) (ls : List (List Char)) :
    written (line :: ls) = written [line] ++ written ls :=
  List.filter_append [trimRight line] (ls.map trimRight)

theorem written_eq_headD_append_tail (ls : List (List Char)) :
    written ls = written [ls.headD []] ++ written ls.tail := by
  cases ls with
  | nil => rfl
  | cons line ls => exact written_cons line ls

theorem written_singleton_congr {line line' : List Char}
    (htrim : trimRight line = trimRight line') : written [line] = written [line'] := by
  rw [written, written, List.map_singleton, List.map_singleton, htrim]

theorem headD_consToFirst (c : Char) (ls : List (List Char)) :
    (consToFirst c ls).headD [] = c :: ls.headD [] := by
  cases ls <;> rfl

variable {w : List Char}

theorem all_isBlank_of_mem_lines (hw : w.all isBlank = true) (hline : line ∈ lines w) :
    line.all isBlank = true := by
  rw [List.all_eq_true] at hw ⊢
  exact fun c hc => hw c ((infix_of_mem_lines hline).subset hc)

/-- Nothing is written on the lines of a blank text. -/
theorem written_eq_nil {ls : List (List Char)} (hls : ∀ line ∈ ls, line.all isBlank = true) :
    written ls = [] := by
  rw [written, List.filter_eq_nil_iff]
  intro trimmed htrimmed
  obtain ⟨line, hline, rfl⟩ := List.mem_map.1 htrimmed
  rw [trimRight_of_all_isBlank (hls line hline)]
  exact Bool.false_ne_true

/-- Whether two lists of lines say the same: their first lines do, which may each be the rest of a
    line that starts before, and so do the others. -/
structure SameWriting (ls ms : List (List Char)) : Prop where
  first : trimRight (ls.headD []) = trimRight (ms.headD [])
  others : written ls.tail = written ms.tail

theorem SameWriting.written_eq {ls ms : List (List Char)} (hsame : SameWriting ls ms) :
    written ls = written ms := by
  rw [written_eq_headD_append_tail ls, written_eq_headD_append_tail ms, hsame.others,
    written_singleton_congr hsame.first]

/-- Blanks behind a text add nothing that is written, whichever lines they end: they go on with its
    last line, and all further lines are blank. -/
theorem sameWriting_lines_append (hw : w.all isBlank = true) (t : List Char) :
    SameWriting (lines (t ++ w)) (lines t) := by
  induction t using lines.induct with
  | case1 =>
    have hblank : ∀ line ∈ lines w, line.all isBlank = true :=
      fun line => all_isBlank_of_mem_lines hw
    rw [List.nil_append]
    refine ⟨?_, written_eq_nil fun line hline => hblank line (List.mem_of_mem_tail hline)⟩
    cases hlines : lines w with
    | nil => rfl
    | cons first others =>
      exact trimRight_of_all_isBlank (hblank first (by rw [hlines]; exact List.mem_cons_self))
  | case2 u ih => exact ⟨rfl, ih.written_eq⟩
  | case3 c u hpair hend ih =>
    rw [lines_cons hpair, if_pos hend]
    by_cases hreturn : c = '\r' ∧ u = [] ∧ w.head? = some '\n'
    · -- the blanks start with the second half of a line end, which is only ended once
      obtain ⟨rfl, rfl, hfeed⟩ := hreturn
      obtain ⟨w', rfl⟩ := List.head?_eq_some_iff.1 hfeed
      exact ⟨rfl, ih.written_eq⟩
    · have hpair' (v : List Char) (hc : c = '\r') (hv : u ++ w = '\n' :: v) : False := by
        cases u with
        | nil => exact hreturn ⟨hc, rfl, by rw [← List.nil_append w, hv]; rfl⟩
        | cons b u =>
          cases hv
          exact hpair u hc rfl
      rw [List.cons_append, lines_cons hpair', if_pos hend]
      exact ⟨rfl, ih.written_eq⟩
  | case4 c u hpair hend ih =>
    have hreturn : c ≠ '\r' := by
      rintro rfl
      exact hend rfl
    rw [List.cons_append, lines_cons fun _ hc _ => hreturn hc, lines_cons hpair, if_neg hend,
      if_neg hend]
    refine ⟨?_, ?_⟩
    · rw [headD_consToFirst, headD_consToFirst]
      exact trimRight_cons_congr ih.first c
    · rw [tail_consToFirst, tail_consToFirst]
      exact ih.others

end Blanks

end Rejoin.Text
