import Mathlib.Order.Bounds.Basic
import Rejoin.CleanBreak

/-!
Where a text breaks cleanly. The search from the end finds the last index of each kind of break, and
the kinds are tried in the order of preference. Since a break is the last of its kind, the text that
is cut there has no other one behind it, and none of a kind that is preferred: it breaks cleanly at
its very end.
-/

namespace Rejoin

section LastIndex

variable {p : List Char → Bool} {t : List Char}

theorem lastIndex?_eq_none_iff : lastIndex? p t = none ↔ ∀ i < t.length, p (t.drop i) = false := by
  induction t with
  | nil => simp [lastIndex?]
  | cons c rest ih =>
    have hsplit : (∀ i < (c :: rest).length, p ((c :: rest).drop i) = false) ↔
        p (c :: rest) = false ∧ ∀ i < rest.length, p (rest.drop i) = false := by
      rw [List.length_cons, Nat.forall_lt_succ_left]
      rfl
    rw [hsplit, lastIndex?, ← ih]
    cases lastIndex? p rest <;> simp

/-- The search from the end finds the greatest index at which the condition holds. -/
theorem isGreatest_of_lastIndex? {i : Nat} (hlast : lastIndex? p t = some i) :
    IsGreatest {j | j < t.length ∧ p (t.drop j) = true} i := by
  induction t generalizing i with
  | nil => cases hlast
  | cons c rest ih =>
    rw [lastIndex?] at hlast
    cases hrest : lastIndex? p rest with
    | some k =>
      rw [hrest] at hlast
      cases hlast
      obtain ⟨⟨hlength, hholds⟩, hgreatest⟩ := ih hrest
      refine ⟨⟨Nat.succ_lt_succ hlength, hholds⟩, fun j hj => ?_⟩
      cases j with
      | zero => exact Nat.zero_le _
      | succ j => exact Nat.succ_le_succ (hgreatest ⟨Nat.lt_of_succ_lt_succ hj.1, hj.2⟩)
    | none =>
      rw [hrest] at hlast
      obtain ⟨hholds, rfl⟩ : p (c :: rest) = true ∧ 0 = i := by simpa using hlast
      refine ⟨⟨Nat.succ_pos _, hholds⟩, fun j hj => ?_⟩
      cases j with
      | zero => exact Nat.le_refl 0
      | succ j =>
        have hnone := lastIndex?_eq_none_iff.1 hrest j (Nat.lt_of_succ_lt_succ hj.1)
        exact absurd (hj.2.symm.trans hnone) (by decide)

/-- The search finds the greatest index of a kind, or there is no index of that kind. -/
theorem lastIndex?_cases {P : Nat → Prop} (hP : ∀ j, j < t.length ∧ p (t.drop j) = true ↔ P j) :
    (∃ i, lastIndex? p t = some i ∧ IsGreatest {j | P j} i) ∨
      lastIndex? p t = none ∧ ∀ j, ¬ P j := by
  cases hlast : lastIndex? p t with
  | some i =>
    have hgreatest := isGreatest_of_lastIndex? hlast
    simp only [hP] at hgreatest
    exact .inl ⟨i, rfl, hgreatest⟩
  | none =>
    refine .inr ⟨rfl, fun j hj => ?_⟩
    obtain ⟨hlength, hholds⟩ := (hP j).2 hj
    exact absurd (hholds.symm.trans (lastIndex?_eq_none_iff.1 hlast j hlength)) (by decide)

end LastIndex

namespace CleanBreak

variable {terminators t : List Char} {i n : Nat}

/-- Whether a sentence ends with the character at an index. -/
def SentenceEndsAt (terminators t : List Char) (i : Nat) : Prop := ∃ c ∈ terminators, t[i]? = some c

/-- Whether a line ends at an index, and is not the very start of the text. -/
def LineEndsAt (t : List Char) (i : Nat) : Prop := 0 < i ∧ t[i]? = some '\n'

/-- Whether a paragraph ends with the two line feeds that start at an index, and is not the very
    start of the text. -/
def ParagraphEndsAt (t : List Char) (i : Nat) : Prop :=
  0 < i ∧ t[i]? = some '\n' ∧ t[i + 1]? = some '\n'

/-- The place behind the last break of the kind that is preferred among those a text has. -/
inductive BreaksAt (terminators t : List Char) : Nat → Prop where
  | sentence {i : Nat} (hlast : IsGreatest {j | SentenceEndsAt terminators t j} i) :
      BreaksAt terminators t (i + 1)
  | paragraph {i : Nat} (hsentence : ∀ j, ¬ SentenceEndsAt terminators t j)
      (hlast : IsGreatest {j | ParagraphEndsAt t j} i) : BreaksAt terminators t (i + 2)
  | line {i : Nat} (hsentence : ∀ j, ¬ SentenceEndsAt terminators t j)
      (hparagraph : ∀ j, ¬ ParagraphEndsAt t j) (hlast : IsGreatest {j | LineEndsAt t j} i) :
      BreaksAt terminators t (i + 1)

section Search

theorem atTerminator_eq_true_iff :
    atTerminator terminators t = true ↔ ∃ c ∈ terminators, t[0]? = some c := by
  cases t <;> simp [atTerminator]

theorem atLine_eq_true_iff : atLine t = true ↔ t[0]? = some '\n' := by
  cases t with
  | nil => simp [atLine]
  | cons c rest => by_cases hc : c = '\n' <;> simp [atLine, hc]

theorem atParagraph_eq_true_iff :
    atParagraph t = true ↔ t[0]? = some '\n' ∧ t[1]? = some '\n' := by
  cases t with
  | nil => simp [atParagraph]
  | cons c rest =>
    cases rest with
    | nil => simp [atParagraph]
    | cons d rest => by_cases hc : c = '\n' <;> by_cases hd : d = '\n' <;> simp [atParagraph, hc, hd]

/-- The search for a break that is not the very start of the text. -/
theorem behind?_cases {p : List Char → Bool} {P : Nat → Prop}
    (hP : ∀ j, j < t.length ∧ p (t.drop j) = true ↔ P j) (width : Nat) :
    (∃ i, behind? p width t = some (i + width) ∧ IsGreatest {j | 0 < j ∧ P j} i) ∨
      behind? p width t = none ∧ ∀ j, ¬ (0 < j ∧ P j) := by
  obtain ⟨i, hlast, hi, hgreatest⟩ | ⟨hnone, hnot⟩ := lastIndex?_cases hP
  · cases i with
    | zero =>
      refine .inr ⟨by rw [behind?, hlast], fun j hj => ?_⟩
      exact absurd hj.1 (Nat.not_lt.2 (hgreatest hj.2))
    | succ i =>
      exact .inl ⟨i + 1, by rw [behind?, hlast], ⟨Nat.succ_pos i, hi⟩, fun j hj => hgreatest hj.2⟩
  · exact .inr ⟨by rw [behind?, hnone], fun j hj => hnot j hj.2⟩

/-- The search finds the place that is preferred, or the text has no break of any kind. -/
theorem find?_cases (terminators t : List Char) :
    (∃ n, find? terminators t = some n ∧ BreaksAt terminators t n) ∨
      find? terminators t = none ∧ (∀ j, ¬ SentenceEndsAt terminators t j) ∧
        ∀ j, ¬ LineEndsAt t j := by
  have hsentence (j : Nat) : j < t.length ∧ atTerminator terminators (t.drop j) = true ↔
      SentenceEndsAt terminators t j := by
    rw [atTerminator_eq_true_iff, List.getElem?_drop, Nat.add_zero]
    exact and_iff_right_of_imp fun ⟨_, _, hj⟩ => (List.getElem?_eq_some_iff.1 hj).1
  have hline (j : Nat) : j < t.length ∧ atLine (t.drop j) = true ↔ t[j]? = some '\n' := by
    rw [atLine_eq_true_iff, List.getElem?_drop, Nat.add_zero]
    exact and_iff_right_of_imp fun hj => (List.getElem?_eq_some_iff.1 hj).1
  have hparagraph (j : Nat) : j < t.length ∧ atParagraph (t.drop j) = true ↔
      t[j]? = some '\n' ∧ t[j + 1]? = some '\n' := by
    rw [atParagraph_eq_true_iff, List.getElem?_drop, List.getElem?_drop, Nat.add_zero]
    exact and_iff_right_of_imp fun hj => (List.getElem?_eq_some_iff.1 hj.1).1
  unfold find?
  obtain ⟨i, hfound, hlast⟩ | ⟨hnone, hsentences⟩ := lastIndex?_cases hsentence
  · rw [hfound]
    exact .inl ⟨_, rfl, .sentence hlast⟩
  rw [hnone]
  obtain ⟨i, hfound, hlast⟩ | ⟨hnone, hparagraphs⟩ := behind?_cases hparagraph 2
  · rw [hfound]
    exact .inl ⟨_, rfl, .paragraph hsentences hlast⟩
  rw [hnone]
  obtain ⟨i, hfound, hlast⟩ | ⟨hnone, hlines⟩ := behind?_cases hline 1
  · exact .inl ⟨_, hfound, .line hsentences hparagraphs hlast⟩
  · exact .inr ⟨hnone, hsentences, hlines⟩

end Search

section Breaks

/-- A paragraph ends with the end of a line. -/
theorem ParagraphEndsAt.lineEndsAt (h : ParagraphEndsAt t i) : LineEndsAt t (i + 1) :=
  ⟨Nat.succ_pos i, h.2.2⟩

theorem BreaksAt.exists_end (h : BreaksAt terminators t n) :
    (∃ j, SentenceEndsAt terminators t j) ∨ ∃ j, LineEndsAt t j := by
  cases h with
  | sentence hlast => exact .inl ⟨_, hlast.1⟩
  | paragraph _ hlast => exact .inr ⟨_, ParagraphEndsAt.lineEndsAt hlast.1⟩
  | line _ _ hlast => exact .inr ⟨_, hlast.1⟩

/-- A text is preferred to be broken in one place. -/
theorem BreaksAt.unique {m : Nat} (hn : BreaksAt terminators t n) (hm : BreaksAt terminators t m) :
    n = m := by
  cases hn with
  | sentence hlast =>
    cases hm with
    | sentence hother => rw [hlast.unique hother]
    | paragraph hnone | line hnone => exact absurd hlast.1 (hnone _)
  | paragraph hnone hlast =>
    cases hm with
    | sentence hother => exact absurd hother.1 (hnone _)
    | paragraph _ hother => rw [hlast.unique hother]
    | line _ hnone => exact absurd hlast.1 (hnone _)
  | line hnone hparagraph hlast =>
    cases hm with
    | sentence hother => exact absurd hother.1 (hnone _)
    | paragraph _ hother => exact absurd hother.1 (hparagraph _)
    | line _ _ hother => rw [hlast.unique hother]

theorem BreaksAt.bounds (h : BreaksAt terminators t n) : 0 < n ∧ n ≤ t.length := by
  have hlength {j : Nat} {c : Char} (hj : t[j]? = some c) : j + 1 ≤ t.length :=
    (List.getElem?_eq_some_iff.1 hj).1
  cases h with
  | sentence hlast =>
    obtain ⟨c, _, hc⟩ := hlast.1
    exact ⟨Nat.succ_pos _, hlength hc⟩
  | paragraph _ hlast => exact ⟨Nat.succ_pos _, hlength hlast.1.2.2⟩
  | line _ _ hlast => exact ⟨Nat.succ_pos _, hlength hlast.1.2⟩

/-- The character at an index of a text that is cut off, which is one of the whole text. -/
theorem getElem?_of_take {c : Char} (hc : (t.take n)[i]? = some c) : t[i]? = some c := by
  rw [List.getElem?_take] at hc
  split at hc
  · exact hc
  · cases hc

theorem SentenceEndsAt.of_take (h : SentenceEndsAt terminators (t.take n) i) :
    SentenceEndsAt terminators t i := by
  obtain ⟨c, hmem, hc⟩ := h
  exact ⟨c, hmem, getElem?_of_take hc⟩

theorem LineEndsAt.of_take (h : LineEndsAt (t.take n) i) : LineEndsAt t i :=
  ⟨h.1, getElem?_of_take h.2⟩

theorem ParagraphEndsAt.of_take (h : ParagraphEndsAt (t.take n) i) : ParagraphEndsAt t i :=
  ⟨h.1, getElem?_of_take h.2.1, getElem?_of_take h.2.2⟩

/-- What is greatest in a text is greatest in a text that is cut off behind it. -/
theorem isGreatest_take {P : List Char → Nat → Prop} (hP : ∀ {j}, P (t.take n) j → P t j)
    (hlast : IsGreatest {j | P t j} i) (hi : P (t.take n) i) :
    IsGreatest {j | P (t.take n) j} i :=
  ⟨hi, fun _ hj => hlast.2 (hP hj)⟩

/-- The text that is cut at its preferred place breaks at its end. -/
theorem BreaksAt.take (h : BreaksAt terminators t n) : BreaksAt terminators (t.take n) n := by
  cases h with
  | @sentence i hlast =>
    obtain ⟨c, hmem, hc⟩ := hlast.1
    refine .sentence (isGreatest_take SentenceEndsAt.of_take hlast ⟨c, hmem, ?_⟩)
    rw [List.getElem?_take_of_lt (Nat.lt_succ_self i)]
    exact hc
  | @paragraph i hnone hlast =>
    obtain ⟨hpos, hfirst, hsecond⟩ := hlast.1
    refine .paragraph (fun j hj => hnone j hj.of_take)
      (isGreatest_take ParagraphEndsAt.of_take hlast ⟨hpos, ?_, ?_⟩)
    · rw [List.getElem?_take_of_lt (by omega)]
      exact hfirst
    · rw [List.getElem?_take_of_lt (by omega)]
      exact hsecond
  | @line i hnone hparagraph hlast =>
    refine .line (fun j hj => hnone j hj.of_take) (fun j hj => hparagraph j hj.of_take)
      (isGreatest_take LineEndsAt.of_take hlast ⟨hlast.1.1, ?_⟩)
    rw [List.getElem?_take_of_lt (Nat.lt_succ_self i)]
    exact hlast.1.2

theorem find?_eq_some_iff_breaksAt :
    find? terminators t = some n ↔ BreaksAt terminators t n := by
  obtain ⟨m, hfound, hbreaks⟩ | ⟨hnone, hsentences, hlines⟩ := find?_cases terminators t
  · rw [hfound, Option.some_inj]
    refine ⟨fun h => h ▸ hbreaks, fun h => hbreaks.unique h⟩
  · rw [hnone]
    refine ⟨nofun, fun h => ?_⟩
    obtain ⟨j, hj⟩ | ⟨j, hj⟩ := h.exists_end
    · exact absurd hj (hsentences j)
    · exact absurd hj (hlines j)

end Breaks

/-- The search finds the place behind the last sentence, else behind the last paragraph, else behind
the last line, and nothing exactly if the text has neither a sentence nor, behind its first character,
a line feed. The place is in the text and not at its start, and the text that is cut there breaks
there. -/
theorem find?_last_preferred_and_stable (terminators t : List Char) :
    (∀ n, find? terminators t = some n ↔ BreaksAt terminators t n) ∧
    (find? terminators t = none ↔
      (∀ i, ¬ SentenceEndsAt terminators t i) ∧ ∀ i, ¬ LineEndsAt t i) ∧
    ∀ n, find? terminators t = some n →
      0 < n ∧ n ≤ t.length ∧ find? terminators (t.take n) = some n := by
  refine ⟨fun n => find?_eq_some_iff_breaksAt, ?_, fun n hn => ?_⟩
  · obtain ⟨n, hfound, hbreaks⟩ | ⟨hnone, hnot⟩ := find?_cases terminators t
    · rw [hfound]
      refine ⟨nofun, fun ⟨hsentences, hlines⟩ => ?_⟩
      obtain ⟨j, hj⟩ | ⟨j, hj⟩ := hbreaks.exists_end
      · exact absurd hj (hsentences j)
      · exact absurd hj (hlines j)
    · exact ⟨fun _ => hnot, fun _ => hnone⟩
  · have hbreaks := find?_eq_some_iff_breaksAt.1 hn
    obtain ⟨hpos, hlength⟩ := hbreaks.bounds
    exact ⟨hpos, hlength, find?_eq_some_iff_breaksAt.2 hbreaks.take⟩

/-- Three line feeds overlap in two paragraph ends, of which the second counts. A paragraph end at the
very start is none, but its second line feed ends a line. -/
example : find? sentenceTerminators ['a', '\n', '\n', '\n', 'b'] = some 4 ∧
    find? sentenceTerminators ['\n', '\n', 'b'] = some 2 := by decide

end CleanBreak

end Rejoin
