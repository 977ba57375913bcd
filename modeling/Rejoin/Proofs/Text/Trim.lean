import Mathlib.Data.List.TakeWhile
import Rejoin.Text.Blank

/-!
What trimming leaves: a text is its trimmed form between two runs of blanks, and a part that starts
and ends with other characters is never cut.
-/

namespace Rejoin.Text

/-- A text is its trimmed form with a run of blanks on either side. -/
theorem exists_blanks_around_trim (t : List Char) :
    ∃ before after, before.all isBlank = true ∧ after.all isBlank = true ∧
      t = before ++ trim t ++ after := by
  refine ⟨t.takeWhile isBlank, ((trimLeft t).reverse.takeWhile isBlank).reverse,
    List.all_takeWhile, ?_, ?_⟩
  · rw [List.all_reverse]
    exact List.all_takeWhile
  · rw [List.append_assoc, trim, trimRight_append_blanks, blanks_append_trimLeft]

/-- Blanks behind a text are trimmed off with its own. -/
theorem trimRight_append_of_all_isBlank {w : List Char} (hw : w.all isBlank = true)
    (t : List Char) : trimRight (t ++ w) = trimRight t := by
  have hdrop : w.reverse.dropWhile isBlank = [] :=
    List.dropWhile_eq_nil_iff.2 fun c hc => List.all_eq_true.1 hw c (List.mem_reverse.1 hc)
  rw [trimRight, trimRight, List.reverse_append, List.dropWhile_append, hdrop]
  rfl

theorem trimRight_of_all_isBlank {w : List Char} (hw : w.all isBlank = true) :
    trimRight w = [] := trimRight_append_of_all_isBlank hw []

theorem trimRight_trimRight (t : List Char) : trimRight (trimRight t) = trimRight t := by
  have hblanks : ((t.reverse.takeWhile isBlank).reverse).all isBlank = true := by
    rw [List.all_reverse]
    exact List.all_takeWhile
  have htrim := trimRight_append_of_all_isBlank hblanks (trimRight t)
  rw [trimRight_append_blanks] at htrim
  exact htrim.symm

theorem trimRight_cons_congr {t u : List Char} (htrim : trimRight t = trimRight u) (c : Char) :
    trimRight (c :: t) = trimRight (c :: u) := by
  rw [trimRight, trimRight, List.reverse_inj] at htrim
  rw [trimRight, trimRight, List.reverse_cons, List.reverse_cons, List.dropWhile_append,
    List.dropWhile_append, htrim]

/-- Trimming the end of a text cannot reach behind a character that is not blank. -/
theorem trimRight_append {p : List Char} {last : Char} (hlast : p.getLast? = some last)
    (hblank : isBlank last = false) (w : List Char) : trimRight (p ++ w) = p ++ trimRight w := by
  obtain ⟨init, rfl⟩ := List.getLast?_eq_some_iff.1 hlast
  unfold trimRight
  rw [List.reverse_append, List.dropWhile_append]
  split
  · next hw =>
    simp only [List.isEmpty_iff] at hw
    simp [hw, hblank]
  · simp

theorem trimLeft_append {p : List Char} {first : Char} (hfirst : p.head? = some first)
    (hblank : isBlank first = false) (w : List Char) : trimLeft (p ++ w) = p ++ w := by
  cases p with
  | nil => cases hfirst
  | cons c rest =>
    cases hfirst
    exact List.dropWhile_cons_of_neg (by simp [hblank])

/-- A text that starts and ends with other characters than blanks outlasts the trimming of whatever
    follows it. -/
theorem trim_append {p : List Char} {first last : Char} (hfirst : p.head? = some first)
    (hlast : p.getLast? = some last) (hbefore : isBlank first = false)
    (hafter : isBlank last = false) (w : List Char) : trim (p ++ w) = p ++ trimRight w := by
  rw [trim, trimLeft_append hfirst hbefore, trimRight_append hlast hafter]

/-- A trimmed text starts with a character that is not blank. -/
theorem not_isBlank_of_trim_eq_cons {t rest : List Char} {first : Char}
    (htrim : trim t = first :: rest) : isBlank first = false := by
  have hsplit := trimRight_append_blanks (trimLeft t)
  rw [← trim, htrim, List.cons_append] at hsplit
  have hhead := List.head?_dropWhile_not isBlank t
  rw [← trimLeft, ← hsplit] at hhead
  exact hhead

/-- A trimmed text ends with a character that is not blank. -/
theorem not_isBlank_of_getLast?_trim {t : List Char} {last : Char}
    (hlast : (trim t).getLast? = some last) : isBlank last = false := by
  rw [trim, trimRight, List.getLast?_reverse] at hlast
  have hhead := List.head?_dropWhile_not isBlank (trimLeft t).reverse
  rw [hlast] at hhead
  exact hhead

theorem trim_trim (t : List Char) : trim (trim t) = trim t := by
  cases hfirst : (trim t).head? with
  | none =>
    rw [List.head?_eq_none_iff.1 hfirst]
    rfl
  | some first =>
    cases hlast : (trim t).getLast? with
    | none =>
      rw [List.getLast?_eq_none_iff.1 hlast]
      rfl
    | some last =>
      obtain ⟨rest, hcons⟩ := List.head?_eq_some_iff.1 hfirst
      have hkept := trim_append hfirst hlast (not_isBlank_of_trim_eq_cons hcons)
        (not_isBlank_of_getLast?_trim hlast) []
      rw [List.append_nil, trimRight_nil, List.append_nil] at hkept
      exact hkept

/-- Trimming the front of a text cannot reach into a part that starts with a character that is not
    blank. -/
theorem exists_trimLeft_append {p : List Char} {first : Char} (hfirst : p.head? = some first)
    (hblank : isBlank first = false) (v w : List Char) :
    ∃ v', trimLeft (v ++ (p ++ w)) = v' ++ (p ++ w) := by
  rw [trimLeft, List.dropWhile_append]
  split
  · exact ⟨[], trimLeft_append hfirst hblank w⟩
  · exact ⟨_, rfl⟩

/-- Trimming a text leaves the trimmed form of each of its parts. -/
theorem trim_infix_trim {p t : List Char} (hinside : p <:+: t) : trim p <:+: trim t := by
  obtain ⟨v, w, rfl⟩ := hinside
  obtain ⟨before, after, _, _, hp⟩ := exists_blanks_around_trim p
  cases hfirst : (trim p).head? with
  | none =>
    rw [List.head?_eq_none_iff.1 hfirst]
    exact List.nil_infix
  | some first =>
    cases hlast : (trim p).getLast? with
    | none =>
      rw [List.getLast?_eq_none_iff.1 hlast]
      exact List.nil_infix
    | some last =>
      obtain ⟨rest, hcons⟩ := List.head?_eq_some_iff.1 hfirst
      obtain ⟨v', hleft⟩ := exists_trimLeft_append hfirst (not_isBlank_of_trim_eq_cons hcons)
        (v ++ before) (after ++ w)
      have hlast' : (v' ++ trim p).getLast? = some last := by
        rw [List.getLast?_append, hlast, Option.some_or]
      have hsplit : v ++ p ++ w = v ++ before ++ (trim p ++ (after ++ w)) := by
        conv => lhs; rw [hp]
        simp only [List.append_assoc]
      rw [hsplit, trim.eq_def (v ++ before ++ _), hleft, ← List.append_assoc,
        trimRight_append hlast' (not_isBlank_of_getLast?_trim hlast)]
      exact ⟨v', _, rfl⟩

end Rejoin.Text
