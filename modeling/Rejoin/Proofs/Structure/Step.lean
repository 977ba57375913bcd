import Rejoin.Structure.Scan

/-!
What one character does to a bracket scan: it leaves the brackets as they are, opens one or closes one.
The second part compares the two ways in which a scan keeps account of brackets: its tally and its stack
of open brackets say the same until a bracket is closed that is not the innermost. The last part is about
text without brackets.
-/

namespace Rejoin.Structure

namespace Scan

variable {d : Dialect} {s : Scan} {c : Char}

/-- The states along a scan are those after the prefixes of the text. -/
theorem getElem?_trail {t : List Char} {i : Nat} (hi : i < t.length) :
    (trail d s t)[i]? = some (run d s (t.take (i + 1))) := by
  induction t generalizing s i with
  | nil => cases hi
  | cons c rest ih =>
    cases i with
    | zero => rfl
    | succ i => exact ih (Nat.lt_of_succ_lt_succ hi)

theorem step_of_escaped (hescaped : s.escaped = true) : s.step d c = { s with escaped := false } := by
  simp only [step, hescaped, if_true]

theorem step_backslash (hescaped : s.escaped = false) :
    s.step d '\\' = { s with escaped := true } := by
  simp [step, hescaped]

theorem step_of_quote {q : Char} (hescaped : s.escaped = false) (hquote : s.quote = some q)
    (hslash : c ≠ '\\') : s.step d c = if c = q then { s with quote := none } else s := by
  simp [step, hescaped, hquote, hslash]

theorem step_outside (hescaped : s.escaped = false) (hquote : s.quote = none) (hslash : c ≠ '\\') :
    s.step d c =
      if d.quotes.contains c then { s with quote := some c }
      else match d.opens? c with
        | some b => s.opening b
        | none =>
          match d.closes? c with
          | some b => s.closing b
          | none => s := by
  obtain ⟨tally, pending, quote, escaped⟩ := s
  cases hescaped
  cases hquote
  exact (if_neg Bool.false_ne_true).trans (if_neg hslash)

/-- Whether the next character closes a bracket: it is the bracket's closer, outside strings, and not
    escaped. -/
structure Closes (d : Dialect) (s : Scan) (c : Char) (b : Bracket) : Prop where
  escaped : s.escaped = false
  quote : s.quote = none
  slash : c ≠ '\\'
  quotes : d.quotes.contains c = false
  opens : d.opens? c = none
  closes : d.closes? c = some b

theorem Closes.eq_of_closes {a b : Bracket} (ha : s.Closes d c a) (hb : s.Closes d c b) : a = b :=
  Option.some_inj.1 (ha.closes.symm.trans hb.closes)

/-- What one character does to the brackets of a scan. A character that opens or closes none may still
    begin or end a string, or an escape. -/
inductive Stepped (d : Dialect) (s : Scan) (c : Char) : Scan → Prop where
  | aside {next : Scan} (tally : next.tally = s.tally) (pending : next.pending = s.pending)
      (quote : ∀ q, next.quote = some q → s.quote = some q ∨ d.quotes.contains q = true)
      (closes : ∀ b, ¬ s.Closes d c b) : Stepped d s c next
  | opening {b : Bracket} (opens : d.opens? c = some b) : Stepped d s c (s.opening b)
  | closing {b : Bracket} (closes : s.Closes d c b) : Stepped d s c (s.closing b)

theorem stepped_step (d : Dialect) (s : Scan) (c : Char) : Stepped d s c (s.step d c) := by
  cases hescaped : s.escaped with
  | true =>
    rw [step_of_escaped hescaped]
    refine .aside rfl rfl (fun q hq => .inl hq) fun b hb => ?_
    cases hescaped.symm.trans hb.escaped
  | false =>
    by_cases hslash : c = '\\'
    · rw [hslash, step_backslash hescaped]
      exact .aside rfl rfl (fun q hq => .inl hq) fun b hb => hb.slash rfl
    cases hquote : s.quote with
    | some q =>
      have hcloses (b : Bracket) : ¬ s.Closes d c b := fun hb => nomatch hquote.symm.trans hb.quote
      rw [step_of_quote hescaped hquote hslash]
      split
      · exact .aside rfl rfl nofun hcloses
      · exact .aside rfl rfl (fun q hq => .inl hq) hcloses
    | none =>
      rw [step_outside hescaped hquote hslash]
      split
      · next hquotes =>
        refine .aside rfl rfl (fun q hq => .inr ?_) fun b hb => ?_
        · cases hq
          exact hquotes
        · cases hquotes.symm.trans hb.quotes
      next hquotes =>
      split
      · next b hopens => exact .opening hopens
      next hopens =>
      split
      · next b hcloses =>
        rw [Bool.not_eq_true] at hquotes
        exact .closing ⟨hescaped, hquote, hslash, hquotes, hopens, hcloses⟩
      · next hcloses =>
        exact .aside rfl rfl (fun q hq => .inl hq) fun b hb => nomatch hcloses.symm.trans hb.closes

/-- Whether the tally of a scan falls short of the number of open brackets of each kind by so many. A
    closer that does not match the innermost bracket is counted, and closes nothing. -/
def FallsShort (d : Dialect) (s : Scan) (n : Bracket → Nat) : Prop :=
  s.tally = d.brackets.map fun b => (b, (s.pending.count b : Int) - n b)

/-- Whether the tally of a scan is the number of open brackets of each kind. -/
def Tallies (d : Dialect) (s : Scan) : Prop :=
  s.tally = d.brackets.map fun b => (b, (s.pending.count b : Int))

theorem fallsShort_start (d : Dialect) : (start d).FallsShort d fun _ => 0 := rfl

theorem tallies_start (d : Dialect) : (start d).Tallies d := rfl

theorem tallies_iff_fallsShort : s.Tallies d ↔ s.FallsShort d fun _ => 0 := by
  rw [Tallies, FallsShort]
  simp only [Int.natCast_zero, Int.sub_zero]

/-- A change in one count of a tally that is given kind by kind. -/
theorem change_map (brackets : List Bracket) (f : Bracket → Int) (b : Bracket) (amount : Int) :
    (Tally.change (brackets.map fun a => (a, f a)) b amount) =
      brackets.map fun a => (a, if a = b then f a + amount else f a) := by
  simp only [Tally.change, List.map_map]
  apply List.map_congr_left
  intro a _
  simp only [Function.comp_apply]
  split <;> rfl

theorem FallsShort.opening {n : Bracket → Nat} (hs : s.FallsShort d n) (b : Bracket) :
    (s.opening b).FallsShort d n := by
  rw [FallsShort, Scan.opening, hs, change_map]
  apply List.map_congr_left
  intro a _
  by_cases ha : a = b
  · subst ha
    simp only [if_true, List.count_cons_self, Prod.mk.injEq, true_and]
    omega
  · simp only [if_neg ha, List.count_cons_of_ne (Ne.symm ha)]

theorem FallsShort.closing {n : Bracket → Nat} (hs : s.FallsShort d n) (b : Bracket) :
    (s.closing b).FallsShort d fun a =>
      if a = b ∧ s.pending.head? ≠ some b then n a + 1 else n a := by
  rw [FallsShort, Scan.closing, hs, change_map]
  apply List.map_congr_left
  intro a _
  dsimp only
  by_cases hhead : s.pending.head? = some b
  · obtain ⟨rest, hpending⟩ := List.head?_eq_some_iff.1 hhead
    have hmatches : ¬ (a = b ∧ s.pending.head? ≠ some b) := fun h => h.2 hhead
    rw [if_pos hhead, if_neg hmatches, hpending, List.tail_cons]
    by_cases ha : a = b
    · subst ha
      simp only [if_true, List.count_cons_self, Prod.mk.injEq, true_and]
      omega
    · rw [if_neg ha, List.count_cons_of_ne (Ne.symm ha)]
  · rw [if_neg hhead]
    by_cases ha : a = b
    · rw [if_pos ha, if_pos ⟨ha, hhead⟩, Prod.mk.injEq]
      exact ⟨rfl, by omega⟩
    · rw [if_neg ha, if_neg fun h => ha h.1]

/-- A character that closes a bracket other than the innermost makes the tally fall short by one more. -/
theorem FallsShort.step {n m : Bracket → Nat} (hs : s.FallsShort d n)
    (hstray : ∀ b, s.Closes d c b → s.pending.head? ≠ some b → m b = n b + 1)
    (hkept : ∀ b, (s.Closes d c b → s.pending.head? = some b) → m b = n b) :
    (s.step d c).FallsShort d m := by
  have hstep := stepped_step d s c
  generalize s.step d c = next at hstep ⊢
  cases hstep with
  | aside htally hpending _ hcloses =>
    obtain rfl : m = n := funext fun b => hkept b fun hb => absurd hb (hcloses b)
    rw [FallsShort, htally, hpending]
    exact hs
  | opening hopens =>
    obtain rfl : m = n := funext fun b => hkept b fun hb => nomatch hopens.symm.trans hb.opens
    exact hs.opening _
  | @closing b hcloses =>
    have hclosed := hs.closing b
    suffices hm : m = fun a => if a = b ∧ s.pending.head? ≠ some b then n a + 1 else n a from
      hm ▸ hclosed
    funext a
    split
    · next hmiss =>
      obtain ⟨rfl, hhead⟩ := hmiss
      exact hstray a hcloses hhead
    · next hmatch =>
      refine hkept a fun ha => ?_
      obtain rfl := ha.eq_of_closes hcloses
      exact Decidable.byContradiction fun hhead => hmatch ⟨rfl, hhead⟩

/-- The tally keeps counting the open brackets as long as only the innermost is closed. -/
theorem Tallies.step (hs : s.Tallies d)
    (hinnermost : ∀ b, s.Closes d c b → s.pending.head? = some b) : (s.step d c).Tallies d :=
  tallies_iff_fallsShort.2 ((tallies_iff_fallsShort.1 hs).step
    (fun b hb hhead => absurd (hinnermost b hb) hhead) fun _ _ => rfl)

section NotBracket

theorem tally_step_of_not_bracket (hopens : d.opens? c = none) (hcloses : d.closes? c = none)
    (s : Scan) : (s.step d c).tally = s.tally := by
  have hstep := stepped_step d s c
  generalize s.step d c = next at hstep ⊢
  cases hstep with
  | aside htally => exact htally
  | opening hopened => cases hopens.symm.trans hopened
  | closing hclosed => cases hcloses.symm.trans hclosed.closes

/-- Text without brackets leaves the tally as it is, wherever it stands. -/
theorem tally_run_of_not_bracket {u : List Char}
    (hu : ∀ c ∈ u, d.opens? c = none ∧ d.closes? c = none) (s : Scan) :
    (s.run d u).tally = s.tally := by
  induction u generalizing s with
  | nil => rfl
  | cons c rest ih =>
    rw [List.forall_mem_cons] at hu
    rw [run_cons, ih hu.2, tally_step_of_not_bracket hu.1.1 hu.1.2]

end NotBracket

end Scan

end Rejoin.Structure
