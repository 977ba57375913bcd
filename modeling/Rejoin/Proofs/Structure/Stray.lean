import Mathlib.Data.List.Basic
import Mathlib.Data.List.Count
import Mathlib.Data.List.Induction
import Rejoin.Proofs.Structure.Closing

/-!
Stray closers. A closer that does not match the innermost open bracket is counted by the tally and
closes nothing, so that the tally falls short of the open brackets. By how much it does is told by the
text alone: it is the number of stray closers so far. So the difference never shrinks while a scan goes
on, and what the tally reports as unclosed is always closed by the closing text.
-/

namespace Rejoin.Structure

namespace Scan

variable {d : Dialect} {s : Scan} {t u : List Char} {b : Bracket} {c : Char} {i : Nat}

theorem ofText_concat (d : Dialect) (t : List Char) (c : Char) :
    ofText d (t ++ [c]) = (ofText d t).step d c := by
  rw [ofText, run_append]
  rfl

section Count

/-- Whether a character of a text is a stray closer of a bracket: it closes a bracket that the dialect
    follows, outside strings and not escaped, but the innermost open bracket is not of this kind. -/
structure IsStray (d : Dialect) (t : List Char) (b : Bracket) (i : Nat) : Prop where
  followed : b ∈ d.brackets
  closer : t[i]? = some b.closer
  quote : (ofText d (t.take i)).quote = none
  escaped : (ofText d (t.take i)).escaped = false
  unmatched : (ofText d (t.take i)).pending.head? ≠ some b

theorem isStray_iff :
    IsStray d t b i ↔
      b ∈ d.brackets ∧ t[i]? = some b.closer ∧ (ofText d (t.take i)).quote = none ∧
        (ofText d (t.take i)).escaped = false ∧ (ofText d (t.take i)).pending.head? ≠ some b := by
  constructor
  · rintro ⟨hfollowed, hcloser, hquote, hescaped, hunmatched⟩
    exact ⟨hfollowed, hcloser, hquote, hescaped, hunmatched⟩
  · rintro ⟨hfollowed, hcloser, hquote, hescaped, hunmatched⟩
    exact ⟨hfollowed, hcloser, hquote, hescaped, hunmatched⟩

instance : Decidable (IsStray d t b i) := decidable_of_iff _ isStray_iff.symm

/-- The number of stray closers of a bracket in a text. -/
def strays (d : Dialect) (t : List Char) (b : Bracket) : Nat :=
  (List.range t.length).countP fun i => IsStray d t b i

/-- What follows a character does not make it a stray closer. -/
theorem isStray_append_iff (hi : i < t.length) : IsStray d (t ++ u) b i ↔ IsStray d t b i := by
  have hget : (t ++ u)[i]? = t[i]? := List.getElem?_append_left hi
  have htake : (t ++ u).take i = t.take i := List.take_append_of_le_length (Nat.le_of_lt hi)
  rw [isStray_iff, isStray_iff, hget, htake]

/-- A text that is continued keeps its stray closers, and those of what follows are added. -/
theorem strays_append (t u : List Char) :
    strays d (t ++ u) b =
      strays d t b + (List.range u.length).countP fun i => IsStray d (t ++ u) b (t.length + i) := by
  rw [strays, List.length_append, List.range_add, List.countP_append, List.countP_map]
  congr 1
  apply List.countP_congr
  intro i hi
  rw [decide_eq_true_iff, decide_eq_true_iff]
  exact isStray_append_iff (List.mem_range.1 hi)

theorem strays_mono (hu : u <+: t) : strays d u b ≤ strays d t b := by
  obtain ⟨rest, rfl⟩ := hu
  rw [strays_append]
  exact Nat.le_add_right _ _

theorem strays_concat (t : List Char) (c : Char) :
    strays d (t ++ [c]) b =
      strays d t b + if IsStray d (t ++ [c]) b t.length then 1 else 0 := by
  rw [strays_append]
  simp [List.range_one, List.countP_singleton]

/-- The last character of a text is a stray closer if it closes a bracket that is not the innermost. -/
theorem isStray_length_iff (hd : d.IsSeparated) :
    IsStray d (t ++ [c]) b t.length ↔
      (ofText d t).Closes d c b ∧ (ofText d t).pending.head? ≠ some b := by
  have htake : (t ++ [c]).take t.length = t := List.take_left
  have hget : (t ++ [c])[t.length]? = some c := List.getElem?_concat_length
  rw [isStray_iff, htake, hget]
  constructor
  · rintro ⟨hfollowed, hcloser, hquote, hescaped, hunmatched⟩
    cases hcloser
    exact ⟨⟨hescaped, hquote, b.closer_ne_slash, hd.closer b hfollowed, d.opens?_closer b,
      Dialect.closes?_closer hfollowed⟩, hunmatched⟩
  · rintro ⟨hcloses, hunmatched⟩
    obtain ⟨hfollowed, hcloser⟩ := Dialect.closes?_eq_some hcloses.closes
    exact ⟨hfollowed, by rw [hcloser], hcloses.quote, hcloses.escaped, hunmatched⟩

end Count

section Surplus

/-- The tally of a text falls short of its open brackets by its stray closers. -/
theorem fallsShort_strays (hd : d.IsSeparated) (t : List Char) :
    (ofText d t).FallsShort d (strays d t) := by
  induction t using List.reverseRecOn with
  | nil => exact fallsShort_start d
  | append_singleton t c ih =>
    rw [ofText_concat]
    apply ih.step
    · intro b hcloses hunmatched
      rw [strays_concat, if_pos ((isStray_length_iff hd).2 ⟨hcloses, hunmatched⟩)]
    · intro b hinnermost
      rw [strays_concat, if_neg fun hstray => ?_, Nat.add_zero]
      obtain ⟨hcloses, hunmatched⟩ := (isStray_length_iff hd).1 hstray
      exact hunmatched (hinnermost hcloses)

/-- How many more brackets of a kind are open than the tally says. -/
def surplus (s : Scan) (b : Bracket) : Int := (s.pending.count b : Int) - s.tally.count b

theorem FallsShort.surplus_eq {n : Bracket → Nat} (hs : s.FallsShort d n) (hb : b ∈ d.brackets) :
    s.surplus b = n b := by
  have hcount : s.tally.count b = (s.pending.count b : Int) - n b := by
    rw [Tally.count, hs, List.lookup_graph _ hb]
    rfl
  rw [surplus, hcount]
  omega

/-- An open string and an escape keep brackets from being counted. -/
theorem brackets_step_of_frozen (hfrozen : s.inString = true ∨ s.escaped = true) (c : Char) :
    (s.step d c).tally = s.tally ∧ (s.step d c).pending = s.pending := by
  cases hescaped : s.escaped with
  | true =>
    rw [step_of_escaped hescaped]
    exact ⟨rfl, rfl⟩
  | false =>
    rw [hescaped] at hfrozen
    obtain ⟨q, hquote⟩ := Option.isSome_iff_exists.1 (hfrozen.resolve_right Bool.false_ne_true)
    by_cases hslash : c = '\\'
    · rw [hslash, step_backslash hescaped]
      exact ⟨rfl, rfl⟩
    · rw [step_of_quote hescaped hquote hslash]
      split <;> exact ⟨rfl, rfl⟩

/-- The closing text has one closer for each open bracket. -/
theorem count_closer_suffix (hd : d.IsSeparated) (hs : s.Fits d) (hb : b ∈ d.brackets) :
    s.suffix.count b.closer = s.pending.count b := by
  have hquote : s.quote.toList.count b.closer = 0 := by
    apply List.count_eq_zero_of_not_mem
    intro hmem
    have hquotes := hs.quote _ (Option.mem_toList.1 hmem)
    rw [hd.closer b hb] at hquotes
    cases hquotes
  rw [suffix_eq, List.count_append, hquote, Nat.zero_add]
  exact List.count_map_of_injective _ _ (fun _ _ => Bracket.closer_injective) b

end Surplus

/-- What the tally and the open brackets after a text have to do with each other, and with the closing
    text. The states along the scan of a text are those after its prefixes, so that all of this holds at
    each of them. -/
structure KeepsAccounts (d : Dialect) (t : List Char) : Prop where
  trail : ∀ i < t.length, (trail d (start d) t)[i]? = some (ofText d (t.take (i + 1)))
  surplus : ∀ b ∈ d.brackets, (ofText d t).surplus b = strays d t b
  nonneg : ∀ b ∈ d.brackets, 0 ≤ (ofText d t).surplus b
  grows : ∀ u, u <+: t → ∀ b ∈ d.brackets, (ofText d u).surplus b ≤ (ofText d t).surplus b
  string : (ofText d t).inString = true ↔ ∃ q ∈ d.quotes, (ofText d t).quote = some q
  frozen : (ofText d t).inString = true ∨ (ofText d t).escaped = true → ∀ c,
    (ofText d (t ++ [c])).tally = (ofText d t).tally ∧
      (ofText d (t ++ [c])).pending = (ofText d t).pending
  covered : ∀ b n, (b, n) ∈ (ofText d t).tally.unclosed →
    b ∈ d.brackets ∧ n ≤ (ofText d t).suffix.count b.closer

theorem keepsAccounts_of_isSeparated (hd : d.IsSeparated) (t : List Char) : KeepsAccounts d t := by
  have hfits := fits_ofText d t
  have hsurplus (u : List Char) (b : Bracket) (hb : b ∈ d.brackets) :
      (ofText d u).surplus b = strays d u b := (fallsShort_strays hd u).surplus_eq hb
  constructor
  case trail =>
    intro i hi
    exact getElem?_trail hi
  case surplus => exact hsurplus t
  case nonneg =>
    intro b hb
    rw [hsurplus t b hb]
    exact Int.natCast_nonneg _
  case grows =>
    intro u hu b hb
    rw [hsurplus u b hb, hsurplus t b hb]
    exact Int.ofNat_le.2 (strays_mono hu)
  case string =>
    constructor
    · intro hstring
      obtain ⟨q, hq⟩ := Option.isSome_iff_exists.1 hstring
      exact ⟨q, List.contains_iff_mem.1 (hfits.quote q hq), hq⟩
    · rintro ⟨q, _, hq⟩
      rw [inString, hq, Option.isSome_some]
  case frozen =>
    intro hfrozen c
    rw [ofText_concat]
    exact brackets_step_of_frozen hfrozen c
  case covered =>
    intro b n hunclosed
    have hmem : (b, n) ∈ (ofText d t).tally := List.mem_of_mem_filter hunclosed
    rw [fallsShort_strays hd t] at hmem
    obtain ⟨a, ha, hentry⟩ := List.mem_map.1 hmem
    obtain ⟨rfl, rfl⟩ := Prod.mk.inj hentry
    refine ⟨ha, ?_⟩
    rw [count_closer_suffix hd hfits ha]
    omega

/-- In prose as in JSON, after every text, the open brackets of a kind are more than the tally says by the
number of its stray closers so far, which never shrinks as the scan goes on. The scan stands inside a
string exactly if one of the quotation marks is to end it, and there, as behind an escape, no bracket is
counted, opened or closed. So the closing text has at least as many closers of a kind as the tally reports
unclosed. -/
theorem surplus_eq_strays (t : List Char) : KeepsAccounts .prose t ∧ KeepsAccounts .json t :=
  ⟨keepsAccounts_of_isSeparated Dialect.isSeparated_prose t,
    keepsAccounts_of_isSeparated Dialect.isSeparated_json t⟩

/-- A closing brace inside a square bracket is counted and closes nothing. -/
example :
    strays .json ['[', '}'] .brace = 1 ∧ (ofText .json ['[', '}']).tally.count .brace = -1 ∧
      (ofText .json ['[', '}']).suffix = [']'] := by
  decide

end Scan

end Rejoin.Structure
