import Rejoin.Proofs.Structure.Step
import Rejoin.Repair.Json

/-!
What the closing text of a scan does. Read behind the text that it belongs to, it ends the open string
and then meets the open brackets one by one, so that nothing stays open; that no kind of bracket has a
positive count follows, since the tally never exceeds the open brackets. Only an escape that is pending
spoils this: it swallows the first closing character, and then there is one too few.
-/

namespace Rejoin

open Structure

namespace Structure

/-- Whether the characters that delimit strings mean nothing else to a dialect. -/
structure Dialect.IsSeparated (d : Dialect) : Prop where
  slash : d.quotes.contains '\\' = false
  closer : ∀ b ∈ d.brackets, d.quotes.contains b.closer = false

theorem Dialect.isSeparated_prose : prose.IsSeparated := ⟨rfl, by decide⟩

theorem Dialect.isSeparated_json : json.IsSeparated := ⟨rfl, by decide⟩

theorem Bracket.closer_ne_slash (b : Bracket) : b.closer ≠ '\\' := by
  cases b <;> decide

theorem Dialect.opens?_closer (d : Dialect) (b : Bracket) : d.opens? b.closer = none := by
  rw [opens?, List.find?_eq_none]
  intro a _ hopener
  exact Bracket.opener_ne_closer a b (of_decide_eq_true hopener)

theorem Dialect.closes?_eq_some {d : Dialect} {c : Char} {b : Bracket} (hcloses : d.closes? c = some b) :
    b ∈ d.brackets ∧ b.closer = c :=
  ⟨List.mem_of_find?_eq_some hcloses, of_decide_eq_true (List.find?_some hcloses :)⟩

theorem Dialect.closes?_closer {d : Dialect} {b : Bracket} (hb : b ∈ d.brackets) :
    d.closes? b.closer = some b := by
  cases hfound : d.closes? b.closer with
  | none =>
    rw [closes?, List.find?_eq_none] at hfound
    exact absurd (decide_eq_true rfl) (hfound b hb)
  | some a => rw [Bracket.closer_injective (closes?_eq_some hfound).2]

namespace Scan

variable {d : Dialect} {s : Scan} {c : Char} {t : List Char}

theorem suffix_eq_nil_iff : s.suffix = [] ↔ s.quote = none ∧ s.pending = [] := by
  rw [suffix_eq, List.append_eq_nil_iff, Option.toList_eq_nil_iff, List.map_eq_nil_iff]

section Kept

/-- What a scan keeps: an open string will be ended by a mark of the dialect, only its brackets are
    open, and the tally does not exceed them. -/
structure Fits (d : Dialect) (s : Scan) : Prop where
  quote : ∀ q, s.quote = some q → d.quotes.contains q = true
  pending : ∀ b ∈ s.pending, b ∈ d.brackets
  tally : ∃ n, s.FallsShort d n

theorem fits_start (d : Dialect) : (start d).Fits d := ⟨nofun, nofun, _, fallsShort_start d⟩

theorem Fits.opening {b : Bracket} (hs : s.Fits d) (hb : b ∈ d.brackets) :
    (s.opening b).Fits d := by
  obtain ⟨n, hn⟩ := hs.tally
  exact ⟨hs.quote, List.forall_mem_cons.2 ⟨hb, hs.pending⟩, n, hn.opening b⟩

theorem Fits.closing (hs : s.Fits d) (b : Bracket) : (s.closing b).Fits d := by
  obtain ⟨n, hn⟩ := hs.tally
  refine ⟨hs.quote, fun a ha => hs.pending a ?_, _, hn.closing b⟩
  rw [Scan.closing] at ha
  dsimp only at ha
  split at ha
  · exact List.mem_of_mem_tail ha
  · exact ha

theorem Fits.step (hs : s.Fits d) (c : Char) : (s.step d c).Fits d := by
  have hstep := stepped_step d s c
  generalize s.step d c = next at hstep ⊢
  cases hstep with
  | aside htally hpending hquote _ =>
    obtain ⟨n, hn⟩ := hs.tally
    refine ⟨fun q hq => (hquote q hq).elim (hs.quote q) id, ?_, n, ?_⟩
    · rw [hpending]
      exact hs.pending
    · rw [FallsShort, hpending, htally]
      exact hn
  | opening hopens => exact hs.opening (List.mem_of_find?_eq_some hopens)
  | closing _ => exact hs.closing _

theorem Fits.run (hs : s.Fits d) (t : List Char) : (s.run d t).Fits d := by
  induction t generalizing s with
  | nil => exact hs
  | cons c rest ih => exact ih (hs.step c)

theorem fits_ofText (d : Dialect) (t : List Char) : (ofText d t).Fits d := (fits_start d).run t

/-- Where no bracket is open, none was opened more often than closed. -/
theorem Fits.isBalanced (hs : s.Fits d) (hpending : s.pending = []) : s.tally.isBalanced = true := by
  obtain ⟨n, hn⟩ := hs.tally
  rw [Tally.isBalanced, List.isEmpty_iff, Tally.unclosed, List.filter_eq_nil_iff, hn, hpending]
  intro entry hentry
  obtain ⟨b, _, rfl⟩ := List.mem_map.1 hentry
  rw [List.count_nil, decide_eq_true_eq]
  omega

end Kept

section Suffix

/-- Outside strings a closer closes its bracket. -/
theorem step_closer_of_mem (hd : d.IsSeparated) (hescaped : s.escaped = false)
    (hquote : s.quote = none) {b : Bracket} (hb : b ∈ d.brackets) :
    s.step d b.closer = s.closing b := by
  rw [step_outside hescaped hquote b.closer_ne_slash, hd.closer b hb, d.opens?_closer,
    Dialect.closes?_closer hb, if_neg Bool.false_ne_true]

/-- Outside strings the closers of the open brackets leave none open. -/
theorem run_closers (hd : d.IsSeparated) (hescaped : s.escaped = false) (hquote : s.quote = none)
    (hpending : ∀ b ∈ s.pending, b ∈ d.brackets) :
    (s.run d (s.pending.map Bracket.closer)).quote = none ∧
      (s.run d (s.pending.map Bracket.closer)).pending = [] := by
  induction hopen : s.pending generalizing s with
  | nil => exact ⟨hquote, hopen⟩
  | cons b rest ih =>
    rw [hopen, List.forall_mem_cons] at hpending
    have hclosed : (s.closing b).pending = rest := by
      rw [Scan.closing, hopen]
      exact if_pos rfl
    rw [List.map_cons, run_cons, step_closer_of_mem hd hescaped hquote hpending.1]
    refine ih hescaped hquote ?_ hclosed
    rw [hclosed]
    exact hpending.2

/-- Inside a string the closers of brackets are ordinary text. -/
theorem run_of_quote {q : Char} (hescaped : s.escaped = false) (hquote : s.quote = some q)
    (ht : ∀ c ∈ t, c ≠ '\\' ∧ c ≠ q) : s.run d t = s := by
  induction t with
  | nil => rfl
  | cons c rest ih =>
    rw [List.forall_mem_cons] at ht
    rw [run_cons, step_of_quote hescaped hquote ht.1.1, if_neg ht.1.2, ih ht.2]

/-- One character closes one bracket at most. -/
theorem length_pending_le_step (s : Scan) (c : Char) :
    s.pending.length ≤ (s.step d c).pending.length + 1 := by
  have hstep := stepped_step d s c
  generalize s.step d c = next at hstep ⊢
  cases hstep with
  | aside _ hpending _ _ =>
    rw [hpending]
    exact Nat.le_succ _
  | opening _ => exact Nat.le_succ_of_le (Nat.le_succ _)
  | closing _ =>
    unfold Scan.closing
    dsimp only
    split
    · rw [List.length_tail]
      omega
    · exact Nat.le_succ _

theorem length_pending_le_run (s : Scan) (t : List Char) :
    s.pending.length ≤ (s.run d t).pending.length + t.length := by
  induction t generalizing s with
  | nil => exact Nat.le_refl _
  | cons c rest ih =>
    have hstep := length_pending_le_step (d := d) s c
    have hrest := ih (s.step d c)
    rw [run_cons, List.length_cons]
    omega

/-- Without a pending escape the closing text ends the string and closes the brackets. -/
theorem run_suffix_of_not_escaped (hd : d.IsSeparated) (hs : s.Fits d) (hescaped : s.escaped = false) :
    (s.run d s.suffix).quote = none ∧ (s.run d s.suffix).pending = [] := by
  rw [suffix_eq]
  cases hquote : s.quote with
  | none => exact run_closers hd hescaped hquote hs.pending
  | some q =>
    have hslash : q ≠ '\\' := by
      rintro rfl
      have hquotes := hs.quote _ hquote
      rw [hd.slash] at hquotes
      cases hquotes
    rw [Option.toList_some, List.singleton_append, run_cons, step_of_quote hescaped hquote hslash,
      if_pos rfl]
    exact run_closers (s := { s with quote := none }) hd hescaped rfl hs.pending

/-- A pending escape swallows the first closing character, and something stays open. -/
theorem run_suffix_of_escaped (hd : d.IsSeparated) (hs : s.Fits d) (hescaped : s.escaped = true)
    (hsuffix : s.suffix ≠ []) :
    ¬ ((s.run d s.suffix).quote = none ∧ (s.run d s.suffix).pending = []) := by
  rintro ⟨hclosed, hempty⟩
  rw [suffix_eq] at hclosed hempty
  cases hquote : s.quote with
  | some q =>
    have hcloser : ∀ c ∈ s.pending.map Bracket.closer, c ≠ '\\' ∧ c ≠ q := by
      intro c hc
      obtain ⟨b, hb, rfl⟩ := List.mem_map.1 hc
      refine ⟨b.closer_ne_slash, ?_⟩
      rintro rfl
      have hquotes := hs.quote _ hquote
      rw [hd.closer b (hs.pending b hb)] at hquotes
      cases hquotes
    have hkept := run_of_quote (d := d) (s := { s with escaped := false }) rfl hquote hcloser
    rw [hquote, Option.toList_some, List.singleton_append, run_cons, step_of_escaped hescaped, hkept]
      at hclosed
    cases hquote.symm.trans hclosed
  | none =>
    cases hpending : s.pending with
    | nil => exact hsuffix (suffix_eq_nil_iff.2 ⟨hquote, hpending⟩)
    | cons b rest =>
      rw [hquote, hpending, Option.toList_none, List.nil_append, List.map_cons, run_cons,
        step_of_escaped hescaped] at hempty
      have hlength := length_pending_le_run (d := d) { s with escaped := false }
        (rest.map Bracket.closer)
      rw [hempty, List.length_map] at hlength
      change s.pending.length ≤ _ at hlength
      rw [hpending, List.length_cons, List.length_nil] at hlength
      omega

end Suffix

/-- Whether a scan has nothing open: it stands outside strings, all brackets are closed, and no kind
    of bracket was opened more often than closed. -/
structure IsClosed (s : Scan) : Prop where
  string : s.inString = false
  pending : s.pending = []
  tally : s.tally.isBalanced = true

theorem isClosed_iff (hs : s.Fits d) : s.IsClosed ↔ s.quote = none ∧ s.pending = [] := by
  constructor
  · intro h
    exact ⟨Option.isSome_eq_false_iff.1 h.string |> Option.isNone_iff_eq_none.1, h.pending⟩
  · rintro ⟨hquote, hpending⟩
    refine ⟨?_, hpending, hs.isBalanced hpending⟩
    rw [inString, hquote]
    rfl

theorem isClosed_append_suffix_iff (hd : d.IsSeparated) (t : List Char) :
    (ofText d (t ++ (ofText d t).suffix)).IsClosed ↔
      (ofText d t).escaped = false ∨ (ofText d t).suffix = [] := by
  have hs := fits_ofText d t
  rw [isClosed_iff (fits_ofText d _), ofText, run_append, ← ofText]
  cases hescaped : (ofText d t).escaped with
  | false => exact iff_of_true (run_suffix_of_not_escaped hd hs hescaped) (.inl rfl)
  | true =>
    by_cases hsuffix : (ofText d t).suffix = []
    · refine iff_of_true ?_ (.inr hsuffix)
      rw [hsuffix, run_nil, ← suffix_eq_nil_iff]
      exact hsuffix
    · refine iff_of_false (run_suffix_of_escaped hd hs hescaped hsuffix) ?_
      rintro (hnot | hempty)
      · cases hnot
      · exact hsuffix hempty

end Scan

end Structure

namespace Json

/-- A closed text is closed again exactly if that is left to do. -/
theorem close_close_eq_iff (t : List Char) :
    close (close t) = close t ↔ (Scan.ofText .json (close t)).IsClosed := by
  rw [Scan.isClosed_iff (Scan.fits_ofText _ _), ← Scan.suffix_eq_nil_iff]
  exact List.append_right_eq_self

/-- The closing text of a scan closes everything, in prose as in JSON, exactly if no escape is pending
or there is nothing to close: scanned behind its text it leaves no string and no bracket open, and no
kind of bracket with a positive count. So it is under the same condition that closing a JSON text twice
is closing it once. -/
theorem closing_closes_iff (t : List Char) :
    ((Scan.ofText .prose (t ++ (Scan.ofText .prose t).suffix)).IsClosed ↔
      (Scan.ofText .prose t).escaped = false ∨ (Scan.ofText .prose t).suffix = []) ∧
    ((Scan.ofText .json (t ++ (Scan.ofText .json t).suffix)).IsClosed ↔
      (Scan.ofText .json t).escaped = false ∨ (Scan.ofText .json t).suffix = []) ∧
    (close (close t) = close t ↔
      (Scan.ofText .json t).escaped = false ∨ (Scan.ofText .json t).suffix = []) := by
  have hjson := Scan.isClosed_append_suffix_iff Dialect.isSeparated_json t
  exact ⟨Scan.isClosed_append_suffix_iff Dialect.isSeparated_prose t, hjson,
    (close_close_eq_iff t).trans hjson⟩

end Json

end Rejoin
