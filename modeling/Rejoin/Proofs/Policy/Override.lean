import Mathlib.Data.List.Perm.Basic
import Mathlib.Data.String.Basic
import Rejoin.Policy
import Rejoin.Proofs.Entries

/-!
Changing a policy. A change that is refused names a setting that does not exist, or would make one of the
four bounded numbers negative; nothing else is wrong with it, and the policy stays as it was. Since a
policy is valid before it is changed, only the numbers that are changed need to be looked at, and so two
changes in turn have the effect of one in which the later values count.
-/

namespace Rejoin

/-- A number that is not "not a number" is at least zero unless it is below. -/
theorem Number.zero_le_iff {n : Number} (hn : n ≠ .real .nan) :
    (Number.int 0).le n = true ↔ n.isNegative = false := by
  have hextent : ∃ x, n.extent? = some x := by
    cases n with
    | int n => exact ⟨_, rfl⟩
    | real x =>
      cases x with
      | finite | infinite => exact ⟨_, rfl⟩
      | nan => exact absurd rfl hn
  obtain ⟨x, hx⟩ := hextent
  rw [le, isNegative, lt, hx]
  simp only [extent?, Bool.not_eq_true']

theorem Number.not_isNegative_of_zero_le {n : Number} (hn : (Number.int 0).le n = true) :
    n.isNegative = false := by
  by_cases hnan : n = .real .nan
  · rw [hnan] at hn
    cases hn
  · exact (zero_le_iff hnan).1 hn

namespace Policy

/-- Changes of settings, each under the name of its setting. -/
abbrev Changes := List (String × Value)

variable {p q : Policy} {a b changes : Changes} {name : String} {s r : Setting} {v : Value} {n : Number}

section Settings

/-- Whether a value is of the kind that a setting holds; "not a number" is none. -/
def Setting.takes (s : Setting) (v : Value) : Bool :=
  match s, v with
  | .maxContinuations, .number n | .maxDuration, .number n | .delay, .number n
  | .minProgress, .number n => n ≠ .real .nan
  | .repairsJson, .bool _ | .repairsFences, .bool _ | .includesPrevious, .bool _
  | .failsAtCap, .bool _ => true
  | .prompt, .text _ => true
  | _, _ => false

theorem Setting.ne_nan_of_takes (h : s.takes (.number n) = true) : n ≠ .real .nan := by
  cases s <;> simp_all [takes]

/-- Whether changes are a map of settings to values of the kind that these hold. A name that is not one
    of a setting may have any value. -/
structure Changes.IsSuited (changes : Changes) : Prop where
  nodup : (Entries.keys changes).Nodup
  takes : ∀ e ∈ changes, (Setting.ofName? e.1).all (·.takes e.2) = true

instance : Decidable changes.IsSuited :=
  decidable_of_iff
    ((Entries.keys changes).Nodup ∧ ∀ e ∈ changes, (Setting.ofName? e.1).all (·.takes e.2) = true)
    ⟨fun h => ⟨h.1, h.2⟩, fun h => ⟨h.nodup, h.takes⟩⟩

theorem Setting.ofName?_name (s : Setting) : ofName? s.name = some s := by
  cases s <;> decide

theorem Setting.ofName?_eq_some_iff : ofName? name = some s ↔ name = s.name := by
  constructor
  · intro hname
    rw [ofName?] at hname
    have hfound := List.find?_some hname
    exact (of_decide_eq_true hfound).symm
  · rintro rfl
    exact ofName?_name s

theorem Setting.name_injective (h : s.name = r.name) : s = r := by
  have hname := ofName?_name s
  rw [h, ofName?_name] at hname
  exact (Option.some_inj.1 hname).symm

/-- A policy is what its settings are. -/
theorem eq_of_get_eq (h : ∀ s, p.get s = q.get s) : p = q := by
  obtain ⟨c, t, d, j, f, x, i, m, e⟩ := p
  obtain ⟨c', t', d', j', f', x', i', m', e'⟩ := q
  have hc := h .maxContinuations
  have ht := h .maxDuration
  have hd := h .delay
  have hj := h .repairsJson
  have hf := h .repairsFences
  have hx := h .prompt
  have hi := h .includesPrevious
  have hm := h .minProgress
  have he := h .failsAtCap
  simp only [get, Value.number.injEq, Value.bool.injEq, Value.text.injEq, String.ofList_inj] at *
  simp [*]

theorem Changes.IsSuited.takes_of_mem (hchanges : changes.IsSuited) (hmem : (s.name, v) ∈ changes) :
    s.takes v = true := by
  simpa [Setting.ofName?_name] using hchanges.takes (s.name, v) hmem

/-- A setting that takes a value has it then, and the others stay as they are. -/
theorem exists_set? (p : Policy) (hv : s.takes v = true) :
    ∃ q, p.set? s v = some q ∧ ∀ r, q.get r = if r = s then v else p.get r := by
  cases s <;> cases v <;> simp only [Setting.takes, Bool.false_eq_true] at hv
  case prompt.text t =>
    refine ⟨_, rfl, fun r => ?_⟩
    cases r <;> simp [get]
  all_goals exact ⟨_, rfl, fun r => by cases r <;> rfl⟩

theorem exists_change (p : Policy) (hv : ∀ s : Setting, name = s.name → s.takes v = true) :
    ∃ q, p.change (name, v) = some q ∧ ∀ r, q.get r = if name = r.name then v else p.get r := by
  rw [change]
  cases hname : Setting.ofName? name with
  | none =>
    refine ⟨p, rfl, fun r => ?_⟩
    have hother : name ≠ r.name := by
      intro heq
      rw [heq, Setting.ofName?_name] at hname
      cases hname
    rw [if_neg hother]
  | some s =>
    obtain rfl := Setting.ofName?_eq_some_iff.1 hname
    obtain ⟨q, hq, hget⟩ := exists_set? p (hv s rfl)
    refine ⟨q, hq, fun r => ?_⟩
    rw [hget r]
    by_cases hr : r = s
    · rw [if_pos hr, if_pos (by rw [hr])]
    · rw [if_neg hr, if_neg fun hsame => hr (Setting.name_injective hsame).symm]

theorem exists_foldlM_change (p : Policy) (hchanges : changes.IsSuited) :
    ∃ q, changes.foldlM change p = some q ∧
      ∀ r, q.get r = (changes.lookup r.name).getD (p.get r) := by
  induction changes generalizing p with
  | nil => exact ⟨p, rfl, fun _ => rfl⟩
  | cons e rest ih =>
    obtain ⟨name, v⟩ := e
    obtain ⟨hnew, hrest⟩ := List.nodup_cons.1 hchanges.nodup
    have hsuited : Changes.IsSuited rest :=
      ⟨hrest, fun e he => hchanges.takes e (List.mem_cons_of_mem _ he)⟩
    have hv (s : Setting) (hs : name = s.name) : s.takes v = true :=
      hchanges.takes_of_mem (hs ▸ List.mem_cons_self)
    obtain ⟨middle, hmiddle, hfirst⟩ := exists_change p hv
    obtain ⟨q, hq, hget⟩ := ih middle hsuited
    refine ⟨q, ?_, fun r => ?_⟩
    · rw [List.foldlM_cons, hmiddle]
      exact hq
    · rw [hget, hfirst, Entries.lookup_cons]
      by_cases hname : name = r.name
      · have hnone : rest.lookup r.name = none := Entries.lookup_eq_none (hname ▸ hnew)
        simp [hname, hnone]
      · simp [hname, Ne.symm hname]

/-- The policy after changes of suited values. -/
def changed (p : Policy) (changes : Changes) : Policy := (changes.foldlM change p).getD p

/-- Values of the kinds that their settings hold can be changed. -/
theorem foldlM_change (p : Policy) (hchanges : changes.IsSuited) :
    changes.foldlM change p = some (p.changed changes) := by
  obtain ⟨q, hq, _⟩ := exists_foldlM_change p hchanges
  rw [changed, hq, Option.getD_some]

/-- After changes a setting has the value that is given for it, or else the one it had. -/
theorem get_changed (p : Policy) (hchanges : changes.IsSuited) (r : Setting) :
    (p.changed changes).get r = (changes.lookup r.name).getD (p.get r) := by
  obtain ⟨q, hq, hget⟩ := exists_foldlM_change p hchanges
  rw [changed, hq, Option.getD_some, hget]

end Settings

section Override

/-- The settings that must not be negative, in the order in which they are checked. -/
def boundedSettings : List Setting := [.maxContinuations, .maxDuration, .delay, .minProgress]

/-- The policy after changes: as it was if they are refused. -/
def step (p : Policy) (changes : Changes) : Policy :=
  match p.override changes with
  | some (.ok q) => q
  | _ => p

/-- The policy after changes in turn. -/
def after (p : Policy) (steps : List Changes) : Policy := steps.foldl step p

/-- Whether changes name a setting that does not exist. -/
def Changes.Misses (changes : Changes) (name : String) : Prop :=
  name ∈ Entries.keys changes ∧ ∀ s : Setting, name ≠ s.name

/-- Whether changes make a setting negative that must not be. -/
def Changes.Lowers (changes : Changes) (s : Setting) : Prop :=
  s ∈ boundedSettings ∧ ∃ n, (s.name, .number n) ∈ changes ∧ n.isNegative = true

theorem mem_bounded_iff : (s, n) ∈ p.bounded ↔ s ∈ boundedSettings ∧ p.get s = .number n := by
  cases s <;> simp [bounded, boundedSettings, get, eq_comm]

theorem fault?_eq_none_iff : p.fault? = none ↔ ∀ s n, (s, n) ∈ p.bounded → n.isNegative = false := by
  rw [fault?, Option.map_eq_none_iff, List.find?_eq_none]
  constructor
  · intro h s n hmem
    exact Bool.not_eq_true _ ▸ h (s, n) hmem
  · intro h e hmem
    rw [h e.1 e.2 hmem]
    exact Bool.false_ne_true

/-- The fault of a policy names the first of its numbers that is negative. -/
theorem exists_fault?_eq (h : ∃ s n, (s, n) ∈ p.bounded ∧ n.isNegative = true) :
    ∃ s n before rest, boundedSettings = before ++ s :: rest ∧ (s, n) ∈ p.bounded ∧
      n.isNegative = true ∧ (∀ r ∈ before, ∀ m, (r, m) ∈ p.bounded → m.isNegative = false) ∧
      p.fault? = some (.negative s.name n) := by
  obtain ⟨s, n, hmem, hnegative⟩ := h
  cases hfind : p.bounded.find? (·.2.isNegative) with
  | none => exact absurd hnegative (List.find?_eq_none.1 hfind (s, n) hmem)
  | some e =>
    obtain ⟨hfirst, before, rest, hsplit, hbefore⟩ := List.find?_eq_some_iff_append.1 hfind
    refine ⟨e.1, e.2, before.map (·.1), rest.map (·.1), ?_, ?_, hfirst, ?_, ?_⟩
    · have hsettings : boundedSettings = p.bounded.map (·.1) := rfl
      rw [hsettings, hsplit, List.map_append, List.map_cons]
    · rw [hsplit]
      exact List.mem_append_right _ List.mem_cons_self
    · intro r hr m hm
      obtain ⟨⟨r, k⟩, hk, rfl⟩ := List.mem_map.1 hr
      have hsame : p.get r = .number k :=
        (mem_bounded_iff.1 (hsplit ▸ List.mem_append_left _ hk)).2
      obtain rfl : k = m := by
        rw [(mem_bounded_iff.1 hm).2] at hsame
        cases hsame
        rfl
      simpa using hbefore _ hk
    · rw [fault?, hfind]
      rfl

theorem mem_unknownNames : name ∈ unknownNames changes ↔ changes.Misses name := by
  have hnone : Setting.ofName? name = none ↔ ∀ s : Setting, name ≠ s.name := by
    rw [Option.eq_none_iff_forall_ne_some]
    exact forall_congr' fun s => not_congr Setting.ofName?_eq_some_iff
  rw [unknownNames, (List.mergeSort_perm _ _).mem_iff, List.mem_filter, Option.isNone_iff_eq_none, hnone]
  rfl

theorem pairwise_unknownNames (changes : Changes) : (unknownNames changes).Pairwise (· ≤ ·) := by
  have htrans (x y z : String) (hxy : (!decide (y < x)) = true) (hyz : (!decide (z < y)) = true) :
      (!decide (z < x)) = true := by
    simp only [Bool.not_eq_true', decide_eq_false_iff_not, String.not_lt] at *
    exact String.le_trans hxy hyz
  have htotal (x y : String) : (!decide (y < x) || !decide (x < y)) = true := by
    simp only [Bool.or_eq_true, Bool.not_eq_true', decide_eq_false_iff_not, String.not_lt]
    exact String.le_total x y
  apply (List.pairwise_mergeSort htrans htotal _).imp
  intro x y hle
  simpa only [Bool.not_eq_true', decide_eq_false_iff_not, String.not_lt] using hle

theorem nodup_unknownNames (hchanges : (Entries.keys changes).Nodup) : (unknownNames changes).Nodup :=
  (List.mergeSort_perm _ _).nodup_iff.2 (hchanges.filter _)

/-- What changing a policy comes to: it succeeds or fails, and it fails exactly if a setting does not exist
    or a bounded number would be negative; settings that do not exist are told first, all of them in
    alphabetical order; and otherwise the first number that would be negative is. A policy whose change
    fails stays as it was, and one that is changed has the given values and else its own. -/
structure Changes.ActsOn (changes : Changes) (p : Policy) : Prop where
  answers : (p.override changes).isSome = true
  fails_iff : (∃ f, p.override changes = some (.error f)) ↔
    (∃ name, changes.Misses name) ∨ ∃ s, changes.Lowers s
  unknown : (∃ name, changes.Misses name) →
    ∃ first rest, p.override changes = some (.error (unknown first (first :: rest))) ∧
      (first :: rest).Pairwise (· < ·) ∧ ∀ name, name ∈ first :: rest ↔ changes.Misses name
  negative : (∀ name, ¬ changes.Misses name) → (∃ s, changes.Lowers s) →
    ∃ s n before rest, p.override changes = some (.error (.negative s.name n)) ∧
      boundedSettings = before ++ s :: rest ∧ (s.name, .number n) ∈ changes ∧
      n.isNegative = true ∧ ∀ r ∈ before, ¬ changes.Lowers r
  changed : ∀ q, p.override changes = some (.ok q) → ∀ s, q.get s = (changes.lookup s.name).getD (p.get s)
  kept : ∀ f, p.override changes = some (.error f) → p.step changes = p

theorem override_of_unknownNames_eq_nil (p : Policy) (hchanges : changes.IsSuited)
    (hnames : unknownNames changes = []) :
    p.override changes = some (p.changed changes).validated := by
  rw [override, hnames]
  dsimp only
  rw [foldlM_change p hchanges, Option.map_some]

theorem override_of_unknownNames_eq_cons {first : String} {rest : List String} (p : Policy)
    (hnames : unknownNames changes = first :: rest) :
    p.override changes = some (.error (unknown first (first :: rest))) := by
  rw [override, hnames]

theorem unknownNames_eq_nil_iff : unknownNames changes = [] ↔ ∀ name, ¬ changes.Misses name := by
  rw [List.eq_nil_iff_forall_not_mem]
  exact forall_congr' fun name => not_congr mem_unknownNames

/-- A number is negative after changes to a valid policy only if it was given. -/
theorem negative_iff_given (hp : p.fault? = none) (hchanges : changes.IsSuited) :
    (s, n) ∈ (p.changed changes).bounded ∧ n.isNegative = true ↔
      s ∈ boundedSettings ∧ (s.name, .number n) ∈ changes ∧ n.isNegative = true := by
  rw [mem_bounded_iff, get_changed p hchanges, ← Entries.lookup_eq_some_iff hchanges.nodup]
  constructor
  · rintro ⟨⟨hs, hget⟩, hnegative⟩
    cases hlookup : changes.lookup s.name with
    | none =>
      rw [hlookup, Option.getD_none] at hget
      rw [fault?_eq_none_iff.1 hp s n (mem_bounded_iff.2 ⟨hs, hget⟩)] at hnegative
      cases hnegative
    | some v =>
      rw [hlookup, Option.getD_some] at hget
      exact ⟨hs, congrArg some hget, hnegative⟩
  · rintro ⟨hs, hlookup, hnegative⟩
    rw [hlookup, Option.getD_some]
    exact ⟨⟨hs, rfl⟩, hnegative⟩

theorem lowers_iff (hp : p.fault? = none) (hchanges : changes.IsSuited) :
    changes.Lowers s ↔ ∃ n, (s, n) ∈ (p.changed changes).bounded ∧ n.isNegative = true := by
  rw [Changes.Lowers, ← exists_and_left]
  exact exists_congr fun n => (negative_iff_given hp hchanges).symm

theorem validated_of_not_lowers (hp : p.fault? = none) (hchanges : changes.IsSuited)
    (hlowers : ∀ s, ¬ changes.Lowers s) :
    (p.changed changes).validated = .ok (p.changed changes) := by
  have hfault : (p.changed changes).fault? = none := by
    rw [fault?_eq_none_iff]
    intro s n hmem
    by_contra hnegative
    rw [Bool.not_eq_false] at hnegative
    exact hlowers s ((lowers_iff hp hchanges).2 ⟨n, hmem, hnegative⟩)
  rw [validated, hfault]

theorem exists_validated_of_lowers (hp : p.fault? = none) (hchanges : changes.IsSuited)
    (hlowers : ∃ s, changes.Lowers s) :
    ∃ s n before rest, (p.changed changes).validated = .error (.negative s.name n) ∧
      boundedSettings = before ++ s :: rest ∧ (s.name, .number n) ∈ changes ∧
      n.isNegative = true ∧ ∀ r ∈ before, ¬ changes.Lowers r := by
  obtain ⟨s, hs⟩ := hlowers
  obtain ⟨n, hn⟩ := (lowers_iff hp hchanges).1 hs
  obtain ⟨s, n, before, rest, hsplit, hmem, hnegative, hbefore, hfault⟩ := exists_fault?_eq ⟨s, n, hn⟩
  refine ⟨s, n, before, rest, ?_, hsplit, ?_, hnegative, ?_⟩
  · rw [validated, hfault]
  · exact ((negative_iff_given hp hchanges).1 ⟨hmem, hnegative⟩).2.1
  · intro r hr hlowers
    obtain ⟨m, hm, hnot⟩ := (lowers_iff hp hchanges).1 hlowers
    rw [hbefore r hr m hm] at hnot
    cases hnot

/-- A change that succeeds names settings only, and gives the policy with them changed. -/
theorem override_eq_ok (hchanges : changes.IsSuited) (h : p.override changes = some (.ok q)) :
    unknownNames changes = [] ∧ q = p.changed changes ∧ q.fault? = none := by
  cases hnames : unknownNames changes with
  | cons first rest =>
    rw [override_of_unknownNames_eq_cons p hnames] at h
    cases h
  | nil =>
    rw [override_of_unknownNames_eq_nil p hchanges hnames, validated] at h
    split at h
    · cases h
    · next hfault =>
      cases h
      exact ⟨rfl, rfl, hfault⟩

theorem actsOn (hp : p.fault? = none) (hchanges : changes.IsSuited) : changes.ActsOn p := by
  have hunknown (hmisses : ∃ name, changes.Misses name) :
      ∃ first rest, unknownNames changes = first :: rest := by
    apply List.exists_cons_of_ne_nil
    intro hnil
    obtain ⟨name, hname⟩ := hmisses
    exact unknownNames_eq_nil_iff.1 hnil name hname
  constructor
  case answers =>
    cases hnames : unknownNames changes with
    | nil =>
      rw [override_of_unknownNames_eq_nil p hchanges hnames]
      rfl
    | cons first rest =>
      rw [override_of_unknownNames_eq_cons p hnames]
      rfl
  case fails_iff =>
    constructor
    · rintro ⟨f, hf⟩
      by_contra hneither
      obtain ⟨hnames, hlowers⟩ := not_or.1 hneither
      rw [override_of_unknownNames_eq_nil p hchanges (unknownNames_eq_nil_iff.2 (not_exists.1 hnames)),
        validated_of_not_lowers hp hchanges (not_exists.1 hlowers)] at hf
      cases hf
    · intro hcase
      by_cases hmisses : ∃ name, changes.Misses name
      · obtain ⟨first, rest, hnames⟩ := hunknown hmisses
        exact ⟨_, override_of_unknownNames_eq_cons p hnames⟩
      · obtain ⟨s, n, _, _, hfault, _⟩ :=
          exists_validated_of_lowers hp hchanges (hcase.resolve_left hmisses)
        rw [override_of_unknownNames_eq_nil p hchanges (unknownNames_eq_nil_iff.2 (not_exists.1 hmisses))]
        exact ⟨_, congrArg some hfault⟩
  case unknown =>
    intro hmisses
    obtain ⟨first, rest, hnames⟩ := hunknown hmisses
    refine ⟨first, rest, override_of_unknownNames_eq_cons p hnames, ?_, ?_⟩
    · rw [← hnames]
      exact ((pairwise_unknownNames changes).and (nodup_unknownNames hchanges.nodup)).imp
        fun hle => lt_of_le_of_ne hle.1 hle.2
    · intro name
      rw [← hnames]
      exact mem_unknownNames
  case negative =>
    intro hnames hlowers
    rw [override_of_unknownNames_eq_nil p hchanges (unknownNames_eq_nil_iff.2 hnames)]
    obtain ⟨s, n, before, rest, hfault, hfirst⟩ := exists_validated_of_lowers hp hchanges hlowers
    exact ⟨s, n, before, rest, congrArg some hfault, hfirst⟩
  case changed =>
    intro q hq s
    rw [(override_eq_ok hchanges hq).2.1, get_changed p hchanges]
  case kept =>
    intro f hf
    rw [step, hf]

end Override

section Steps

/-- Whether the bounded numbers of a policy are at least zero, but for those that another policy holds as
    "not a number". -/
def IsBoundedFrom (p q : Policy) : Prop :=
  ∀ s n, (s, n) ∈ q.bounded → (Number.int 0).le n = true ∨ n = .real .nan ∧ (s, n) ∈ p.bounded

theorem isBoundedFrom_refl (hp : p.fault? = none) : p.IsBoundedFrom p := by
  intro s n hmem
  by_cases hn : n = .real .nan
  · exact .inr ⟨hn, hmem⟩
  · exact .inl ((Number.zero_le_iff hn).2 (fault?_eq_none_iff.1 hp s n hmem))

theorem IsBoundedFrom.fault? (h : p.IsBoundedFrom q) : q.fault? = none := by
  rw [fault?_eq_none_iff]
  intro s n hmem
  obtain hn | ⟨rfl, _⟩ := h s n hmem
  · exact Number.not_isNegative_of_zero_le hn
  · rfl

theorem IsBoundedFrom.step (h : p.IsBoundedFrom q) (hchanges : changes.IsSuited) :
    p.IsBoundedFrom (q.step changes) := by
  rw [Policy.step]
  split
  · next r hr =>
    intro s n hmem
    have hnegative := fault?_eq_none_iff.1 (override_eq_ok hchanges hr).2.2 s n hmem
    obtain ⟨hs, hget⟩ := mem_bounded_iff.1 hmem
    rw [(override_eq_ok hchanges hr).2.1, get_changed q hchanges] at hget
    cases hlookup : changes.lookup s.name with
    | none =>
      rw [hlookup, Option.getD_none] at hget
      exact h s n (mem_bounded_iff.2 ⟨hs, hget⟩)
    | some v =>
      rw [hlookup, Option.getD_some] at hget
      obtain rfl := hget
      have htakes := hchanges.takes_of_mem ((Entries.lookup_eq_some_iff hchanges.nodup).1 hlookup)
      exact .inl ((Number.zero_le_iff (Setting.ne_nan_of_takes htakes)).2 hnegative)
  · exact h

theorem IsBoundedFrom.after {steps : List Changes} (h : p.IsBoundedFrom q)
    (hsteps : ∀ changes ∈ steps, changes.IsSuited) : p.IsBoundedFrom (q.after steps) := by
  induction steps generalizing q with
  | nil => exact h
  | cons changes rest ih =>
    rw [List.forall_mem_cons] at hsteps
    exact ih (h.step hsteps.1) hsteps.2

end Steps

section Composition

/-- Later changes written over earlier ones are changes again. -/
theorem isSuited_overwrite (ha : a.IsSuited) (hb : b.IsSuited) :
    Changes.IsSuited (Entries.overwrite a b) := by
  have hnodup := Entries.nodup_keys_overwrite ha.nodup b
  refine ⟨hnodup, fun e he => ?_⟩
  rw [← Entries.lookup_eq_some_iff hnodup, Entries.lookup_overwrite, Entries.last?_of_nodup hb.nodup,
    Option.or_eq_some_iff, Entries.lookup_eq_some_iff hb.nodup] at he
  obtain hlater | ⟨_, hearlier⟩ := he
  · exact hb.takes e hlater
  · exact ha.takes e ((Entries.lookup_eq_some_iff ha.nodup).1 hearlier)

theorem unknownNames_overwrite (hnames : unknownNames a = []) (ha : a.IsSuited) (hb : b.IsSuited) :
    unknownNames (Entries.overwrite a b) = unknownNames b := by
  apply List.Perm.eq_of_pairwise (fun x y _ _ => String.le_antisymm) (pairwise_unknownNames _)
    (pairwise_unknownNames _)
  have hleft := nodup_unknownNames (Entries.nodup_keys_overwrite ha.nodup b)
  rw [List.perm_ext_iff_of_nodup hleft (nodup_unknownNames hb.nodup)]
  intro name
  rw [mem_unknownNames, mem_unknownNames, Changes.Misses, Entries.mem_keys_overwrite]
  constructor
  · rintro ⟨hearlier | hlater, hname⟩
    · exact absurd ⟨hearlier, hname⟩ (unknownNames_eq_nil_iff.1 hnames name)
    · exact ⟨hlater, hname⟩
  · rintro ⟨hlater, hname⟩
    exact ⟨.inr hlater, hname⟩

/-- Changing settings in turn is changing them at once, the later values written over the earlier. -/
theorem changed_overwrite (p : Policy) (ha : a.IsSuited) (hb : b.IsSuited) :
    p.changed (Entries.overwrite a b) = (p.changed a).changed b := by
  apply eq_of_get_eq
  intro s
  rw [get_changed p (isSuited_overwrite ha hb), get_changed _ hb, get_changed p ha,
    Entries.lookup_overwrite, Entries.last?_of_nodup hb.nodup]
  cases b.lookup s.name <;> rfl

theorem override_override (ha : a.IsSuited) (hb : b.IsSuited) (hq : p.override a = some (.ok q)) :
    q.override b = p.override (Entries.overwrite a b) := by
  obtain ⟨hnames, rfl, _⟩ := override_eq_ok ha hq
  have hmerged := unknownNames_overwrite hnames ha hb
  cases hlater : unknownNames b with
  | nil =>
    rw [override_of_unknownNames_eq_nil _ hb hlater,
      override_of_unknownNames_eq_nil p (isSuited_overwrite ha hb) (hmerged.trans hlater),
      changed_overwrite p ha hb]
  | cons first rest =>
    rw [override_of_unknownNames_eq_cons _ hlater, override_of_unknownNames_eq_cons p (hmerged.trans hlater)]

end Composition

/-- Changes keep a valid policy valid, one after the other: its four bounded numbers are at least zero after
every step, but for one that it came with as "not a number". Each step fails exactly if it names a setting
that does not exist, which is told first, or would make a bounded number negative, and leaves the policy as
it was then. Two changes in turn, the first of which succeeds, come to the same as one with the later values
written over the earlier: to the same policy, or to the same fault. -/
theorem override_keeps_bounds_and_composes (p : Policy) (hp : p.fault? = none) :
    (∀ steps : List Changes, (∀ changes ∈ steps, changes.IsSuited) →
      p.IsBoundedFrom (p.after steps) ∧
        ∀ changes : Changes, changes.IsSuited → changes.ActsOn (p.after steps)) ∧
    ∀ a b : Changes, ∀ q, a.IsSuited → b.IsSuited → p.override a = some (.ok q) →
      q.override b = p.override (Entries.overwrite a b) := by
  constructor
  · intro steps hsteps
    have hbounded := (isBoundedFrom_refl hp).after hsteps
    exact ⟨hbounded, fun changes hchanges => actsOn hbounded.fault? hchanges⟩
  · intro a b q ha hb hq
    exact override_override ha hb hq

/-- Of two steps the first is refused and the second is not. Then changes of two settings that do not exist
are refused for the first name in the alphabet; and changes that would make two numbers negative are refused
for the duration, which is checked first, in turn as well as at once. -/
theorem override_keeps_bounds_and_composes_of_refused_steps :
    let steps : List Changes :=
      [[("delay_between_continuations", .int (-1))], [("max_total_duration", .int 60)]]
    let unknown : Changes := [("pause", .null), ("max_continuations", .int (-1)), ("colour", .null)]
    let a : Changes := [("max_continuations", .int 0), ("delay_between_continuations", .int 2)]
    let b : Changes := [("min_progress_per_continuation", .int (-5)), ("max_total_duration", .int (-1))]
    let q : Policy := { Policy.default with maxContinuations := .int 0, delay := .int 2 }
    default.fault? = none ∧ (∀ changes ∈ steps, changes.IsSuited) ∧ unknown.IsSuited ∧
      a.IsSuited ∧ b.IsSuited ∧ default.override a = some (.ok q) ∧
      default.IsBoundedFrom (default.after steps) ∧ unknown.ActsOn (default.after steps) ∧
      q.override b = default.override (Entries.overwrite a b) := by
  intro steps unknown a b q
  have hsteps : ∀ changes ∈ steps, changes.IsSuited := by decide
  have hunknown : unknown.IsSuited := by decide
  have ha : a.IsSuited := by decide
  have hb : b.IsSuited := by decide
  have hdefault : default.fault? = none := by decide +kernel
  have hq : default.override a = some (.ok q) := by
    have hfault : q.fault? = none := by decide +kernel
    have hnames : unknownNames a = [] := by decide +kernel
    have hchanged : default.changed a = q := by decide +kernel
    rw [override_of_unknownNames_eq_nil default ha hnames, hchanged, validated, hfault]
  obtain ⟨hruns, hcomposes⟩ := override_keeps_bounds_and_composes default hdefault
  obtain ⟨hbounded, hacts⟩ := hruns steps hsteps
  exact ⟨hdefault, hsteps, hunknown, ha, hb, hq, hbounded, hacts unknown hunknown,
    hcomposes a b q ha hb hq⟩

end Policy

end Rejoin
