import Rejoin.Proofs.Policy.Override
import Rejoin.Settings.Basic

/-!
How settings are read from values, by any converter. A field is read from the value that is given for it
alone, whatever the other fields are, and keeps its default where none is given. The values that are refused
are told in the order of the fields. What was read is a value that the field may have, and is read as itself
if the converter leaves values of the right type alone; it satisfies the checks of a policy and of the
options of a detector, so that settings can always be turned into these.
-/

namespace Rejoin

/-- A count is not negative. -/
theorem Number.isNegative_natCast (n : Nat) : (Number.int n).isNegative = false := by
  have hle : ¬ ((n : Int) : Rat) < ((0 : Int) : Rat) := by
    rw [Rat.intCast_lt_intCast]
    omega
  exact decide_eq_false hle

namespace Settings

variable {s t : Settings} {f r : Field} {fs : List Field} {conv : Converter}
  {g : Yaml.Node} {v w : Values} {reason : Refusal}

section Fields

/-- The value that a field is read as from what is given for it, or why that is refused. -/
def reading (conv : Converter) (f : Field) (g : Yaml.Node) : Except Refusal Value :=
  (read conv default f g).map (·.get f)

/-- A value that is read once and set in two places is set in both or in neither. -/
theorem set_alike {α β ε : Type} (x : Except ε α) {k m : α → β} {rel : β → β → Prop}
    (h : ∀ a, rel (k a) (m a)) :
    (∃ b c, (x >>= fun a => pure (k a)) = .ok b ∧ (x >>= fun a => pure (m a)) = .ok c ∧ rel b c) ∨
    ∃ error, (x >>= fun a => pure (k a)) = .error error ∧ (x >>= fun a => pure (m a)) = .error error := by
  cases x with
  | ok a => exact .inl ⟨k a, m a, rfl, rfl, h a⟩
  | error error => exact .inr ⟨error, rfl, rfl⟩

/-- A setting of a policy is read alike, whatever the rest of the policy is. -/
theorem readPolicy_cases (conv : Converter) (p q : Policy) (g : Yaml.Node) (x : Policy.Setting) :
    (∃ a b, readPolicy conv p g x = .ok a ∧ readPolicy conv q g x = .ok b ∧
      ∀ y, a.get y = if y = x then b.get x else p.get y) ∨
    ∃ reason, readPolicy conv p g x = .error reason ∧ readPolicy conv q g x = .error reason := by
  cases x
  all_goals
    apply set_alike
    intro value y
    cases y <;> rfl

/-- A part of the options of a detector is read alike, whatever the rest of the options is. -/
theorem readOptions_cases (conv : Converter) (o q : DetectorOptions) (g : Yaml.Node)
    (x : DetectorOptions.Setting) :
    (∃ a b, readOptions conv o g x = .ok a ∧ readOptions conv q g x = .ok b ∧
      ∀ y, a.get y = if y = x then b.get x else o.get y) ∨
    ∃ reason, readOptions conv o g x = .error reason ∧ readOptions conv q g x = .error reason := by
  cases x
  all_goals
    apply set_alike
    intro value y
    cases y <;> rfl

/-- A field is read alike in all settings, and the other fields stay as they are. -/
theorem read_cases (conv : Converter) (s : Settings) (f : Field) (g : Yaml.Node) :
    (∃ t, read conv s f g = .ok t ∧ reading conv f g = .ok (t.get f) ∧ t.given = s.given ∧
      ∀ r, r ≠ f → t.get r = s.get r) ∨
    ∃ reason, read conv s f g = .error reason ∧ reading conv f g = .error reason := by
  cases f with
  | level =>
    simp only [reading, read]
    cases conv.level g with
    | error reason => exact .inr ⟨reason, rfl, rfl⟩
    | ok l =>
      refine .inl ⟨_, rfl, rfl, rfl, fun r hr => ?_⟩
      cases r with
      | level => exact absurd rfl hr
      | policy | options => rfl
  | policy x =>
    simp only [reading, read]
    obtain ⟨a, b, ha, hb, hget⟩ | ⟨reason, ha, hb⟩ := readPolicy_cases conv s.policy default.policy g x
    · rw [ha, hb]
      refine .inl ⟨_, rfl, congrArg Except.ok ?_, rfl, fun r hr => ?_⟩
      · exact ((hget x).trans (if_pos rfl)).symm
      cases r with
      | level | options => rfl
      | policy y => exact (hget y).trans (if_neg fun hy => hr (congrArg Field.policy hy))
    · rw [ha, hb]
      exact .inr ⟨reason, rfl, rfl⟩
  | options x =>
    simp only [reading, read]
    obtain ⟨a, b, ha, hb, hget⟩ | ⟨reason, ha, hb⟩ := readOptions_cases conv s.options default.options g x
    · rw [ha, hb]
      refine .inl ⟨_, rfl, congrArg Except.ok ?_, rfl, fun r hr => ?_⟩
      · exact ((hget x).trans (if_pos rfl)).symm
      cases r with
      | level | policy => rfl
      | options y => exact (hget y).trans (if_neg fun hy => hr (congrArg Field.options hy))
    · rw [ha, hb]
      exact .inr ⟨reason, rfl, rfl⟩

theorem exists_read {x : Value} (h : reading conv f g = .ok x) (s : Settings) :
    ∃ t, read conv s f g = .ok t ∧ t.get f = x := by
  obtain ⟨t, hread, hreading, -⟩ | ⟨reason, -, hreading⟩ := read_cases conv s f g
  · rw [hreading, Except.ok.injEq] at h
    exact ⟨t, hread, h⟩
  · rw [hreading] at h
    cases h

end Fields

section Constraints

/-- The values that a field may have. -/
def Field.Admits : Field → Value → Prop
  | .level, v => ∃ l ∈ levels, v = .text l.name
  | .policy .maxContinuations, v | .policy .minProgress, v | .options .minLength, v =>
    ∃ n : Nat, v = .int n
  | .policy .maxDuration, v | .policy .delay, v =>
    ∃ x, v = .number (.real x) ∧ (Number.int 0).le (.real x) = true
  | .policy .prompt, v => ∃ t, v = .text (String.ofList t) ∧ Text.trim t ≠ []
  | .options .terminators, v => ∃ t, v = .text (String.ofList t) ∧ t ≠ []
  | .options .markers, v => ∃ t, v = .text (String.ofList t)
  | .policy .repairsJson, v | .policy .repairsFences, v | .policy .includesPrevious, v
  | .policy .failsAtCap, v | .options .structural, v | .options .heuristic, v => ∃ b, v = .bool b

theorem bind_eq_ok_iff {α β ε : Type} {x : Except ε α} {k : α → Except ε β} {b : β} :
    (x >>= k) = .ok b ↔ ∃ a, x = .ok a ∧ k a = .ok b := by
  cases x with
  | error => simp [bind, Except.bind]
  | ok => simp [bind, Except.bind]

theorem mem_levels_of_levelOf {l : Log.Level} {t : List Char} (h : levelOf t = .ok l) : l ∈ levels := by
  rw [levelOf] at h
  split at h
  · next hsome =>
    cases h
    exact List.mem_of_find?_eq_some hsome
  · cases h

namespace Converter

theorem mem_levels {l : Log.Level} (h : conv.level g = .ok l) : l ∈ levels := by
  obtain ⟨t, _, hlevel⟩ := bind_eq_ok_iff.1 h
  exact mem_levels_of_levelOf hlevel

theorem zero_le_of_duration {x : Binary64} (h : conv.duration g = .ok x) :
    (Number.int 0).le (.real x) = true := by
  obtain ⟨y, _, hbound⟩ := bind_eq_ok_iff.1 h
  split at hbound
  · next hle =>
    cases hbound
    exact hle
  · cases hbound

theorem trim_ne_nil_of_prompt {t : List Char} (h : conv.prompt g = .ok t) : Text.trim t ≠ [] := by
  obtain ⟨u, _, hblank⟩ := bind_eq_ok_iff.1 h
  split at hblank
  · cases hblank
  · next hnot =>
    cases hblank
    exact fun hnil => hnot (List.isEmpty_iff.2 hnil)

theorem ne_nil_of_someText {t : List Char} (h : conv.someText g = .ok t) : t ≠ [] := by
  obtain ⟨u, _, hempty⟩ := bind_eq_ok_iff.1 h
  split at hempty
  · cases hempty
  · next hnot =>
    cases hempty
    exact fun hnil => hnot (List.isEmpty_iff.2 hnil)

end Converter

theorem admits_of_readPolicy {p q : Policy} {x : Policy.Setting} (h : readPolicy conv p g x = .ok q) :
    (Field.policy x).Admits (q.get x) := by
  cases x
  all_goals
    obtain ⟨n, hn, hset⟩ := bind_eq_ok_iff.1 h
    cases hset
  case maxDuration | delay => exact ⟨n, rfl, Converter.zero_le_of_duration hn⟩
  case prompt => exact ⟨n, rfl, Converter.trim_ne_nil_of_prompt hn⟩
  all_goals exact ⟨n, rfl⟩

theorem admits_of_readOptions {o q : DetectorOptions} {x : DetectorOptions.Setting}
    (h : readOptions conv o g x = .ok q) : (Field.options x).Admits (q.get x) := by
  cases x
  all_goals
    obtain ⟨n, hn, hset⟩ := bind_eq_ok_iff.1 h
    cases hset
  case terminators => exact ⟨n, rfl, Converter.ne_nil_of_someText hn⟩
  all_goals exact ⟨n, rfl⟩

/-- A field that is read has a value that it may have. -/
theorem admits_of_read (h : read conv s f g = .ok t) : f.Admits (t.get f) := by
  cases f with
  | level =>
    obtain ⟨l, hl, hset⟩ := bind_eq_ok_iff.1 h
    cases hset
    exact ⟨l, Converter.mem_levels hl, rfl⟩
  | policy x =>
    obtain ⟨p, hp, hset⟩ := bind_eq_ok_iff.1 h
    cases hset
    exact admits_of_readPolicy hp
  | options x =>
    obtain ⟨o, ho, hset⟩ := bind_eq_ok_iff.1 h
    cases hset
    exact admits_of_readOptions ho

/-- Each default is a value that its field may have. -/
theorem admits_default (f : Field) : f.Admits (default.get f) := by
  cases f with
  | level => exact ⟨.info, by decide, rfl⟩
  | policy p =>
    cases p
    case maxContinuations => exact ⟨5, rfl⟩
    case minProgress => exact ⟨10, rfl⟩
    case maxDuration | delay => exact ⟨_, rfl, by decide +kernel⟩
    case prompt => exact ⟨_, rfl, by decide +kernel⟩
    all_goals exact ⟨_, rfl⟩
  | options o =>
    cases o
    case minLength => exact ⟨100, rfl⟩
    case terminators => exact ⟨_, rfl, by decide⟩
    all_goals exact ⟨_, rfl⟩

end Constraints

section Values

/-- Whether a field has the value that is given for it, or that of other settings where none is given. -/
structure IsReadFrom (conv : Converter) (v : Values) (s t : Settings) (f : Field) : Prop where
  given : ∀ g, v f = some g → reading conv f g = .ok (t.get f)
  kept : v f = none → t.get f = s.get f

/-- Whether the value that is given for a field is refused. -/
def Values.Refuses (v : Values) (conv : Converter) (f : Field) : Prop :=
  ∃ g reason, v f = some g ∧ reading conv f g = .error reason

/-- Whether a field is the first whose value is refused. -/
def Values.RefusesFirst (v : Values) (conv : Converter) (f : Field) : Prop :=
  v.Refuses conv f ∧ ∃ before rest, Field.all = before ++ f :: rest ∧ ∀ r ∈ before, ¬ v.Refuses conv r

theorem refusal?_eq (conv : Converter) (v : Values) (f : Field) :
    refusal? conv v f = match (v f).map (reading conv f) with
      | some (.error reason) => some ⟨f, reason⟩
      | _ => none := by
  rw [refusal?]
  cases v f with
  | none => rfl
  | some g =>
    rw [Option.map_some, Option.map_some]
    obtain ⟨t, hread, hreading, -⟩ | ⟨reason, hread, hreading⟩ := read_cases conv default f g
    · rw [hread, hreading]
    · rw [hread, hreading]

theorem refusal?_eq_some_iff {refused : Refused} :
    refusal? conv v f = some refused ↔ ∃ g reason, v f = some g ∧ reading conv f g = .error reason ∧
      refused = ⟨f, reason⟩ := by
  rw [refusal?_eq]
  cases v f with
  | none => simp
  | some g => cases hreading : reading conv f g <;> simp [hreading, eq_comm]

theorem refusal?_eq_none_iff : refusal? conv v f = none ↔ ¬ v.Refuses conv f := by
  rw [← not_iff_not, not_not, ← ne_eq, Option.ne_none_iff_exists']
  simp only [refusal?_eq_some_iff, Values.Refuses]
  exact ⟨fun ⟨_, g, reason, hg, hreading, _⟩ => ⟨g, reason, hg, hreading⟩,
    fun ⟨g, reason, hg, hreading⟩ => ⟨_, g, reason, hg, hreading, rfl⟩⟩

/-- Whether a value is refused, and how it is read, is all that matters of it. -/
theorem refuses_iff :
    v.Refuses conv f ↔ ∃ reason, (v f).map (reading conv f) = some (.error reason) := by
  simp only [Values.Refuses, Option.map_eq_some_iff]
  exact ⟨fun ⟨g, reason, hg, hreading⟩ => ⟨reason, g, hg, hreading⟩,
    fun ⟨reason, g, hg, hreading⟩ => ⟨g, reason, hg, hreading⟩⟩

theorem refusals_congr (h : ∀ f, (v f).map (reading conv f) = (w f).map (reading conv f)) :
    refusals conv v = refusals conv w := by
  apply List.filterMap_congr
  intro f _
  rw [refusal?_eq, refusal?_eq, h]

theorem IsReadFrom.congr (h : (v f).map (reading conv f) = (w f).map (reading conv f))
    (hread : IsReadFrom conv v s t f) : IsReadFrom conv w s t f where
  given g hg := by
    rw [hg, Option.map_some] at h
    obtain ⟨other, hother, hsame⟩ := Option.map_eq_some_iff.1 h
    rw [← hsame]
    exact hread.given other hother
  kept hnone := by
    rw [hnone, Option.map_none] at h
    exact hread.kept (Option.map_eq_none_iff.1 h)

/-- Taking a field from values that are not refused reads it, if it is given there, and leaves the other
    fields as they are. -/
theorem take_cases (hf : ¬ v.Refuses conv f) (s : Settings) :
    IsReadFrom conv v s (take conv v s f) f ∧ (∀ r, r ≠ f → (take conv v s f).get r = s.get r) ∧
      (take conv v s f).given = s.given ++ [f].filter fun f => (v f).isSome := by
  rw [take]
  cases hg : v f with
  | none => exact ⟨⟨by simp [hg], fun _ => rfl⟩, fun _ _ => rfl, by simp [hg]⟩
  | some g =>
    obtain ⟨t, hread, hreading, hgiven, hrest⟩ | ⟨reason, _, hreading⟩ := read_cases conv s f g
    · dsimp only
      rw [hread]
      refine ⟨⟨fun given hgiven => ?_, by simp [hg]⟩, hrest, by simp [hg, hgiven]⟩
      rw [hg] at hgiven
      cases hgiven
      exact hreading
    · exact absurd ⟨g, reason, hg, hreading⟩ hf

/-- Taking fields one after the other reads each that is given, since no field is taken twice. -/
theorem foldl_take (hfs : fs.Nodup) (hv : ∀ f ∈ fs, ¬ v.Refuses conv f) (s : Settings) :
    (∀ f ∈ fs, IsReadFrom conv v s (fs.foldl (take conv v) s) f) ∧
      (∀ r, r ∉ fs → (fs.foldl (take conv v) s).get r = s.get r) ∧
      (fs.foldl (take conv v) s).given = s.given ++ fs.filter fun f => (v f).isSome := by
  -- A field that was taken is not among the rest, which therefore leave it as it was read.
  induction fs generalizing s with
  | nil => simp
  | cons f rest ih =>
    obtain ⟨hnew, hrest⟩ := List.nodup_cons.1 hfs
    obtain ⟨htaken, hothers, hgiven⟩ := take_cases (hv f List.mem_cons_self) s
    obtain ⟨hread, hkept, hall⟩ := ih hrest (fun r hr => hv r (List.mem_cons_of_mem f hr)) (take conv v s f)
    rw [List.foldl_cons]
    refine ⟨fun r hr => ?_, fun r hr => ?_, ?_⟩
    · by_cases hrf : r = f
      · subst hrf
        have hget := hkept r hnew
        exact ⟨fun g hg => hget ▸ htaken.given g hg, fun hnone => hget.trans (htaken.kept hnone)⟩
      · have hr := hread r ((List.mem_cons.1 hr).resolve_left hrf)
        exact ⟨hr.given, fun hnone => (hr.kept hnone).trans (hothers r hrf)⟩
    · obtain ⟨hrf, hr⟩ := not_or.1 (mt List.mem_cons.2 hr)
      rw [hkept r hr, hothers r hrf]
    · rw [hall, hgiven, List.append_assoc, ← List.filter_append]
      rfl

theorem Field.nodup_all : Field.all.Nodup := by decide

/-- Either no value is refused, or the first refusal that is told is that of the first such field. -/
theorem refusals_cases (conv : Converter) (v : Values) :
    refusals conv v = [] ∧ (∀ f, ¬ v.Refuses conv f) ∨
    ∃ first rest, refusals conv v = first :: rest ∧ v.RefusesFirst conv first.field := by
  cases hrefusals : refusals conv v with
  | nil =>
    exact .inl ⟨rfl, fun f =>
      refusal?_eq_none_iff.1 (List.filterMap_eq_nil_iff.1 hrefusals f (Field.mem_all f))⟩
  | cons first rest =>
    have hfirst : Field.all.findSome? (refusal? conv v) = some first := by
      rw [← List.head?_filterMap]
      exact congrArg List.head? hrefusals
    obtain ⟨before, f, after, hall, hf, hbefore⟩ := List.findSome?_eq_some_iff.1 hfirst
    obtain ⟨g, reason, hg, hreading, rfl⟩ := refusal?_eq_some_iff.1 hf
    exact .inr ⟨_, rest, rfl, ⟨g, reason, hg, hreading⟩, before, after, hall,
      fun r hr => refusal?_eq_none_iff.1 (hbefore r hr)⟩

/-- Values that are not refused stand for settings in which each field is read from them. -/
theorem exists_ofValues (hv : ∀ f, ¬ v.Refuses conv f) :
    ∃ s, ofValues conv v = .ok s ∧ (∀ f, IsReadFrom conv v default s f) ∧
      s.given = Field.all.filter fun f => (v f).isSome := by
  obtain ⟨hnil, -⟩ | ⟨first, rest, -, hfirst, -⟩ := refusals_cases conv v
  · obtain ⟨hread, _, hgiven⟩ := foldl_take Field.nodup_all (fun f _ => hv f) default
    exact ⟨_, by rw [ofValues, hnil], fun f => hread f (Field.mem_all f), hgiven⟩
  · exact absurd hfirst (hv first.field)

/-- Otherwise all refusals are told. -/
theorem ofValues_of_refuses (hf : v.Refuses conv f) : ofValues conv v = .error (refusals conv v) := by
  obtain ⟨-, hnone⟩ | ⟨first, rest, hcons, -⟩ := refusals_cases conv v
  · exact absurd hf (hnone f)
  · rw [ofValues, hcons]

/-- A field has a value that it may have, if it is read from values or else keeps such a value. -/
theorem IsReadFrom.admits (h : IsReadFrom conv v s t f) (hs : f.Admits (s.get f)) : f.Admits (t.get f) := by
  cases hg : v f with
  | none =>
    rw [h.kept hg]
    exact hs
  | some g =>
    obtain ⟨u, hread, hu⟩ := exists_read (h.given g hg) s
    rw [← hu]
    exact admits_of_read hread

end Values

section Again

/-- Whether a converter leaves values alone that have the type that is asked for. -/
structure Converter.KeepsOwn (conv : Converter) : Prop where
  integer : ∀ i, conv.integer (.scalar (.number (.int i))) = .ok i
  real : ∀ x, conv.real (.scalar (.number (.real x))) = .ok x
  truth : ∀ b, conv.truth (.scalar (.truth b)) = .ok b
  text : ∀ t, conv.text (.scalar (.text t)) = .ok t

theorem levelOf_name {l : Log.Level} (hl : l ∈ levels) : levelOf l.name.toList = .ok l := by
  have hall : ∀ l ∈ levels, (levelOf l.name.toList).toOption = some l := by decide +kernel
  have hsome := hall l hl
  cases hlevel : levelOf l.name.toList with
  | error reason =>
    rw [hlevel] at hsome
    cases hsome
  | ok m =>
    rw [hlevel] at hsome
    rw [Option.some_inj.1 hsome]

namespace Converter.KeepsOwn

variable (hconv : conv.KeepsOwn)
include hconv

theorem truthValue_truth (b : Bool) : conv.truthValue (.scalar (.truth b)) = .ok b := by
  rw [truthValue, hconv.truth]
  rfl

theorem textValue_text (t : List Char) : conv.textValue (.scalar (.text t)) = .ok t := by
  rw [textValue, hconv.text]
  rfl

theorem count_natCast (n : Nat) : conv.count (.scalar (.number (.int n))) = .ok n := by
  have hn : ¬ (n : Int) < 0 := by omega
  apply bind_eq_ok_iff.2
  refine ⟨n, ?_, by rw [if_neg hn, Int.toNat_natCast]⟩
  rw [hconv.integer]
  rfl

theorem duration_real {x : Binary64} (hx : (Number.int 0).le (.real x) = true) :
    conv.duration (.scalar (.number (.real x))) = .ok x := by
  apply bind_eq_ok_iff.2
  refine ⟨x, ?_, if_pos hx⟩
  rw [hconv.real]
  rfl

theorem prompt_text {t : List Char} (ht : Text.trim t ≠ []) :
    conv.prompt (.scalar (.text t)) = .ok t :=
  bind_eq_ok_iff.2 ⟨t, hconv.textValue_text t, if_neg (mt List.isEmpty_iff.1 ht)⟩

theorem someText_text {t : List Char} (ht : t ≠ []) : conv.someText (.scalar (.text t)) = .ok t :=
  bind_eq_ok_iff.2 ⟨t, hconv.textValue_text t, if_neg (mt List.isEmpty_iff.1 ht)⟩

theorem level_name {l : Log.Level} (hl : l ∈ levels) :
    conv.level (.scalar (.text l.name.toList)) = .ok l :=
  bind_eq_ok_iff.2 ⟨l.name.toList, hconv.textValue_text _, levelOf_name hl⟩

theorem readPolicy_ofValue {p q : Policy} {x : Policy.Setting} (h : readPolicy conv p g x = .ok q) :
    readPolicy conv p (.ofValue (q.get x)) x = .ok q := by
  cases x
  all_goals
    obtain ⟨n, hn, hset⟩ := bind_eq_ok_iff.1 h
    cases hset
    apply bind_eq_ok_iff.2
  case maxContinuations | minProgress => exact ⟨n, hconv.count_natCast n, rfl⟩
  case maxDuration | delay => exact ⟨n, hconv.duration_real (zero_le_of_duration hn), rfl⟩
  case prompt =>
    rw [Policy.get, Yaml.Node.ofValue, String.toList_ofList]
    exact ⟨n, hconv.prompt_text (trim_ne_nil_of_prompt hn), rfl⟩
  all_goals exact ⟨n, hconv.truthValue_truth n, rfl⟩

theorem readOptions_ofValue {o q : DetectorOptions} {x : DetectorOptions.Setting}
    (h : readOptions conv o g x = .ok q) :
    readOptions conv o (.ofValue (q.get x)) x = .ok q := by
  cases x
  all_goals
    obtain ⟨n, hn, hset⟩ := bind_eq_ok_iff.1 h
    cases hset
    apply bind_eq_ok_iff.2
  case minLength => exact ⟨n, hconv.count_natCast n, rfl⟩
  case terminators =>
    rw [DetectorOptions.get, Yaml.Node.ofValue, String.toList_ofList]
    exact ⟨n, hconv.someText_text (ne_nil_of_someText hn), rfl⟩
  case markers =>
    rw [DetectorOptions.get, Yaml.Node.ofValue, String.toList_ofList]
    exact ⟨n, hconv.textValue_text n, rfl⟩
  all_goals exact ⟨n, hconv.truthValue_truth n, rfl⟩

/-- What was read for a field is read as itself. -/
theorem read_ofValue (h : read conv s f g = .ok t) : read conv s f (.ofValue (t.get f)) = .ok t := by
  cases f with
  | level =>
    obtain ⟨l, hl, hset⟩ := bind_eq_ok_iff.1 h
    cases hset
    exact bind_eq_ok_iff.2 ⟨l, hconv.level_name (mem_levels hl), rfl⟩
  | policy x =>
    obtain ⟨p, hp, hset⟩ := bind_eq_ok_iff.1 h
    cases hset
    exact bind_eq_ok_iff.2 ⟨p, hconv.readPolicy_ofValue hp, rfl⟩
  | options x =>
    obtain ⟨o, ho, hset⟩ := bind_eq_ok_iff.1 h
    cases hset
    exact bind_eq_ok_iff.2 ⟨o, hconv.readOptions_ofValue ho, rfl⟩

theorem reading_ofValue {x : Value} (h : reading conv f g = .ok x) :
    reading conv f (.ofValue x) = .ok x := by
  obtain ⟨t, hread, rfl⟩ := exists_read h default
  rw [reading, hconv.read_ofValue hread]
  rfl

end Converter.KeepsOwn

end Again

section Conversions

/-- Settings whose fields have values that they may have describe a policy. -/
theorem toPolicy_of_admits (h : ∀ x, (Field.policy x).Admits (s.policy.get x)) :
    s.toPolicy = .ok s.policy := by
  have hfault : s.policy.fault? = none := by
    apply Policy.fault?_eq_none_iff.2
    intro x n hmem
    obtain ⟨hbounded, hget⟩ := Policy.mem_bounded_iff.1 hmem
    have hx := h x
    rw [hget] at hx
    cases x
    case maxContinuations | minProgress =>
      obtain ⟨k, hk⟩ := hx
      cases hk
      exact Number.isNegative_natCast k
    case maxDuration | delay =>
      obtain ⟨y, hy, hle⟩ := hx
      cases hy
      exact Number.not_isNegative_of_zero_le hle
    all_goals simp [Policy.boundedSettings] at hbounded
  rw [toPolicy, Policy.validated, hfault]

/-- Settings whose fields have values that they may have describe options of a detector. -/
theorem toOptions_of_admits (h : ∀ x, (Field.options x).Admits (s.options.get x)) :
    s.toOptions = .ok s.options := by
  obtain ⟨t, hget, ht⟩ := h .terminators
  have hterminators : s.options.terminators = t := by
    rw [DetectorOptions.get, Value.text.injEq, String.ofList_inj] at hget
    exact hget
  have hlength : ¬ (s.options.minLength : Int) < 0 := by omega
  have hsome : ¬ s.options.terminators.isEmpty = true := by
    rw [hterminators, List.isEmpty_iff]
    exact ht
  rw [toOptions, DetectorOptions.build, if_neg hlength, if_neg hsome, Int.toNat_natCast]

end Conversions

end Settings

end Rejoin
