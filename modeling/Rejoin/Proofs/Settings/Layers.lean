import Mathlib.Data.Set.List
import Rejoin.Proofs.Entries
import Rejoin.Proofs.Settings.Documented

/-!
The layers of settings, loaded by any means that do what they are documented to do. A field has the value
that the surroundings give it, or else the one that is written last in the file, or else its default. In
the file the entries of a section count as if they stood in its place.

A field is named in any case. Where it is spelled in several ways at once, in the file or in the file and
by the surroundings, the means take one of the values, and which one is not said: `Counts` leaves this open.
-/

namespace Rejoin.Settings

open Yaml

variable {E : Type} {means : Means E} {conv : Converter} {surroundings : E → Values} {e : E}
  {entries l : List Entry} {entry : Entry} {written dumped : List (String × Node)} {f : Field}
  {name : String} {n : Node} {s : Settings} {v strong : Values}

section Written

/-- Whether a key can name a field: a text that does not start with an underscore. -/
def IsName : Scalar → Prop
  | .text t => t.head? ≠ some '_'
  | _ => False

instance : DecidablePred IsName
  | .text t => inferInstanceAs (Decidable (t.head? ≠ some '_'))
  | .null | .truth _ | .number _ | .date => isFalse id

/-- Whether a node is a mapping whose keys are names. -/
def IsNamedMapping : Node → Prop
  | .mapping inner => ∀ k ∈ keys inner, IsName k
  | _ => False

instance : DecidablePred IsNamedMapping
  | .mapping inner => inferInstanceAs (Decidable (∀ k ∈ keys inner, IsName k))
  | .scalar _ | .list _ => isFalse id

instance : DecidablePred IsSection := fun k =>
  inferInstanceAs (Decidable (∃ name ∈ sections, k = .text name.toList))

/-- Whether all keys are names, at the top and in the sections, which are mappings. -/
structure AreNamed (entries : List Entry) : Prop where
  names : ∀ k ∈ keys entries, IsName k
  sections : ∀ entry ∈ entries, IsSection entry.1 → IsNamedMapping entry.2

theorem IsName.isText {k : Scalar} (h : IsName k) : k.IsText := by
  cases k with
  | text t => exact ⟨t, rfl⟩
  | null | truth | number | date => cases h

theorem IsNamedMapping.exists_mapping {n : Node} (h : IsNamedMapping n) :
    ∃ inner, n = .mapping inner ∧ ∀ k ∈ keys inner, IsName k := by
  cases n with
  | mapping inner => exact ⟨inner, rfl, h⟩
  | scalar | list => cases h

/-- The entries that stand for an entry: those of a section, or the entry itself. -/
def part (entry : Entry) : List Entry :=
  match section? entry.1, entry.2 with
  | some _, .mapping inner => inner
  | _, _ => [entry]

/-- All entries of a file in the order in which they are written, the sections opened. -/
def opened (entries : List Entry) : List Entry := entries.flatMap part

/-- What is written in a file: the names and the values of its entries, in their order. -/
def writtenIn (entries : List Entry) : List (String × Node) := (opened entries).filterMap named?

theorem mapM_eq_ok_map {α β ε : Type} {x : α → Except ε β} {y : α → β} {as : List α}
    (h : ∀ a ∈ as, x a = .ok (y a)) : as.mapM x = .ok (as.map y) := by
  induction as with
  | nil => rfl
  | cons a rest ih =>
    rw [List.mapM_cons, h a List.mem_cons_self, ih fun b hb => h b (List.mem_cons_of_mem a hb)]
    rfl

theorem expand_eq_part (h : AreNamed entries) (hentry : entry ∈ entries) :
    expand entry = .ok (part entry) := by
  rw [expand, part]
  cases hsection : section? entry.1 with
  | none => rfl
  | some name =>
    have hname : IsSection entry.1 := section?_isSome_iff.1 (by rw [hsection]; rfl)
    obtain ⟨inner, hinner, _⟩ := (h.sections entry hentry hname).exists_mapping
    rw [hinner]

theorem isName_of_opened (h : AreNamed entries) {k : Scalar} (hk : k ∈ keys (opened entries)) :
    IsName k := by
  obtain ⟨v, hv⟩ := mem_keys_iff.1 hk
  obtain ⟨entry, hentry, hpart⟩ := List.mem_flatMap.1 hv
  obtain ⟨_, hsame⟩ | ⟨hname, hinner⟩ := expand_eq_ok_iff.1 (expand_eq_part h hentry)
  · rw [hsame, List.mem_singleton] at hpart
    exact h.names k (mem_keys_iff.2 ⟨v, hpart ▸ hentry⟩)
  · obtain ⟨inner, hvalue, hnames⟩ := (h.sections entry hentry hname).exists_mapping
    rw [hinner, Node.mapping.injEq] at hvalue
    exact hnames k (mem_keys_iff.2 ⟨v, hvalue ▸ hpart⟩)

theorem flatten_eq_overwrite (h : AreNamed entries) :
    flatten entries = .ok (Entries.overwrite [] (opened entries)) := by
  have hparts : entries.mapM expand = .ok (entries.map part) :=
    mapM_eq_ok_map fun entry hentry => expand_eq_part h hentry
  rw [flatten, hparts]
  simp only [Entries.foldl_insert_eq_overwrite]
  rfl

theorem ofDocument_eq_overwrite (h : AreNamed entries) (path : String) :
    ofDocument path (.mapping entries) = .ok (Entries.overwrite [] (opened entries)) := by
  rw [ofDocument]
  cases entries with
  | nil => rfl
  | cons entry rest => exact flatten_eq_overwrite h

theorem exists_eq_map_asEntry (hl : ∀ k ∈ keys l, k.IsText) : l = (l.filterMap named?).map asEntry := by
  cases hnamed : l.mapM named? with
  | none =>
    obtain ⟨k, hk, hnot⟩ := mapM_named?_eq_none_iff.1 hnamed
    exact absurd (hl k hk) hnot
  | some m =>
    obtain rfl := mapM_named?_eq_some_iff.1 hnamed
    rw [List.filterMap_map, show named? ∘ asEntry = some from funext named?_asEntry, List.filterMap_some]

/-- What is handed over is what is written in the file and what is written over it, under the same names. -/
theorem mapM_named?_writeOver (hl : ∀ k ∈ keys l, k.IsText) (dumped : List (String × Node)) :
    (writeOver (Entries.overwrite [] l) dumped).mapM named? =
      some (Entries.overwrite [] (l.filterMap named? ++ dumped)) := by
  have hname : Function.Injective fun name : String => Scalar.text name.toList :=
    fun _ _ h => String.toList_inj.1 (Scalar.text.inj h)
  apply mapM_named?_eq_some_iff.2
  calc writeOver (Entries.overwrite [] l) dumped
      = Entries.overwrite (Entries.overwrite [] l) (dumped.map asEntry) := rfl
    _ = Entries.overwrite [] ((l.filterMap named? ++ dumped).map asEntry) := by
        rw [List.map_append, ← exists_eq_map_asEntry hl, Entries.overwrite_append]
    _ = (Entries.overwrite [] (l.filterMap named? ++ dumped)).map asEntry :=
        (Entries.map_overwrite hname id [] _).symm

theorem isFree_of_written (h : AreNamed entries) {w : String × Node} (hw : w ∈ writtenIn entries) :
    IsFree w.1 := by
  obtain ⟨entry, hentry, hnamed⟩ := List.mem_filterMap.1 hw
  have hname : IsName entry.1 := isName_of_opened h (List.mem_map_of_mem hentry)
  rw [asEntry_of_named? hnamed] at hname
  exact hname

end Written

section Counts

/-- Whether a value may count for a field: that of the surroundings; one that is written last under a name
    of the field, unless the surroundings write theirs under the same name; or none, where the field is
    named nowhere. -/
inductive Counts (strong : Values) (written : List (String × Node)) (f : Field) : Option Node → Prop where
  | surroundings {n : Node} (hstrong : strong f = some n) : Counts strong written f (some n)
  | file {name : String} {n : Node} (hname : foldName name = f.name)
      (hother : strong f = none ∨ name ≠ f.name) (hlast : Entries.last? name written = some n) :
      Counts strong written f (some n)
  | default (hstrong : strong f = none) (hnone : ∀ name ∈ Entries.keys written, foldName name ≠ f.name) :
      Counts strong written f none

theorem foldName_name (f : Field) : foldName f.name = f.name := by
  cases f with
  | level => decide +kernel
  | policy x => cases x <;> decide +kernel
  | options x => cases x <;> decide +kernel

theorem Field.name_injective {f r : Field} (h : f.name = r.name) : f = r := by
  have hall : ∀ f ∈ Field.all, ∀ r ∈ Field.all, f.name = r.name → f = r := by decide +kernel
  exact hall f (Field.mem_all f) r (Field.mem_all r) h

theorem exists_counts (strong : Values) (written : List (String × Node)) (f : Field) :
    ∃ c, Counts strong written f c := by
  cases hstrong : strong f with
  | some n => exact ⟨some n, .surroundings hstrong⟩
  | none =>
    by_cases hnamed : ∃ name ∈ Entries.keys written, foldName name = f.name
    · obtain ⟨name, hmem, hname⟩ := hnamed
      obtain ⟨n, hlast⟩ := Option.isSome_iff_exists.1 (Entries.last?_isSome_iff.2 hmem)
      exact ⟨some n, .file hname (.inl hstrong) hlast⟩
    · exact ⟨none, .default hstrong fun name hmem hname => hnamed ⟨name, hmem, hname⟩⟩

/-- A value of the surroundings counts, if the file does not spell the field otherwise. -/
theorem Counts.eq_surroundings {c : Option Node} (h : Counts strong written f c)
    (hstrong : strong f = some n)
    (hown : ∀ name ∈ Entries.keys written, foldName name = f.name → name = f.name) : c = some n := by
  cases h with
  | surroundings hother => rw [← hother, hstrong]
  | file hname hother hlast =>
    obtain hnone | hne := hother
    · cases hstrong.symm.trans hnone
    · have hmem := Entries.last?_isSome_iff.1 (Option.isSome_of_mem hlast)
      exact absurd (hown _ hmem hname) hne
  | default hnone => cases hstrong.symm.trans hnone

/-- Where the surroundings give none and the file spells a field in one way only, the value counts that is
    written last. -/
theorem Counts.eq_last {c : Option Node} (h : Counts strong written f c) (hstrong : strong f = none)
    (hname : foldName name = f.name)
    (hone : ∀ other ∈ Entries.keys written, foldName other = f.name → other = name) :
    c = Entries.last? name written := by
  cases h with
  | surroundings hsome => cases hstrong.symm.trans hsome
  | file hother _ hlast =>
    have hmem := Entries.last?_isSome_iff.1 (Option.isSome_of_mem hlast)
    rw [← hone _ hmem hother, hlast]
  | default _ hnone => exact (Entries.last?_eq_none fun hmem => hnone name hmem hname).symm

/-- Whether a name is that of a field, in any case. -/
def namesField (name : String) : Bool := Field.all.any fun f => foldName name = f.name

theorem namesField_of_fold (hname : foldName name = f.name) : namesField name = true :=
  List.any_eq_true.2 ⟨f, Field.mem_all f, decide_eq_true hname⟩

/-- Names of no field do not matter. -/
theorem counts_filter_iff {c : Option Node} :
    Counts strong (written.filter fun w => namesField w.1) f c ↔ Counts strong written f c := by
  have hlast {name : String} (hname : foldName name = f.name) :
      Entries.last? name (written.filter fun w => namesField w.1) = Entries.last? name written :=
    Entries.last?_filter (namesField_of_fold hname) written
  have hkeys {name : String} (hname : foldName name = f.name) :
      name ∈ Entries.keys (written.filter fun w => namesField w.1) ↔ name ∈ Entries.keys written := by
    rw [← Entries.last?_isSome_iff, ← Entries.last?_isSome_iff, hlast hname]
  constructor
  · intro h
    cases h with
    | surroundings hstrong => exact .surroundings hstrong
    | file hname hother hfound => exact .file hname hother ((hlast hname).symm.trans hfound)
    | default hstrong hnone =>
      exact .default hstrong fun name hmem hname => hnone name ((hkeys hname).2 hmem) hname
  · intro h
    cases h with
    | surroundings hstrong => exact .surroundings hstrong
    | file hname hother hfound => exact .file hname hother ((hlast hname).trans hfound)
    | default hstrong hnone =>
      exact .default hstrong fun name hmem hname => hnone name ((hkeys hname).1 hmem) hname

end Counts

section Again

theorem mem_keys_dump : name ∈ Entries.keys (Standard.dump s) ↔ ∃ f ∈ s.given, f.name = name := by
  rw [Entries.keys, Standard.dump, List.map_map, List.mem_map]
  rfl

theorem last?_dump (hs : s.given.Nodup) (hf : f ∈ s.given) :
    Entries.last? f.name (Standard.dump s) = some (.ofValue (s.get f)) := by
  have hnodup : (Entries.keys (Standard.dump s)).Nodup := by
    rw [Entries.keys, Standard.dump, List.map_map]
    exact hs.map fun _ _ => Field.name_injective
  rw [Entries.last?_of_nodup hnodup, Entries.lookup_eq_some_iff hnodup]
  exact List.mem_map_of_mem hf

/-- Under a name of a field, what was written last is what the surroundings gave it, if the name is the
    field's own and they gave something; else it is what the file has under that name. -/
theorem last?_append_dump (hs : s.given.Nodup) (hname : foldName name = f.name)
    (written : List (String × Node)) :
    Entries.last? name (written ++ Standard.dump s) =
      if name = f.name ∧ f ∈ s.given then some (.ofValue (s.get f))
      else Entries.last? name written := by
  rw [Entries.last?_append]
  split
  · next h => rw [h.1, last?_dump hs h.2, Option.some_or]
  · next h =>
    rw [Entries.last?_eq_none, Option.none_or]
    intro hmem
    obtain ⟨r, hr, rfl⟩ := mem_keys_dump.1 hmem
    obtain rfl : r = f := Field.name_injective ((foldName_name r).symm.trans hname)
    exact h ⟨rfl, hr⟩

/-- What the means find for a field, where the values of the surroundings were read before and written over
    those of the file, is read like a value that counts. -/
theorem exists_counts_of_named (hconv : conv.KeepsOwn) {c : Option Node}
    (hread : ∀ f, IsReadFrom conv strong default s f)
    (hgiven : s.given = Field.all.filter fun f => (strong f).isSome)
    (hnamed : Named (Entries.overwrite [] (written ++ Standard.dump s)) f c) :
    ∃ counted, Counts strong written f counted ∧
      (c.or (strong f)).map (reading conv f) = counted.map (reading conv f) := by
  have hnodup : s.given.Nodup := by
    rw [hgiven]
    exact Field.nodup_all.filter _
  have hmem : f ∈ s.given ↔ (strong f).isSome = true := by
    rw [hgiven, List.mem_filter]
    exact and_iff_right (Field.mem_all f)
  cases hnamed with
  | @given name n hname hfound =>
    have hkeys : (Entries.keys (Entries.overwrite [] (written ++ Standard.dump s))).Nodup :=
      Entries.nodup_keys_overwrite (l := []) List.nodup_nil _
    have hlast := (Entries.lookup_eq_some_iff hkeys).2 hfound
    rw [Entries.lookup_overwrite, List.lookup_nil, Option.or_none, last?_append_dump hnodup hname] at hlast
    split at hlast
    · next h =>
      obtain ⟨g, hg⟩ := Option.isSome_iff_exists.1 (hmem.1 h.2)
      have hreading := (hread f).given g hg
      refine ⟨some g, .surroundings hg, ?_⟩
      rw [Option.some_or, ← Option.some_inj.1 hlast, Option.map_some, Option.map_some, hreading,
        hconv.reading_ofValue hreading]
    · next h =>
      refine ⟨some n, .file hname ?_ hlast, by rw [Option.some_or]⟩
      by_cases hown : name = f.name
      · refine .inl (Option.not_isSome_iff_eq_none.1 fun hsome => h ⟨hown, hmem.2 hsome⟩)
      · exact .inr hown
  | missing hnone =>
    have hnames (name : String) (hname : name ∈ Entries.keys (written ++ Standard.dump s)) :
        foldName name ≠ f.name := by
      have hkey := (Entries.mem_keys_overwrite (l := [])).2 (.inr hname)
      obtain ⟨w, hw, rfl⟩ := List.mem_map.1 hkey
      exact hnone w hw
    have hkeys : Entries.keys (written ++ Standard.dump s) =
        Entries.keys written ++ Entries.keys (Standard.dump s) := List.map_append
    have hstrong : strong f = none := by
      rw [← Option.not_isSome_iff_eq_none, ← hmem]
      intro hf
      refine hnames f.name ?_ (foldName_name f)
      rw [hkeys]
      exact List.mem_append_right _ (mem_keys_dump.2 ⟨f, hf, rfl⟩)
    refine ⟨none, .default hstrong fun name hname => hnames name ?_, by rw [hstrong, Option.none_or]⟩
    rw [hkeys]
    exact List.mem_append_left _ hname

end Again

section Loading

/-- Whether a failure names a field as the setting that is wrong. -/
def Names (failure : CallFailure) (f : Field) : Prop :=
  ∃ fault, failure = .fault fault ∧ fault.kind = .configuration (some f.name) .null

/-- Whether settings can be turned into a policy and into options of a detector, field by field. -/
def Converts (s : Settings) : Prop :=
  ∃ p o, s.toPolicy = .ok p ∧ s.toOptions = .ok o ∧ (∀ x, p.get x = s.get (.policy x)) ∧
    ∀ x, o.get x = s.get (.options x)

/-- Whether settings are loaded from values for some of the fields: each field that is given is read, the
    others keep their defaults, and the first value that is refused is told, those of the surroundings
    before all others. -/
structure Resolves (conv : Converter) (strong v : Values) (r : Except CallFailure Loaded) : Prop where
  succeeds : (∃ loaded, r = .ok loaded) ↔
    (∀ f, ¬ strong.Refuses conv f) ∧ ∀ f, ¬ v.Refuses conv f
  values : ∀ loaded, r = .ok loaded → ∀ f,
    IsReadFrom conv v default loaded.settings f ∧ f.Admits (loaded.settings.get f)
  converts : ∀ loaded, r = .ok loaded → Converts loaded.settings
  failure : ∀ failure, r = .error failure → ∃ f, Names failure f ∧
    (strong.RefusesFirst conv f ∨ (∀ f, ¬ strong.Refuses conv f) ∧ v.RefusesFirst conv f)

/-- Settings that are read from values, and else have their defaults, can be converted. -/
theorem converts_of_isReadFrom (h : ∀ f, IsReadFrom conv v default s f) : Converts s := by
  have hadmits (f : Field) : f.Admits (s.get f) := (h f).admits (admits_default f)
  exact ⟨s.policy, s.options, toPolicy_of_admits fun x => hadmits (.policy x),
    toOptions_of_admits fun x => hadmits (.options x), fun _ => rfl, fun _ => rfl⟩

theorem resolves_ok {loaded : Loaded} (hstrong : ∀ f, ¬ strong.Refuses conv f)
    (hv : ∀ f, ¬ v.Refuses conv f) (hread : ∀ f, IsReadFrom conv v default loaded.settings f) :
    Resolves conv strong v (.ok loaded) where
  succeeds := ⟨fun _ => ⟨hstrong, hv⟩, fun _ => ⟨loaded, rfl⟩⟩
  values := by
    intro other hother f
    obtain rfl := Except.ok.inj hother
    exact ⟨hread f, (hread f).admits (admits_default f)⟩
  converts := by
    intro other hother
    obtain rfl := Except.ok.inj hother
    exact converts_of_isReadFrom hread
  failure := fun _ herror => nomatch herror

theorem resolves_error {failure : CallFailure} (hnames : Names failure f)
    (hfirst : strong.RefusesFirst conv f ∨
      (∀ f, ¬ strong.Refuses conv f) ∧ v.RefusesFirst conv f) :
    Resolves conv strong v (.error failure) where
  succeeds := by
    constructor
    · rintro ⟨_, ⟨⟩⟩
    · rintro ⟨hstrong, hv⟩
      obtain hf | ⟨_, hf⟩ := hfirst
      · exact absurd hf.1 (hstrong f)
      · exact absurd hf.1 (hv f)
  values := fun _ hok => nomatch hok
  converts := fun _ hok => nomatch hok
  failure := by
    intro other hother
    obtain rfl := Except.error.inj hother
    exact ⟨f, hnames, hfirst⟩

/-- Building settings from values gives them, or names the first field whose value is refused. -/
theorem Builds.ofNamed_cases {values : List (String × Node)}
    (h : Builds conv v (means.build values e)) :
    (∃ s, means.ofNamed values e = .ok s ∧ (∀ f, ¬ v.Refuses conv f) ∧
      (∀ f, IsReadFrom conv v default s f) ∧ s.given = Field.all.filter fun f => (v f).isSome) ∨
    ∃ f failure, means.ofNamed values e = .error failure ∧ Names failure f ∧ v.RefusesFirst conv f := by
  obtain ⟨-, hnone⟩ | ⟨first, rest, hcons, hfirst⟩ := refusals_cases conv v
  · obtain ⟨s, hs, hread, hgiven⟩ := h.built hnone
    exact .inl ⟨s, by rw [Means.ofNamed, hs], hnone, hread, hgiven⟩
  · have hrefused := h.refused first.field hfirst.1
    exact .inr ⟨first.field, _, by rw [Means.ofNamed, hrefused], ⟨_, rfl, by rw [hcons]; rfl⟩, hfirst⟩

theorem Means.IsDocumented.builds_nil (hmeans : means.IsDocumented conv surroundings) (e : E) :
    Builds conv (surroundings e) (means.build [] e) := by
  obtain ⟨named, hnamed, hbuilds⟩ := hmeans.builds [] e (by simp)
  have hnone : named.backedBy (surroundings e) = surroundings e := by
    funext f
    cases hc : named f with
    | none => rw [Values.backedBy, hc, Option.none_or]
    | some n =>
      have hf := hnamed f
      rw [hc] at hf
      cases hf with
      | given _ hmem => cases hmem
  rw [← hnone]
  exact hbuilds

/-- Building settings from what is written in a file, with the values of the surroundings written over it,
    is building them from values that count. -/
theorem Means.IsDocumented.exists_builds (hmeans : means.IsDocumented conv surroundings)
    (hfree : ∀ w ∈ written, IsFree w.1)
    (hread : ∀ f, IsReadFrom conv (surroundings e) default s f)
    (hgiven : s.given = Field.all.filter fun f => (surroundings e f).isSome) :
    ∃ v : Values, (∀ f, Counts (surroundings e) written f (v f)) ∧
      Builds conv v (means.build (Entries.overwrite [] (written ++ Standard.dump s)) e) := by
  have hnames (w : String × Node) (hw : w ∈ Entries.overwrite [] (written ++ Standard.dump s)) :
      IsFree w.1 := by
    obtain hnil | hname := Entries.mem_keys_overwrite.1 (List.mem_map_of_mem (f := (·.1)) hw)
    · cases hnil
    · obtain ⟨w', hw', hsame⟩ := List.mem_map.1 hname
      rw [← hsame]
      obtain hwritten | hdumped := List.mem_append.1 hw'
      · exact hfree w' hwritten
      · obtain ⟨f, -, rfl⟩ := List.mem_map.1 hdumped
        exact isFree_name f
  obtain ⟨named, hnamed, hbuilds⟩ := hmeans.builds _ e hnames
  choose v hcounts hsame using fun f =>
    exists_counts_of_named hmeans.converts hread hgiven (hnamed f)
  exact ⟨v, hcounts, hbuilds.congr hsame⟩

theorem resolves_load (hmeans : means.IsDocumented conv surroundings) (h : AreNamed entries) (e : E)
    {file : File} (hholds : means.Holds file (.mapping entries)) :
    ∃ v : Values, (∀ f, Counts (surroundings e) (writtenIn entries) f (v f)) ∧
      Resolves conv (surroundings e) v (means.load (some file) e) := by
  have htexts (k : Scalar) (hk : k ∈ keys (opened entries)) : k.IsText :=
    (isName_of_opened h hk).isText
  rw [Means.load, entriesOf_of_holds hholds, ofDocument_eq_overwrite h]
  obtain ⟨s, hs, hstrong, hread, hgiven⟩ | ⟨f, failure, hfailure, hnames, hfirst⟩ :=
    (hmeans.builds_nil e).ofNamed_cases
  · obtain ⟨v, hcounts, hbuilds⟩ :=
      hmeans.exists_builds (fun _ => isFree_of_written h) hread hgiven
    refine ⟨v, hcounts, ?_⟩
    have hentries : means.ofEntries (Entries.overwrite [] (opened entries)) e =
        means.ofNamed (Entries.overwrite [] (writtenIn entries ++ Standard.dump s)) e := by
      have hdumps : means.dump s = Standard.dump s := hmeans.dumps s
      rw [Means.ofEntries, hs]
      dsimp only [bind, Except.bind]
      rw [mapM_named?_writeOver htexts, hdumps, writtenIn]
    dsimp only [bind, Except.bind, Except.mapError]
    rw [hentries]
    obtain ⟨t, ht, hv, hreadAgain, -⟩ | ⟨f, failure, hfailure, hnames, hfirst⟩ := hbuilds.ofNamed_cases
    · rw [ht]
      exact resolves_ok hstrong hv hreadAgain
    · rw [hfailure]
      exact resolves_error hnames (.inr ⟨hstrong, hfirst⟩)
  · choose v hcounts using exists_counts (surroundings e) (writtenIn entries)
    refine ⟨v, hcounts, ?_⟩
    dsimp only [bind, Except.bind, Except.mapError]
    rw [Means.ofEntries, hfailure]
    exact resolves_error hnames (.inl hfirst)

end Loading

theorem exists_ok_of_toOption_map {α ε β : Type} {x : Except ε α} {g : α → β} {b : β}
    (h : x.toOption.map g = some b) : ∃ a, x = .ok a ∧ g a = b := by
  cases x with
  | error => cases h
  | ok a => exact ⟨a, rfl, Option.some_inj.1 h⟩

/-- How settings come from the entries of a file and from the surroundings above it. -/
structure LoadsInLayers (means : Means E) (conv : Converter) (strong : Values) (entries : List Entry)
    (e : E) : Prop where
  /-- Settings are loaded from a file with these entries out of values that count. -/
  file : ∀ file : File, means.Holds file (.mapping entries) → ∃ v : Values,
    (∀ f, Counts strong (writtenIn entries) f (v f)) ∧
      Resolves conv strong v (means.load (some file) e)
  /-- For a field that the surroundings give, their value counts, and nothing in the file is looked at,
      unless the file spells the field otherwise. -/
  strongest : ∀ (f : Field) n c, strong f = some n →
    (∀ name ∈ Entries.keys (writtenIn entries), foldName name = f.name → name = f.name) →
    Counts strong (writtenIn entries) f c → c = some n
  /-- For another field that is spelled in one way only, the value counts that is written last. -/
  last : ∀ (f : Field) name c, strong f = none → foldName name = f.name →
    (∀ other ∈ Entries.keys (writtenIn entries), foldName other = f.name → other = name) →
    Counts strong (writtenIn entries) f c → c = Entries.last? name (writtenIn entries)
  /-- Names of no field are ignored. -/
  known : ∀ (f : Field) c, Counts strong (writtenIn entries) f c ↔
    Counts strong ((writtenIn entries).filter fun w => namesField w.1) f c

/-- Settings are loaded from a file whose keys are names, with the surroundings above it. Each field has the
value of the surroundings, or else the one that is written last in the file, or else its default, and it is a
value that the field may have; the settings can be converted. There are none exactly if a value that counts is
refused or one of the surroundings, which are examined first; then the first such field is told. -/
theorem load_resolves_layers (hmeans : means.IsDocumented conv surroundings) (h : AreNamed entries) (e : E) :
    LoadsInLayers means conv (surroundings e) entries e where
  file _ hholds := resolves_load hmeans h e hholds
  strongest _ _ _ hstrong hown hcounts := hcounts.eq_surroundings hstrong hown
  last _ _ _ hstrong hname hone hcounts := hcounts.eq_last hstrong hname hone
  known _ _ := counts_filter_iff.symm

/-- A count at the top and in both sections, a duration in capitals, a key that names no field, and a level
that would be refused if the surroundings did not give another one: the last count is taken. -/
theorem load_resolves_layers_of_overlapping :
    let file : File := ⟨"settings.yaml", some ("log_level: 7\nmax_continuations: 1\n" ++
      "MAX_TOTAL_DURATION: 5\ncontinuation:\n  max_continuations: 2\n  colour: red\n" ++
      "detection:\n  max_continuations: 4\n").toList⟩
    let entries : List Entry :=
      [(.text "log_level".toList, .scalar (.number (.int 7))),
        (.text "max_continuations".toList, .scalar (.number (.int 1))),
        (.text "MAX_TOTAL_DURATION".toList, .scalar (.number (.int 5))),
        (.text "continuation".toList, .mapping
          [(.text "max_continuations".toList, .scalar (.number (.int 2))),
            (.text "colour".toList, .scalar (.text "red".toList))]),
        (.text "detection".toList, .mapping
          [(.text "max_continuations".toList, .scalar (.number (.int 4)))])]
    let e : Environment := ⟨[("LLMSTITCH_LOG_LEVEL", "debug")], [("llmstitch_list_markers", some ['-'])]⟩
    let duration : Field := .policy .maxDuration
    let names := Entries.keys (writtenIn entries)
    Standard.means.IsDocumented Standard.converter Environment.values ∧ AreNamed entries ∧
      Standard.means.Holds file (.mapping entries) ∧
      e.values .level = some (givenText "debug".toList) ∧
      (∀ name ∈ names, foldName name = Field.level.name → name = Field.level.name) ∧
      e.values duration = none ∧ foldName "MAX_TOTAL_DURATION" = duration.name ∧
      (∀ other ∈ names, foldName other = duration.name → other = "MAX_TOTAL_DURATION") ∧
      ∃ v : Values, v .level = some (givenText "debug".toList) ∧
        v duration = Entries.last? "MAX_TOTAL_DURATION" (writtenIn entries) ∧
        Resolves Standard.converter e.values v (load (some file) e) ∧
        ∃ loaded, load (some file) e = .ok loaded ∧ loaded.settings.level = .debug ∧
          loaded.settings.policy.maxContinuations = .int 4 := by
  intro file entries e duration names
  have hentries : AreNamed entries := ⟨by decide, by decide⟩
  have hholds : Standard.means.Holds file (.mapping entries) := ⟨_, rfl, by decide +kernel⟩
  have hlevel : e.values .level = some (givenText "debug".toList) := by decide +kernel
  have hown : ∀ name ∈ names, foldName name = Field.level.name → name = Field.level.name := by
    decide +kernel
  have hnone : e.values duration = none := by decide +kernel
  have hfold : foldName "MAX_TOTAL_DURATION" = duration.name := by decide +kernel
  have hone : ∀ other ∈ names, foldName other = duration.name → other = "MAX_TOTAL_DURATION" := by
    decide +kernel
  have hloaded : (load (some file) e).toOption.map
      (fun loaded => (loaded.settings.level, loaded.settings.policy.maxContinuations)) =
        some (.debug, .int 4) := by decide +kernel
  obtain ⟨loaded, hok, hvalues⟩ := exists_ok_of_toOption_map hloaded
  have hlayers := load_resolves_layers isDocumented_standard hentries e
  obtain ⟨v, hcounts, hresolves⟩ := hlayers.file file hholds
  exact ⟨isDocumented_standard, hentries, hholds, hlevel, hown, hnone, hfold, hone, v,
    hlayers.strongest .level _ _ hlevel hown (hcounts .level),
    hlayers.last duration _ _ hnone hfold hone (hcounts duration), hresolves,
    loaded, hok, Prod.mk.inj hvalues⟩

/-- A count under a name in capitals is taken, although no entry has the very name of the field. And the last
line of a file does not count where it only replaces the first one, which a section follows. -/
theorem load_of_spellings :
    let capitals : File := ⟨"settings.yaml", some "MAX_CONTINUATIONS: 2\n".toList⟩
    let twice : File := ⟨"settings.yaml", some ("max_continuations: 3\ncontinuation:\n" ++
      "  max_continuations: 1\nmax_continuations: 2\n").toList⟩
    (∃ entries loaded, Standard.means.Holds capitals (.mapping entries) ∧ AreNamed entries ∧
      Entries.last? "max_continuations" (writtenIn entries) = none ∧
      load (some capitals) ⟨[], []⟩ = .ok loaded ∧
      loaded.settings.policy.maxContinuations = .int 2 ∧ loaded.settings.policy ≠ .default) ∧
    ∃ loaded, load (some twice) ⟨[], []⟩ = .ok loaded ∧
      loaded.settings.policy.maxContinuations = .int 1 := by
  intro capitals twice
  refine ⟨?_, ?_⟩
  · let entries : List Entry :=
      [(.text "MAX_CONTINUATIONS".toList, .scalar (.number (.int 2)))]
    have hloaded : (load (some capitals) ⟨[], []⟩).toOption.map
        (·.settings.policy.maxContinuations) = some (.int 2) := by decide +kernel
    obtain ⟨loaded, hok, hvalue⟩ := exists_ok_of_toOption_map hloaded
    refine ⟨entries, loaded, ⟨_, rfl, by decide +kernel⟩, ⟨by decide, by decide⟩, by decide +kernel,
      hok, hvalue, fun hdefault => ?_⟩
    rw [hdefault] at hvalue
    cases hvalue
  · exact exists_ok_of_toOption_map (by decide +kernel)

end Rejoin.Settings
