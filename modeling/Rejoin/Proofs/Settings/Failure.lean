import Mathlib.Data.List.Basic
import Rejoin.Proofs.Entries
import Rejoin.Settings.Standard

/-!
How loading settings fails. A file that is missing or malformed, a document that is no mapping of the
expected shape, and values that are refused are all told as faults of a setting. One thing is not: a
mapping may have keys that are no texts, at its top or in a section. Such keys pass through the opening
of the sections, and where nothing else is wrong before, the call itself means nothing.

This holds whatever the means are by which settings are loaded, as long as their reader has no other way
to fail than finding a text malformed, and their builder none but refusing values.
-/

namespace Rejoin

open Yaml

/-- Whether a call failed with a fault of a setting. -/
def CallFailure.IsConfiguration : CallFailure → Prop
  | .fault f => ∃ key value, f.kind = .configuration key value
  | .misuse _ | .foreign .. => False

/-- Whether a scalar is a text. -/
def Yaml.Scalar.IsText (k : Scalar) : Prop := ∃ t, k = .text t

namespace Settings

variable {E : Type} {means : Means E} {e : E} {entries known : List Entry} {entry : Entry} {k : Scalar}
  {n : Node} {values : List (String × Node)}

section Keys

/-- The keys of entries, in their order. -/
def keys (entries : List Entry) : List Scalar := entries.map (·.1)

theorem mem_keys_iff : k ∈ keys entries ↔ ∃ v, (k, v) ∈ entries := by
  simp [keys]

theorem mem_keys_foldl_insert (k : Scalar) (entries known : List Entry) :
    k ∈ keys (entries.foldl (fun known e => Node.insert known e.1 e.2) known) ↔
      k ∈ keys known ∨ k ∈ keys entries := by
  rw [Entries.foldl_insert_eq_overwrite]
  exact Entries.mem_keys_overwrite

theorem named?_asEntry (v : String × Node) : named? (asEntry v) = some v := by
  obtain ⟨name, n⟩ := v
  exact congrArg (fun name => some (name, n)) (String.ofList_toList (s := name))

theorem asEntry_of_named? {v : String × Node} (h : named? entry = some v) : entry = asEntry v := by
  obtain ⟨k, n⟩ := entry
  cases k with
  | text t =>
    cases h
    exact congrArg (fun t => (Scalar.text t, n)) String.toList_ofList.symm
  | null | truth | number | date => cases h

/-- The entries that can be handed over by name are those of named values. -/
theorem mapM_named?_eq_some_iff : entries.mapM named? = some values ↔ entries = values.map asEntry := by
  constructor
  · intro h
    induction entries generalizing values with
    | nil =>
      cases h
      rfl
    | cons entry rest ih =>
      rw [List.mapM_cons] at h
      obtain ⟨v, hv, h⟩ := Option.bind_eq_some_iff.1 h
      obtain ⟨more, hmore, h⟩ := Option.bind_eq_some_iff.1 h
      cases h
      rw [List.map_cons, asEntry_of_named? hv, ih hmore]
  · rintro rfl
    rw [List.mapM_map, show named? ∘ asEntry = some from funext named?_asEntry]
    exact List.mapM_pure.trans (congrArg some (List.map_id values))

/-- Entries have no names if one of their keys is no text. -/
theorem mapM_named?_eq_none_iff :
    entries.mapM named? = none ↔ ∃ k ∈ keys entries, ¬ k.IsText := by
  induction entries with
  | nil => simp [keys]
  | cons entry rest ih =>
    have hnone : named? entry = none ↔ ¬ entry.1.IsText := by
      obtain ⟨k, v⟩ := entry
      cases k <;> simp [named?, Scalar.IsText]
    rw [keys, List.map_cons, List.exists_mem_cons_iff, ← hnone, ← keys, ← ih, List.mapM_cons]
    cases named? entry with
    | none => simp
    | some named => cases rest.mapM named? <;> simp

theorem mem_keys_writeOver :
    k ∈ keys (writeOver entries values) ↔ k ∈ keys entries ∨ ∃ v ∈ values, k = .text v.1.toList := by
  rw [writeOver, mem_keys_foldl_insert]
  simp [keys, asEntry, eq_comm]

end Keys

section Sections

/-- Whether a key names a section. -/
def IsSection (k : Scalar) : Prop := ∃ name ∈ sections, k = .text name.toList

/-- Whether all sections among some entries are mappings. -/
def SectionsAreMappings (entries : List Entry) : Prop :=
  ∀ k v, (k, v) ∈ entries → IsSection k → ∃ inner, v = .mapping inner

/-- The keys of entries whose sections are opened: a key that names no section, or one inside a
    section. -/
inductive GivesKey (entries : List Entry) (k : Scalar) : Prop where
  | atTop {v : Node} (hmem : (k, v) ∈ entries) (hkey : ¬ IsSection k)
  | inSection {name : Scalar} {inner : List Entry} {v : Node} (hmem : (name, .mapping inner) ∈ entries)
      (hname : IsSection name) (hinner : (k, v) ∈ inner)

theorem section?_isSome_iff : (section? k).isSome = true ↔ IsSection k := by
  cases k with
  | text t =>
    rw [section?, List.find?_isSome, IsSection]
    simp only [decide_eq_true_eq, Scalar.text.injEq]
    refine exists_congr fun name => and_congr_right fun _ => ?_
    rw [← String.toList_inj, String.toList_ofList, eq_comm]
  | null | truth | number | date => simp [section?, IsSection]

theorem expand_eq_ok_iff {part : List Entry} :
    expand entry = .ok part ↔
      ¬ IsSection entry.1 ∧ part = [entry] ∨ IsSection entry.1 ∧ entry.2 = .mapping part := by
  rw [expand, ← section?_isSome_iff]
  cases section? entry.1 with
  | none => simp [eq_comm]
  | some name => cases entry.2 <;> simp

theorem expand_eq_error_iff {f : Fault} :
    expand entry = .error f ↔
      (∃ name, section? entry.1 = some name ∧ f = sectionNotMapping name) ∧
        ∀ inner, entry.2 ≠ .mapping inner := by
  rw [expand]
  cases section? entry.1 with
  | none => simp
  | some name => cases entry.2 <;> simp [eq_comm]

/-- Opening the entries one after the other comes to an end with all of them, or at the first that
    cannot be opened. -/
theorem mapM_cases {α β ε : Type} (f : α → Except ε β) (xs : List α) :
    (∃ ys, xs.mapM f = .ok ys ∧ (∀ x ∈ xs, ∃ y, f x = .ok y) ∧
      ∀ y, y ∈ ys ↔ ∃ x ∈ xs, f x = .ok y) ∨
    ∃ x ∈ xs, ∃ error, f x = .error error ∧ xs.mapM f = .error error := by
  induction xs with
  | nil => exact .inl ⟨[], rfl, by simp, by simp⟩
  | cons x rest ih =>
    rw [List.mapM_cons]
    cases hx : f x with
    | error error => exact .inr ⟨x, List.mem_cons_self, error, hx, rfl⟩
    | ok y =>
      obtain ⟨ys, hys, hall, hmem⟩ | ⟨z, hz, error, herror, hrest⟩ := ih
      · rw [hys]
        refine .inl ⟨y :: ys, rfl, ?_, ?_⟩
        · simpa [hx] using hall
        · simp [hx, hmem, eq_comm]
      · rw [hrest]
        exact .inr ⟨z, List.mem_cons_of_mem x hz, error, herror, rfl⟩

/-- Entries are flattened if all their sections are mappings, and the keys that are left are those of
    the opened entries. Otherwise a section is named that is no mapping. -/
theorem flatten_cases (entries : List Entry) :
    (∃ flat, flatten entries = .ok flat ∧ SectionsAreMappings entries ∧
      ∀ k, k ∈ keys flat ↔ GivesKey entries k) ∨
    ∃ name, flatten entries = .error (sectionNotMapping name) ∧ ¬ SectionsAreMappings entries := by
  unfold flatten
  obtain ⟨parts, hparts, hall, hmem⟩ | ⟨e, he, f, hexpand, hfault⟩ := mapM_cases expand entries
  · refine .inl ⟨_, by rw [hparts]; rfl, ?_, fun k => ?_⟩
    · intro k v hv hk
      obtain ⟨part, hpart⟩ := hall (k, v) hv
      obtain ⟨hnot, _⟩ | ⟨_, hvalue⟩ := expand_eq_ok_iff.1 hpart
      · exact absurd hk hnot
      · exact ⟨part, hvalue⟩
    · have hopened : k ∈ keys parts.flatten ↔ ∃ part ∈ parts, k ∈ keys part := by
        simp only [mem_keys_iff, List.mem_flatten]
        exact ⟨fun ⟨v, part, hpart, hv⟩ => ⟨part, hpart, v, hv⟩,
          fun ⟨part, hpart, v, hv⟩ => ⟨v, part, hpart, hv⟩⟩
      rw [mem_keys_foldl_insert, hopened]
      refine ⟨?_, fun hgives => .inr ?_⟩
      · rintro (hnil | ⟨part, hpart, hk⟩)
        · cases hnil
        obtain ⟨e, he, hexpand⟩ := (hmem part).1 hpart
        obtain ⟨hkey, rfl⟩ | ⟨hname, hvalue⟩ := expand_eq_ok_iff.1 hexpand
        · obtain rfl : k = e.1 := by simpa [keys] using hk
          exact .atTop he hkey
        · obtain ⟨v, hv⟩ := mem_keys_iff.1 hk
          exact .inSection (hvalue ▸ he) hname hv
      · cases hgives with
        | @atTop v hv hkey =>
          exact ⟨[(k, v)], (hmem _).2 ⟨_, hv, expand_eq_ok_iff.2 (.inl ⟨hkey, rfl⟩)⟩, by simp [keys]⟩
        | @inSection name inner v hv hname hinner =>
          exact ⟨inner, (hmem _).2 ⟨_, hv, expand_eq_ok_iff.2 (.inr ⟨hname, rfl⟩)⟩,
            mem_keys_iff.2 ⟨v, hinner⟩⟩
  · obtain ⟨⟨name, hname, rfl⟩, hvalue⟩ := expand_eq_error_iff.1 hexpand
    refine .inr ⟨name, by rw [hfault]; rfl, fun hmappings => ?_⟩
    obtain ⟨inner, hinner⟩ := hmappings e.1 e.2 he (section?_isSome_iff.1 (by rw [hname]; rfl))
    exact hvalue inner hinner

end Sections

section Loading

/-- Whether a name is free to be that of a setting: those that start with a low line are not. -/
def IsFree (name : String) : Prop := name.toList.head? ≠ some '_'

/-- Whether a file has a text that is read as a given document. -/
def Means.Holds (means : Means E) (file : File) (n : Node) : Prop :=
  ∃ t, file.content = some t ∧ means.read t = .ok n

theorem Means.Holds.unique {file : File} {m : Node} (hn : means.Holds file n)
    (hm : means.Holds file m) : n = m := by
  obtain ⟨t, hcontent, hread⟩ := hn
  obtain ⟨u, hother, hagain⟩ := hm
  rw [hcontent, Option.some_inj] at hother
  rw [← hother, hread, Except.ok.injEq] at hagain
  exact hagain

/-- Whether a reader and a builder fail in no ways of their own: the one finds texts malformed, and the
    other refuses values, as long as their names are free. -/
structure Means.TellsFaults (means : Means E) : Prop where
  read : ∀ t kind text, means.read t ≠ .error (.failed kind text)
  build : ∀ values e kind text, (∀ v ∈ values, IsFree v.1) →
    means.build values e ≠ .error (.failed kind text)
  dump : ∀ s, ∀ v ∈ means.dump s, IsFree v.1

/-- Whether a document is a mapping of the expected shape, but for a key that is no text. -/
def HasUnnamedKey (n : Node) : Prop :=
  ∃ entries, n = .mapping entries ∧ SectionsAreMappings entries ∧
    ∃ k, GivesKey entries k ∧ ¬ k.IsText

/-- Whether the names that a document gives are free. -/
def HasFreeNames (n : Node) : Prop :=
  ∀ entries, n = .mapping entries → ∀ t, GivesKey entries (.text t) → IsFree (String.ofList t)

/-- Whether a call fails with nothing but faults of settings, except that it means nothing if there is
    a setting without a name. -/
structure FailsBy {α : Type} (unnamed : Prop) (r : Except CallFailure α) : Prop where
  failures : ∀ failure, r = .error failure →
    failure.IsConfiguration ∨ failure = .misuse .settingNotNamed
  misuse : r = .error (.misuse .settingNotNamed) ↔ unnamed

variable {α β : Type} {unnamed other : Prop}

theorem failsBy_ok (hnamed : ¬ unnamed) (a : α) : FailsBy unnamed (.ok a) :=
  ⟨fun _ h => (nomatch h), ⟨fun h => (nomatch h), fun h => absurd h hnamed⟩⟩

theorem failsBy_fault {f : Fault} (hnamed : ¬ unnamed)
    (hf : (CallFailure.fault f).IsConfiguration) :
    FailsBy unnamed (.error (.fault f) : Except CallFailure α) := by
  refine ⟨fun failure hfailure => ?_, fun h => ?_, fun h => absurd h hnamed⟩
  · cases hfailure
    exact .inl hf
  · cases h

theorem failsBy_misuse (hunnamed : unnamed) :
    FailsBy unnamed (.error (.misuse .settingNotNamed) : Except CallFailure α) := by
  refine ⟨fun failure hfailure => ?_, ⟨fun _ => hunnamed, fun _ => rfl⟩⟩
  cases hfailure
  exact .inr rfl

theorem FailsBy.congr (hiff : unnamed ↔ other) {r : Except CallFailure α} (h : FailsBy unnamed r) :
    FailsBy other r :=
  ⟨h.failures, h.misuse.trans hiff⟩

/-- What is made of a value does not change how the call before it failed. -/
theorem FailsBy.map {r : Except CallFailure α} (h : FailsBy unnamed r) (g : α → β) :
    FailsBy unnamed (do let a ← r; return g a) := by
  cases r with
  | ok a => exact failsBy_ok (fun hunnamed => nomatch h.misuse.2 hunnamed) (g a)
  | error failure =>
    refine ⟨fun other hother => ?_, Iff.trans ⟨fun hother => ?_, fun hfailure => ?_⟩ h.misuse⟩
    · cases hother
      exact h.failures failure rfl
    · cases hother
      rfl
    · cases hfailure
      rfl

/-- Building settings ends with the settings, with a fault, or with a failure of the builder's own. -/
theorem ofNamed_cases (means : Means E) (values : List (String × Node)) (e : E) :
    (∃ s, means.build values e = .ok s ∧ means.ofNamed values e = .ok s) ∨
    (∃ places, means.build values e = .error (.refused places) ∧
      means.ofNamed values e = .error (.fault (refusedValues places))) ∨
    ∃ kind text, means.build values e = .error (.failed kind text) ∧
      means.ofNamed values e = .error (.foreign kind text) := by
  rw [Means.ofNamed]
  cases means.build values e with
  | ok s => exact .inl ⟨s, rfl, rfl⟩
  | error failure =>
    cases failure with
    | refused places => exact .inr (.inl ⟨places, rfl, rfl⟩)
    | failed kind text => exact .inr (.inr ⟨kind, text, rfl, rfl⟩)

/-- A builder that tells faults builds settings from free names, or there is a fault. -/
theorem Means.TellsFaults.ofNamed_cases (hmeans : means.TellsFaults) (values : List (String × Node)) (e : E)
    (hfree : ∀ v ∈ values, IsFree v.1) :
    (∃ s, means.build values e = .ok s ∧ means.ofNamed values e = .ok s) ∨
    ∃ f, (∀ s, means.build values e ≠ .ok s) ∧ means.ofNamed values e = .error (.fault f) ∧
      (CallFailure.fault f).IsConfiguration := by
  obtain hok | ⟨places, hbuild, hfault⟩ | ⟨kind, text, hfailed, -⟩ :=
    Settings.ofNamed_cases means values e
  · exact .inl hok
  · have hnone (s : Settings) : means.build values e ≠ .ok s := by
      rw [hbuild]
      exact fun h => nomatch h
    exact .inr ⟨_, hnone, hfault, _, _, rfl⟩
  · exact absurd hfailed (hmeans.build values e kind text hfree)

theorem failsBy_ofEntries (hmeans : means.TellsFaults) (e : E)
    (hfree : ∀ t, .text t ∈ keys entries → IsFree (String.ofList t)) :
    FailsBy ((∃ k ∈ keys entries, ¬ k.IsText) ∧ ∃ s, means.build [] e = .ok s)
      (means.ofEntries entries e) := by
  rw [Means.ofEntries]
  obtain ⟨s, hbuild, hnone⟩ | ⟨f, hbuild, hfault, hf⟩ :=
    hmeans.ofNamed_cases [] e (by simp)
  · rw [hnone, hbuild]
    dsimp only [bind, Except.bind]
    -- What the surroundings give has names, so a key without one is a key of the file.
    have hkeys : (∃ k ∈ keys (writeOver entries (means.dump s)), ¬ k.IsText) ↔
        ∃ k ∈ keys entries, ¬ k.IsText := by
      constructor
      · rintro ⟨k, hk, hnot⟩
        obtain hk | ⟨v, -, rfl⟩ := mem_keys_writeOver.1 hk
        · exact ⟨k, hk, hnot⟩
        · exact absurd ⟨_, rfl⟩ hnot
      · rintro ⟨k, hk, hnot⟩
        exact ⟨k, mem_keys_writeOver.2 (.inl hk), hnot⟩
    rw [← hkeys, ← mapM_named?_eq_none_iff]
    cases hnamed : (writeOver entries (means.dump s)).mapM named? with
    | none => exact failsBy_misuse ⟨rfl, s, rfl⟩
    | some values =>
      have hvalues (v : String × Node) (hv : v ∈ values) : IsFree v.1 := by
        have hk : Scalar.text v.1.toList ∈ keys (writeOver entries (means.dump s)) := by
          rw [mapM_named?_eq_some_iff.1 hnamed]
          exact List.mem_map_of_mem (List.mem_map_of_mem hv)
        obtain hk | ⟨w, hw, hsame⟩ := mem_keys_writeOver.1 hk
        · rw [← String.ofList_toList (s := v.1)]
          exact hfree _ hk
        · rw [String.toList_inj.1 (Scalar.text.inj hsame)]
          exact hmeans.dump s w hw
      dsimp only
      obtain ⟨t, -, hok⟩ | ⟨f, -, hfault, hf⟩ := hmeans.ofNamed_cases values e hvalues
      · rw [hok]
        exact failsBy_ok (by simp) t
      · rw [hfault]
        exact failsBy_fault (by simp) hf
  · rw [hfault]
    exact failsBy_fault (fun h => absurd h.2.choose_spec (hbuild _)) hf

/-- A document with no entry has none without a name. -/
theorem not_hasUnnamedKey_of_isNothing (hnothing : n.isNothing = true) : ¬ HasUnnamedKey n := by
  rintro ⟨entries, rfl, _, k, hgives, _⟩
  obtain rfl : entries = [] := List.isEmpty_iff.1 hnothing
  cases hgives with
  | atTop hmem => cases hmem
  | inSection hmem => cases hmem

/-- The entries of a document: those of its mapping with the sections opened, or none if it stands for
    nothing. Otherwise there is a fault. -/
theorem ofDocument_cases (path : String) (n : Node) :
    (∃ flat, ofDocument path n = .ok flat ∧
      ((∃ k ∈ keys flat, ¬ k.IsText) ↔ HasUnnamedKey n) ∧
      ∀ k ∈ keys flat, ∃ entries, n = .mapping entries ∧ GivesKey entries k) ∨
    ∃ f, ofDocument path n = .error f ∧ (CallFailure.fault f).IsConfiguration ∧ ¬ HasUnnamedKey n := by
  unfold ofDocument
  cases hnothing : n.isNothing with
  | true =>
    rw [if_pos rfl]
    have hnot := not_hasUnnamedKey_of_isNothing hnothing
    exact .inl ⟨[], rfl, by simp [keys, hnot], by simp [keys]⟩
  | false =>
    rw [if_neg Bool.false_ne_true]
    cases n with
    | scalar | list => exact .inr ⟨_, rfl, ⟨_, _, rfl⟩, by simp [HasUnnamedKey]⟩
    | mapping entries =>
      dsimp only
      obtain ⟨flat, hflat, hmappings, hkeys⟩ | ⟨name, hfault, hnot⟩ := flatten_cases entries
      · exact .inl ⟨flat, hflat, by simp [HasUnnamedKey, hmappings, hkeys],
          fun k hk => ⟨entries, rfl, (hkeys k).1 hk⟩⟩
      · exact .inr ⟨_, hfault, ⟨_, _, rfl⟩, by simp [HasUnnamedKey, hnot]⟩

/-- Loading from a file that holds a document opens that document. -/
theorem entriesOf_of_holds {file : File} (hholds : means.Holds file n) :
    means.entriesOf file = (ofDocument file.path n).mapError .fault := by
  obtain ⟨t, hcontent, hread⟩ := hholds
  simp only [Means.entriesOf, hcontent, hread]

theorem Means.TellsFaults.entriesOf_of_not_holds (hmeans : means.TellsFaults) {file : File}
    (hnot : ∀ n, ¬ means.Holds file n) :
    ∃ f, means.entriesOf file = .error (.fault f) ∧ (CallFailure.fault f).IsConfiguration := by
  rw [Means.entriesOf]
  cases hcontent : file.content with
  | none => exact ⟨_, rfl, _, _, rfl⟩
  | some t =>
    dsimp only
    cases hread : means.read t with
    | ok n => exact absurd ⟨t, hcontent, hread⟩ (hnot n)
    | error failure =>
      cases failure with
      | malformed => exact ⟨_, rfl, _, _, rfl⟩
      | failed kind text => exact absurd hread (hmeans.read t kind text)

theorem failsBy_load_of_holds (hmeans : means.TellsFaults) {file : File} (hholds : means.Holds file n)
    (hfree : HasFreeNames n) (e : E) :
    FailsBy (HasUnnamedKey n ∧ ∃ s, means.build [] e = .ok s) (means.load (some file) e) := by
  rw [Means.load, entriesOf_of_holds hholds]
  obtain ⟨flat, hflat, hunnamed, hgives⟩ | ⟨f, hfault, hf, hnot⟩ := ofDocument_cases file.path n
  · rw [hflat]
    have hnames (t : List Char) (ht : .text t ∈ keys flat) : IsFree (String.ofList t) := by
      obtain ⟨entries, hn, hkey⟩ := hgives _ ht
      exact hfree entries hn t hkey
    exact ((failsBy_ofEntries hmeans e hnames).congr (and_congr_left' hunnamed)).map _
  · rw [hfault]
    exact failsBy_fault (fun h => hnot h.1) hf

end Loading

/-- Loading settings gives settings or fails with a fault of a setting, unless the document of the file
is a mapping of the expected shape with a key that is no text, at its top or in a section, and nothing
is wrong with the surroundings: then the call means nothing. -/
theorem load_fails_by_fault_or_unnamed_key (hmeans : means.TellsFaults) (file : Option File) (e : E)
    (hfree : ∀ f n, file = some f → means.Holds f n → HasFreeNames n) :
    FailsBy ((∃ f n, file = some f ∧ means.Holds f n ∧ HasUnnamedKey n) ∧
      ∃ s, means.build [] e = .ok s) (means.load file e) := by
  cases file with
  | none =>
    rw [Means.load]
    obtain ⟨s, -, hok⟩ | ⟨f, -, hfault, hf⟩ := hmeans.ofNamed_cases [] e (by simp)
    · rw [hok]
      exact failsBy_ok (by simp) _
    · rw [hfault]
      exact failsBy_fault (by simp) hf
  | some file =>
    by_cases hexists : ∃ n, means.Holds file n
    · obtain ⟨n, hholds⟩ := hexists
      have hfails := failsBy_load_of_holds hmeans hholds (hfree file n rfl hholds) e
      refine hfails.congr (and_congr_left' ⟨fun h => ⟨file, n, rfl, hholds, h⟩, ?_⟩)
      rintro ⟨_, m, hsome, hother, h⟩
      cases hsome
      obtain rfl : n = m := hholds.unique hother
      exact h
    · obtain ⟨f, hfault, hf⟩ := hmeans.entriesOf_of_not_holds fun n hholds => hexists ⟨n, hholds⟩
      rw [Means.load, hfault]
      refine failsBy_fault ?_ hf
      rintro ⟨⟨_, n, hsome, hholds, _⟩, _⟩
      cases hsome
      exact hexists ⟨n, hholds⟩

theorem isFree_name (f : Field) : IsFree f.name := by
  have hall : ∀ f ∈ Field.all, f.name.toList.head? ≠ some '_' := by decide +kernel
  exact hall f (Field.mem_all f)

/-- The standard means tell faults. -/
theorem tellsFaults_standard : Standard.means.TellsFaults where
  read t kind text := by
    simp only [Standard.means, Standard.read]
    cases Yaml.read? t with
    | none => exact fun h => nomatch Except.error.inj h
    | some n => exact fun h => nomatch h
  build values e kind text _ := by
    simp only [Standard.means]
    cases Standard.ofNamed values e with
    | error refused => exact fun h => nomatch Except.error.inj h
    | ok s => exact fun h => nomatch h
  dump s := by
    intro v hv
    obtain ⟨f, -, rfl⟩ := List.mem_map.1 hv
    exact isFree_name f

/-- A number for a key, and nothing else in the file or around the program: the means are in order, and the
call means nothing. -/
theorem load_fails_by_number_as_key :
    let file : File := ⟨"settings.yaml", some ['1', ':', ' ', '2', '\n']⟩
    let n : Node := .mapping [(.number (.int 1), .scalar (.number (.int 2)))]
    Standard.means.TellsFaults ∧ Standard.means.Holds file n ∧ HasFreeNames n ∧ HasUnnamedKey n ∧
      (∃ s, Standard.means.build [] ⟨[], []⟩ = .ok s) ∧
      Standard.means.load (some file) ⟨[], []⟩ = .error (.misuse .settingNotNamed) := by
  intro file n
  have hholds : Standard.means.Holds file n := ⟨_, rfl, by decide +kernel⟩
  have hgives {k : Scalar} (hk : GivesKey [(.number (.int 1), .scalar (.number (.int 2)))] k) :
      k = .number (.int 1) := by
    cases hk with
    | atTop hmem => exact (Prod.mk.inj (List.mem_singleton.1 hmem)).1
    | inSection hmem =>
      cases (Prod.mk.inj (List.mem_singleton.1 hmem)).2
  have hfree : HasFreeNames n := by
    intro entries hn t ht
    rw [← Node.mapping.inj hn] at ht
    cases hgives ht
  have hunnamed : HasUnnamedKey n := by
    refine ⟨_, rfl, ?_, .number (.int 1), .atTop List.mem_cons_self ?_, ?_⟩
    · rintro k v hv ⟨name, -, rfl⟩
      cases List.mem_singleton.1 hv
    · rintro ⟨name, -, ⟨⟩⟩
    · rintro ⟨t, ⟨⟩⟩
  have hbuild : ∃ s, Standard.means.build [] ⟨[], []⟩ = .ok s := ⟨_, rfl⟩
  have hfails := load_fails_by_fault_or_unnamed_key tellsFaults_standard (some file) ⟨[], []⟩
    fun f m hsome hother => by
      cases hsome
      exact hother.unique hholds ▸ hfree
  exact ⟨tellsFaults_standard, hholds, hfree, hunnamed, hbuild,
    hfails.misuse.2 ⟨⟨file, n, rfl, hholds, hunnamed⟩, hbuild⟩⟩

/-- No fault of a setting tells so. -/
theorem load_of_number_as_key :
    load (some ⟨"settings.yaml", some ['1', ':', ' ', '2', '\n']⟩) ⟨[], []⟩ =
        .error (.misuse .settingNotNamed) ∧
      ¬ (CallFailure.misuse .settingNotNamed).IsConfiguration :=
  ⟨rfl, id⟩

end Settings

end Rejoin
