import Mathlib.Data.List.Induction
import Mathlib.Data.List.Nodup
import Rejoin.Yaml.Node

/-!
Entries that are written one after the other. Writing under a key that is there replaces its value in
place, and a new key is put at the end. So what is left are the keys that were written, each with the
value that was written last.
-/

namespace Rejoin.Entries

variable {κ α : Type} [DecidableEq κ] {l m : List (κ × α)} {key other : κ} {v : α}

/-- Entries with a value written under a key. -/
def write (l : List (κ × α)) (key : κ) (v : α) : List (κ × α) :=
  if l.any (·.1 = key) then l.map fun e => if e.1 = key then (key, v) else e else l ++ [(key, v)]

/-- Entries with others written over them, one after the other. -/
def overwrite (l m : List (κ × α)) : List (κ × α) := m.foldl (fun known e => write known e.1 e.2) l

/-- The entries of documents are written in this way. -/
theorem foldl_insert_eq_overwrite (l m : List (Yaml.Scalar × α)) :
    m.foldl (fun known e => Yaml.Node.insert known e.1 e.2) l = overwrite l m := rfl

/-- The keys of entries, in their order. -/
def keys (l : List (κ × α)) : List κ := l.map (·.1)

/-- The value of the last entry with a key. -/
def last? (key : κ) (l : List (κ × α)) : Option α := l.reverse.lookup key

theorem keys_write (l : List (κ × α)) (key : κ) (v : α) :
    keys (write l key v) = if key ∈ keys l then keys l else keys l ++ [key] := by
  have hany : l.any (·.1 = key) = true ↔ key ∈ keys l := by simp [keys]
  rw [write]
  by_cases hkey : key ∈ keys l
  · rw [if_pos (hany.2 hkey), if_pos hkey, keys, keys, List.map_map]
    apply List.map_congr_left
    intro e _
    by_cases he : e.1 = key
    · simp [he]
    · simp [he]
  · rw [if_neg (mt hany.1 hkey), if_neg hkey, keys, keys, List.map_append]
    rfl

theorem mem_keys_write : other ∈ keys (write l key v) ↔ other ∈ keys l ∨ other = key := by
  rw [keys_write]
  split
  · next hkey =>
    constructor
    · exact .inl
    · rintro (hother | rfl)
      · exact hother
      · exact hkey
  · rw [List.mem_append, List.mem_singleton]

theorem nodup_keys_write (hl : (keys l).Nodup) (key : κ) (v : α) : (keys (write l key v)).Nodup := by
  rw [keys_write]
  split
  · exact hl
  · next hkey =>
    apply List.Nodup.append hl (List.nodup_singleton key)
    intro other hother hsame
    obtain rfl := List.mem_singleton.1 hsame
    exact hkey hother

theorem lookup_cons (key : κ) (e : κ × α) (l : List (κ × α)) :
    (e :: l).lookup key = if key = e.1 then some e.2 else l.lookup key := by
  obtain ⟨k, v⟩ := e
  rw [List.lookup_cons]
  by_cases hkey : key = k
  · rw [beq_iff_eq.2 hkey, if_pos hkey]
  · rw [beq_false_of_ne hkey, if_neg hkey]

theorem lookup_isSome_iff : (l.lookup key).isSome = true ↔ key ∈ keys l := by
  induction l with
  | nil => simp [keys]
  | cons e rest ih =>
    rw [lookup_cons, keys, List.map_cons, List.mem_cons, ← keys, ← ih]
    by_cases hkey : key = e.1 <;> simp [hkey]

theorem lookup_eq_none (hkey : key ∉ keys l) : l.lookup key = none := by
  rw [← Option.not_isSome_iff_eq_none, lookup_isSome_iff]
  exact hkey

/-- Where no key appears twice, the entries are what is found under their keys. -/
theorem lookup_eq_some_iff (hl : (keys l).Nodup) : l.lookup key = some v ↔ (key, v) ∈ l := by
  induction l with
  | nil => simp
  | cons e rest ih =>
    obtain ⟨hnew, hrest⟩ := List.nodup_cons.1 hl
    rw [lookup_cons, List.mem_cons, ← ih hrest]
    by_cases hkey : key = e.1
    · simp [hkey, lookup_eq_none hnew, Prod.ext_iff, eq_comm]
    · simp [hkey, Prod.ext_iff]

theorem lookup_replace (l : List (κ × α)) (key other : κ) (v : α) :
    (l.map fun e => if e.1 = key then (key, v) else e).lookup other =
      if other = key then (l.lookup key).map fun _ => v else l.lookup other := by
  induction l with
  | nil => simp
  | cons e rest ih =>
    rw [List.map_cons, lookup_cons, lookup_cons, lookup_cons, ih]
    by_cases he : e.1 = key
    · by_cases hother : other = key <;> simp [he, hother]
    · by_cases hother : other = key
      · simp [he, hother, Ne.symm he]
      · simp [he, hother]

theorem lookup_write (l : List (κ × α)) (key other : κ) (v : α) :
    (write l key v).lookup other = if other = key then some v else l.lookup other := by
  have hany : l.any (·.1 = key) = true ↔ key ∈ keys l := by simp [keys]
  rw [write]
  by_cases hkey : key ∈ keys l
  · obtain ⟨w, hw⟩ := Option.isSome_iff_exists.1 (lookup_isSome_iff.2 hkey)
    rw [if_pos (hany.2 hkey), lookup_replace, hw, Option.map_some]
  · rw [if_neg (mt hany.1 hkey), List.lookup_append, lookup_cons, List.lookup_nil]
    by_cases hother : other = key
    · simp [hother, lookup_eq_none hkey]
    · simp [hother]

theorem last?_cons (key : κ) (e : κ × α) (l : List (κ × α)) :
    last? key (e :: l) = (last? key l).or (if key = e.1 then some e.2 else none) := by
  rw [last?, List.reverse_cons, List.lookup_append, lookup_cons, List.lookup_nil, last?]

theorem last?_append (key : κ) (l m : List (κ × α)) :
    last? key (l ++ m) = (last? key m).or (last? key l) := by
  rw [last?, List.reverse_append, List.lookup_append, last?, last?]

theorem last?_isSome_iff : (last? key l).isSome = true ↔ key ∈ keys l := by
  rw [last?, lookup_isSome_iff, keys, keys, List.map_reverse, List.mem_reverse]

theorem last?_eq_none (hkey : key ∉ keys l) : last? key l = none := by
  rw [← Option.not_isSome_iff_eq_none, last?_isSome_iff]
  exact hkey

/-- Where no key appears twice, the last entry with a key is the only one. -/
theorem last?_of_nodup (hl : (keys l).Nodup) (key : κ) : last? key l = l.lookup key := by
  induction l with
  | nil => rfl
  | cons e rest ih =>
    obtain ⟨hnew, hrest⟩ := List.nodup_cons.1 hl
    rw [last?_cons, ih hrest, lookup_cons]
    by_cases hkey : key = e.1
    · simp [hkey, lookup_eq_none hnew]
    · simp [hkey]

theorem overwrite_cons (l : List (κ × α)) (e : κ × α) (m : List (κ × α)) :
    overwrite l (e :: m) = overwrite (write l e.1 e.2) m := rfl

theorem overwrite_append (l m n : List (κ × α)) :
    overwrite l (m ++ n) = overwrite (overwrite l m) n :=
  List.foldl_append

theorem mem_keys_overwrite : key ∈ keys (overwrite l m) ↔ key ∈ keys l ∨ key ∈ keys m := by
  induction m generalizing l with
  | nil => simp [overwrite, keys]
  | cons e rest ih =>
    rw [overwrite_cons, ih, mem_keys_write, or_assoc]
    simp [keys]

theorem nodup_keys_overwrite (hl : (keys l).Nodup) (m : List (κ × α)) :
    (keys (overwrite l m)).Nodup := by
  induction m generalizing l with
  | nil => exact hl
  | cons e rest ih => exact ih (nodup_keys_write hl e.1 e.2)

/-- A key has the value that was written over it last, if there is one. -/
theorem lookup_overwrite (l m : List (κ × α)) (key : κ) :
    (overwrite l m).lookup key = (last? key m).or (l.lookup key) := by
  induction m generalizing l with
  | nil => rfl
  | cons e rest ih =>
    rw [overwrite_cons, ih, lookup_write, last?_cons, Option.or_assoc]
    by_cases hkey : key = e.1 <;> simp [hkey]

theorem lookup_filter {p : κ → Bool} (hp : p key = true) (l : List (κ × α)) :
    (l.filter fun e => p e.1).lookup key = l.lookup key := by
  induction l with
  | nil => rfl
  | cons e rest ih =>
    rw [List.filter_cons, lookup_cons, ← ih]
    by_cases hkey : key = e.1
    · rw [← hkey, hp, if_pos rfl, lookup_cons, if_pos hkey, if_pos rfl]
    · rw [if_neg hkey]
      split
      · rw [lookup_cons, if_neg hkey]
      · rfl

/-- Entries with keys of other kinds do not matter for a key. -/
theorem last?_filter {p : κ → Bool} (hp : p key = true) (l : List (κ × α)) :
    last? key (l.filter fun e => p e.1) = last? key l := by
  rw [last?, ← List.filter_reverse, lookup_filter hp, last?]

/-- Entries whose keys and values are changed alike, no two keys to the same, are written alike. -/
theorem map_write {ι β : Type} [DecidableEq ι] {g : κ → ι} (hg : g.Injective) (h : α → β)
    (l : List (κ × α)) (key : κ) (v : α) :
    (write l key v).map (Prod.map g h) = write (l.map (Prod.map g h)) (g key) (h v) := by
  have hany : (l.map (Prod.map g h)).any (·.1 = g key) = l.any (·.1 = key) := by
    simp [List.any_map, Function.comp_def, hg.eq_iff]
  rw [write, write, hany]
  split
  · rw [List.map_map, List.map_map]
    apply List.map_congr_left
    intro e _
    by_cases he : e.1 = key <;> simp [he, hg.eq_iff]
  · rw [List.map_append]
    rfl

theorem map_overwrite {ι β : Type} [DecidableEq ι] {g : κ → ι} (hg : g.Injective) (h : α → β)
    (l m : List (κ × α)) :
    (overwrite l m).map (Prod.map g h) = overwrite (l.map (Prod.map g h)) (m.map (Prod.map g h)) := by
  induction m generalizing l with
  | nil => rfl
  | cons e rest ih =>
    rw [overwrite_cons, ih, map_write hg]
    rfl

end Rejoin.Entries
