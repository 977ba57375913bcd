import Rejoin.Proofs.Settings.Failure
import Rejoin.Proofs.Settings.Reading

/-!
What the means of loading settings are documented to do, as far as loading relies on it. A converter
leaves a value alone that has the type that is asked for. A builder takes the value of a field from the
names that are handed over, in any case, else from the surroundings, and leaves the field at its default
if there is none; it reads all fields that are given, in their order, and tells every refusal. Where a
field is named in several ways at once, nothing is said of which of these values is taken.

The standard means do all this.
-/

namespace Rejoin.Settings

open Yaml

variable {E : Type} {conv : Converter} {v w : Values} {f : Field} {name : String} {n : Node}
  {values : List (String × Node)} {r : Except Unbuilt Settings}

/-- What may be found for a field under the names that are handed over: a value under its name in any
    case, or none if no name is that of the field. -/
inductive Named (values : List (String × Node)) (f : Field) : Option Node → Prop where
  | given {name : String} {n : Node} (hname : foldName name = f.name) (hmem : (name, n) ∈ values) :
    Named values f (some n)
  | missing (hnone : ∀ v ∈ values, foldName v.1 ≠ f.name) : Named values f none

/-- Whether settings are built from values for some of the fields, or all refusals are told. -/
structure Builds (conv : Converter) (v : Values) (r : Except Unbuilt Settings) : Prop where
  built : (∀ f, ¬ v.Refuses conv f) → ∃ s, r = .ok s ∧ (∀ f, IsReadFrom conv v default s f) ∧
    s.given = Field.all.filter fun f => (v f).isSome
  refused : ∀ f, v.Refuses conv f →
    r = .error (.refused ((refusals conv v).map fun refused => [refused.field.name]))

/-- Whether means do what they are documented to do, with a converter and the values that they find in
    the surroundings. -/
structure Means.IsDocumented (means : Means E) (conv : Converter) (surroundings : E → Values) : Prop where
  converts : conv.KeepsOwn
  builds : ∀ values e, (∀ v ∈ values, IsFree v.1) → ∃ named : Values,
    (∀ f, Named values f (named f)) ∧
      Builds conv (named.backedBy (surroundings e)) (means.build values e)
  dumps : ∀ s, means.dump s = s.given.map fun f => (f.name, .ofValue (s.get f))

/-- Settings are built alike from values that are read alike, field by field. -/
theorem Builds.congr (h : ∀ f, (v f).map (reading conv f) = (w f).map (reading conv f))
    (hbuilds : Builds conv v r) : Builds conv w r where
  built hw := by
    have hv (f : Field) : ¬ v.Refuses conv f := by
      rw [refuses_iff, h, ← refuses_iff]
      exact hw f
    obtain ⟨s, hs, hread, hgiven⟩ := hbuilds.built hv
    refine ⟨s, hs, fun f => (hread f).congr (h f), hgiven.trans ?_⟩
    apply List.filter_congr
    intro f _
    rw [← Option.isSome_map, h, Option.isSome_map]
  refused f hf := by
    rw [← refusals_congr h]
    apply hbuilds.refused f
    rw [refuses_iff, h, ← refuses_iff]
    exact hf

section Standard

theorem named_namedValues (values : List (String × Node)) (f : Field) :
    Named values f (namedValues values f) := by
  rw [namedValues]
  cases hfind : values.find? fun v => foldName v.1 = f.name with
  | none => exact .missing fun v hv hname => List.find?_eq_none.1 hfind v hv (decide_eq_true hname)
  | some v =>
    have hname := List.find?_some hfind
    exact .given (of_decide_eq_true hname) (List.mem_of_find?_eq_some hfind)

theorem builds_ofValues (conv : Converter) (v : Values) :
    Builds conv v ((ofValues conv v).mapError fun refused => .refused (Standard.places refused)) where
  built hv := by
    obtain ⟨s, hs, hread⟩ := exists_ofValues hv
    exact ⟨s, by rw [hs]; rfl, hread⟩
  refused f hf := by
    rw [ofValues_of_refuses hf]
    rfl

/-- The standard means do what means are documented to do. -/
theorem isDocumented_standard :
    Standard.means.IsDocumented Standard.converter Environment.values where
  converts := ⟨fun _ => rfl, fun _ => rfl, fun _ => rfl, fun _ => rfl⟩
  builds values _ _ := ⟨namedValues values, named_namedValues values, builds_ofValues _ _⟩
  dumps _ := rfl

end Standard

end Rejoin.Settings
