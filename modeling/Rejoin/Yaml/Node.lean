import Rejoin.Value
import Rejoin.Yaml.Scalar

/-!
The data of YAML documents: scalars, lists and mappings. The keys of a mapping are scalars, and a
key that is written twice has the value written last.
-/

namespace Rejoin.Yaml

/-- A node of a document. -/
inductive Node where
  | scalar (s : Scalar)
  | list (items : List Node)
  | mapping (entries : List (Scalar × Node))
  deriving Repr

/-- Whether a scalar stands for nothing: a missing value, false, zero or an empty text. -/
def Scalar.isNothing : Scalar → Bool
  | .null => true
  | .truth b => !b
  | .number n => n.sameValue (.int 0)
  | .text t => t.isEmpty
  | .date => false

namespace Node

mutual

/-- Whether two nodes are the same. -/
def decEq : (m n : Node) → Decidable (m = n)
  | .scalar s, .scalar t => decidable_of_iff (s = t) (by rw [scalar.injEq])
  | .list xs, .list ys =>
    have := decEqItems xs ys
    decidable_of_iff (xs = ys) (by rw [list.injEq])
  | .mapping xs, .mapping ys =>
    have := decEqEntries xs ys
    decidable_of_iff (xs = ys) (by rw [mapping.injEq])
  | .scalar _, .list _ | .scalar _, .mapping _ | .list _, .scalar _ | .list _, .mapping _
  | .mapping _, .scalar _ | .mapping _, .list _ => isFalse nofun

/-- Whether two lists of nodes are the same. -/
def decEqItems : (xs ys : List Node) → Decidable (xs = ys)
  | [], [] => isTrue rfl
  | x :: xs, y :: ys =>
    have := decEq x y
    have := decEqItems xs ys
    decidable_of_iff (x = y ∧ xs = ys) (by rw [List.cons.injEq])
  | [], _ :: _ | _ :: _, [] => isFalse nofun

/-- Whether two lists of entries are the same. -/
def decEqEntries : (xs ys : List (Scalar × Node)) → Decidable (xs = ys)
  | [], [] => isTrue rfl
  | (k, x) :: xs, (l, y) :: ys =>
    have := decEq x y
    have := decEqEntries xs ys
    decidable_of_iff ((k = l ∧ x = y) ∧ xs = ys) (by rw [List.cons.injEq, Prod.mk.injEq])
  | [], _ :: _ | _ :: _, [] => isFalse nofun

end

instance : DecidableEq Node := decEq

/-- The node of a missing value. -/
def null : Node := .scalar .null

mutual

/-- A value as a node. -/
def ofValue : Value → Node
  | .null => null
  | .bool b => .scalar (.truth b)
  | .number n => .scalar (.number n)
  | .text s => .scalar (.text s.toList)
  | .list items => .list (ofItems items)
  | .record entries => .mapping (ofRecord entries)

/-- The items of a list as nodes. -/
def ofItems : List Value → List Node
  | [] => []
  | v :: rest => ofValue v :: ofItems rest

/-- The entries of a record as those of a mapping. -/
def ofRecord : List (String × Value) → List (Scalar × Node)
  | [] => []
  | (name, v) :: rest => (.text name.toList, ofValue v) :: ofRecord rest

end

/-- Whether a node stands for nothing. -/
def isNothing : Node → Bool
  | .scalar s => s.isNothing
  | .list items => items.isEmpty
  | .mapping entries => entries.isEmpty

/-- Entries with one more: in place of an entry of the same key, or else at the end. -/
def insert {α : Type} (entries : List (Scalar × α)) (key : Scalar) (v : α) :
    List (Scalar × α) :=
  if entries.any (·.1 = key) then entries.map fun e => if e.1 = key then (key, v) else e
  else entries ++ [(key, v)]

/-- The mapping with entries written in a given order. -/
def ofEntries (entries : List (Scalar × Node)) : Node :=
  .mapping (entries.foldl (fun known e => insert known e.1 e.2) [])

end Node

end Rejoin.Yaml
