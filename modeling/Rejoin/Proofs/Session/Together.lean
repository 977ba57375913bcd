import Mathlib.Algebra.BigOperators.Group.List.Basic
import Mathlib.Algebra.GroupWithZero.Nat
import Rejoin.Proofs.Turn.Ending

/-!
Turns that are carried on at once, one judgement at a time, by whichever waits longest. If the detector
looks at each response by itself it does not matter whose turn it is: every turn ends as it does alone.
-/

namespace Rejoin.Session

open Turn

variable {d : Detector} {t : Turn} {s : State} {turns : List (Turn × Progress)}

/-- How a turn ends that is left alone. -/
def alone [Json.Limits] (d : Detector) : Turn × Progress → Report
  | (t, p) => t.drive d 0 (t.cap + 1) p

/-- The judgements that a turn can still take. -/
def room : Turn × Progress → Nat
  | (t, .pending s) => t.cap + 1 - s.count
  | (_, .ended _) => 0

/-- Whether a turn that waits has received something, and no more than its cap allows. -/
def HasRoom : Turn × Progress → Prop
  | (t, .pending s) => s.responses ≠ [] ∧ s.count ≤ t.cap
  | (_, .ended _) => True

section Next

/-- The turn that waits since the earlier instant. -/
def earlier (best : Option (Instant × Nat)) (p : (Turn × Progress) × Nat) : Option (Instant × Nat) :=
  match waitsSince? p.1, best with
  | none, _ => best
  | some now, none => some (now, p.2)
  | some now, some (earliest, _) => if now < earliest then some (now, p.2) else best

theorem next?_eq (turns : List (Turn × Progress)) :
    next? turns = (turns.zipIdx.foldl earlier none).map (·.2) := rfl

theorem earlier_eq_none {best : Option (Instant × Nat)} {p : (Turn × Progress) × Nat}
    (hnone : earlier best p = none) : best = none ∧ waitsSince? p.1 = none := by
  unfold earlier at hnone
  split at hnone
  · next hwaits => exact ⟨hnone, hwaits⟩
  · cases hnone
  · split at hnone <;> cases hnone

theorem earlier_eq_some {best : Option (Instant × Nat)} {p : (Turn × Progress) × Nat}
    {x : Instant × Nat} (hsome : earlier best p = some x) :
    best = some x ∨ waitsSince? p.1 = some x.1 ∧ p.2 = x.2 := by
  unfold earlier at hsome
  split at hsome
  · exact .inl hsome
  · next hwaits =>
    cases hsome
    exact .inr ⟨hwaits, rfl⟩
  · next hwaits =>
    split at hsome
    · cases hsome
      exact .inr ⟨hwaits, rfl⟩
    · exact .inl hsome

theorem foldl_earlier_eq_none {l : List ((Turn × Progress) × Nat)} {best : Option (Instant × Nat)}
    (hnone : l.foldl earlier best = none) : best = none ∧ ∀ p ∈ l, waitsSince? p.1 = none := by
  induction l generalizing best with
  | nil => exact ⟨hnone, List.forall_mem_nil _⟩
  | cons p rest ih =>
    rw [List.foldl_cons] at hnone
    obtain ⟨hbest, hrest⟩ := ih hnone
    obtain ⟨hbest, hwaits⟩ := earlier_eq_none hbest
    exact ⟨hbest, List.forall_mem_cons.2 ⟨hwaits, hrest⟩⟩

theorem foldl_earlier_eq_some {l : List ((Turn × Progress) × Nat)} {best : Option (Instant × Nat)}
    {x : Instant × Nat} (hsome : l.foldl earlier best = some x) :
    best = some x ∨ ∃ p ∈ l, waitsSince? p.1 = some x.1 ∧ p.2 = x.2 := by
  induction l generalizing best with
  | nil => exact .inl hsome
  | cons p rest ih =>
    rw [List.foldl_cons] at hsome
    obtain hbest | ⟨p', hp', hfound⟩ := ih hsome
    · obtain hbest | hfound := earlier_eq_some hbest
      · exact .inl hbest
      · exact .inr ⟨p, List.mem_cons_self, hfound⟩
    · exact .inr ⟨p', List.mem_cons_of_mem p hp', hfound⟩

/-- If no turn is next, all have ended. -/
theorem ended_of_next?_eq_none (hnone : next? turns = none) {x : Turn × Progress} (hx : x ∈ turns) :
    ∃ r, x.2 = .ended r := by
  rw [next?_eq, Option.map_eq_none_iff] at hnone
  obtain ⟨i, hi⟩ := List.mem_iff_getElem?.1 hx
  have hwaits := (foldl_earlier_eq_none hnone).2 (x, i) (List.mem_zipIdx_iff_getElem?.2 hi)
  obtain ⟨t, p⟩ := x
  cases p with
  | pending s => cases hwaits
  | ended r => exact ⟨r, rfl⟩

/-- The turn that is next waits for a judgement. -/
theorem pending_of_next?_eq_some {i : Nat} (hsome : next? turns = some i) :
    ∃ before t s after, turns = before ++ (t, .pending s) :: after ∧ before.length = i := by
  rw [next?_eq, Option.map_eq_some_iff] at hsome
  obtain ⟨⟨now, j⟩, hfold, rfl⟩ := hsome
  obtain hnone | ⟨⟨⟨t, p⟩, k⟩, hp, hwaits, rfl⟩ := foldl_earlier_eq_some hfold
  · cases hnone
  obtain ⟨hlt, hget⟩ := List.getElem?_eq_some_iff.1 (List.mem_zipIdx_iff_getElem?.1 hp)
  cases p with
  | ended r => cases hwaits
  | pending s =>
    refine ⟨turns.take k, t, s, turns.drop (k + 1), ?_, ?_⟩
    · dsimp only at hget
      rw [← hget, List.cons_getElem_drop_succ, List.take_append_drop]
    · rw [List.length_take, Nat.min_eq_left (Nat.le_of_lt hlt)]

end Next

section Advance

variable [Json.Limits]

theorem advance_eq (d : Detector) (judged : Nat) (before after : List (Turn × Progress)) (t : Turn)
    (s : State) :
    advance d judged before.length (before ++ (t, .pending s) :: after) =
      before ++ (t, t.resume s (d.judge judged s.latest)) :: after := by
  have hlt : before.length < (before ++ (t, Progress.pending s) :: after).length := by simp
  rw [advance, List.modify_eq_take_cons_drop hlt]
  simp

/-- A judgement takes some of the room that a turn has. -/
theorem hasRoom_resume {x : Turn × Progress} (hx : x = (t, .pending s)) (hroom : HasRoom x)
    (v : Verdict) :
    HasRoom (t, t.resume s v) ∧ room (t, t.resume s v) < room x := by
  subst hx
  obtain ⟨hresponses, hcount⟩ := hroom
  cases hnext : t.resume s v with
  | ended r =>
    refine ⟨trivial, ?_⟩
    rw [room, room]
    omega
  | pending next =>
    have hcap := lt_cap_of_pending hnext
    obtain ⟨hnextResponses, hnextCount⟩ := count_of_pending_resume hresponses hnext
    refine ⟨⟨hnextResponses, by omega⟩, ?_⟩
    rw [room, room]
    omega

/-- A judgement leaves a turn to end as it does alone. -/
theorem alone_resume (hd : d.IsStateless) (hroom : HasRoom (t, .pending s)) (judged : Nat) :
    alone d (t, t.resume s (d.judge judged s.latest)) = alone d (t, .pending s) := by
  have hends {s : State} (hs : HasRoom (t, .pending s)) :
      Ends t d 0 (.pending s) (alone d (t, .pending s)) :=
    ends_drive hs.1 hs.2 (Nat.lt_add_left s.count (Nat.lt_succ_self t.cap)) 0
  have hwhole := hends hroom
  cases hwhole with
  | judged hresume =>
    rw [hd 0 judged] at hresume
    have hrest := hresume.of_isStateless hd 0
    have hnextRoom := (hasRoom_resume rfl hroom (d.judge judged s.latest)).1
    cases hnext : t.resume s (d.judge judged s.latest) with
    | ended r =>
      rw [hnext] at hrest
      cases hrest
      rfl
    | pending next =>
      rw [hnext] at hrest hnextRoom
      exact (hends hnextRoom).unique hrest

end Advance

theorem map_report_of_ended [Json.Limits] (hended : ∀ x ∈ turns, ∃ r, x.2 = .ended r) :
    turns.map report = turns.map (alone d) := by
  refine List.map_congr_left fun x hx => ?_
  obtain ⟨t, p⟩ := x
  obtain ⟨r, hr⟩ := hended _ hx
  cases hr
  rfl

/-- Turns with enough judgements for all of them end as they do alone. -/
theorem map_report_driveAll [Json.Limits] (hd : d.IsStateless) {left : Nat}
    (hroom : ∀ x ∈ turns, HasRoom x) (hleft : (turns.map room).sum ≤ left) (judged : Nat) :
    (driveAll d judged left turns).map report = turns.map (alone d) := by
  induction left generalizing judged turns with
  | zero =>
    refine map_report_of_ended fun x hx => ?_
    obtain ⟨before, after, rfl⟩ := List.append_of_mem hx
    rw [List.map_append, List.map_cons, List.sum_append, List.sum_cons] at hleft
    obtain ⟨t, p⟩ := x
    cases p with
    | ended r => exact ⟨r, rfl⟩
    | pending s =>
      have hcount := (hroom _ hx).2
      rw [room] at hleft
      omega
  | succ left ih =>
    rw [driveAll]
    cases hnext : next? turns with
    | none => exact map_report_of_ended fun x hx => ended_of_next?_eq_none hnext hx
    | some i =>
      obtain ⟨before, t, s, after, rfl, rfl⟩ := pending_of_next?_eq_some hnext
      rw [List.forall_mem_append, List.forall_mem_cons] at hroom
      obtain ⟨hbefore, hpending, hafter⟩ := hroom
      obtain ⟨hresumed, hlt⟩ := hasRoom_resume rfl hpending (d.judge judged s.latest)
      have hsame := alone_resume hd hpending judged
      dsimp only
      rw [advance_eq, ih ?_ ?_ (judged + 1)]
      · rw [List.map_append, List.map_cons, hsame, List.map_append, List.map_cons]
      · rw [List.forall_mem_append, List.forall_mem_cons]
        exact ⟨hbefore, hresumed, hafter⟩
      · rw [List.map_append, List.map_cons, List.sum_append, List.sum_cons] at hleft ⊢
        omega

theorem room_start (turns : List Turn) (n : Nat) :
    turns.foldl (fun n t => n + t.cap + 1) n =
      n + ((turns.map fun t => (t, Progress.pending (.start t 0))).map room).sum := by
  induction turns generalizing n with
  | nil => rfl
  | cons t rest ih =>
    have hroom : room (t, .pending (.start t 0)) = t.cap + 1 := rfl
    rw [List.foldl_cons, ih, List.map_cons, List.map_cons, List.sum_cons, hroom]
    omega

/-- Turns at once, with a detector that looks at each response by itself, end as each of them does
    alone. -/
theorem together_eq [Json.Limits] (hd : d.IsStateless) (turns : List Turn) :
    together d turns = turns.map fun t => t.run d := by
  unfold together
  dsimp only
  rw [map_report_driveAll hd, List.map_map]
  · rfl
  · intro x hx
    obtain ⟨t, _, rfl⟩ := List.mem_map.1 hx
    exact ⟨List.cons_ne_nil _ _, Nat.zero_le t.cap⟩
  · exact Nat.le_of_eq ((room_start turns 0).trans (Nat.zero_add _)).symm

end Rejoin.Session
