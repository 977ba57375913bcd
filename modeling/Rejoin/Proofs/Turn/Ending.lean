import Rejoin.Proofs.Turn.Step

/-!
Turns carried on until they end, without a count of the judgements that it takes. The count that
turns are driven with is never used up: a judgement after which a turn goes on brings it one response
closer to its cap. A turn that waits for ever has an infinite delay, or sent a request that never ends.
-/

namespace Rejoin.Turn

variable {t : Turn} {d : Detector} {s next : State} {v : Verdict}

section Ends

variable [Json.Limits]

/-- Whether a turn that is carried on ends with a report, however many judgements that takes. -/
inductive Ends (t : Turn) (d : Detector) : Nat → Progress → Report → Prop where
  | ended {judged : Nat} {report : Report} : Ends t d judged (.ended report) report
  | judged {judged : Nat} {s : State} {report : Report}
      (hresume : Ends t d (judged + 1) (t.resume s (d.judge judged s.latest)) report) :
      Ends t d judged (.pending s) report

/-- A turn goes on after a judgement only below its cap. -/
theorem lt_cap_of_pending (hnext : t.resume s v = .pending next) : s.count < t.cap := by
  have hresumed := resumed_resume t s v
  rw [hnext] at hresumed
  cases hresumed with
  | rounded _ hmiddle hp =>
    cases hp with
    | requested hcap => exact hmiddle.count_eq ▸ hcap

/-- A judgement after which a turn goes on brings one response. -/
theorem count_of_pending_resume (hs : s.responses ≠ []) (hnext : t.resume s v = .pending next) :
    next.responses ≠ [] ∧ next.count = s.count + 1 := by
  have hresumed := resumed_resume t s v
  rw [hnext] at hresumed
  obtain ⟨answer, hresponses⟩ := hresumed.of_pending
  have hpos := List.length_pos_iff.2 hs
  rw [State.count, State.count, hresponses, List.length_append, List.length_singleton]
  exact ⟨by simp, by omega⟩

/-- A turn that is driven with more judgements than its cap can take ends by itself. -/
theorem ends_drive (hs : s.responses ≠ []) (hcount : s.count ≤ t.cap) {left : Nat}
    (hleft : t.cap < s.count + left) (judged : Nat) :
    Ends t d judged (.pending s) (t.drive d judged left (.pending s)) := by
  induction left generalizing judged s with
  | zero => omega
  | succ left ih =>
    refine .judged ?_
    rw [drive]
    cases hnext : t.resume s (d.judge judged s.latest) with
    | ended report =>
      cases left <;> exact .ended
    | pending next =>
      have hcap := lt_cap_of_pending hnext
      obtain ⟨hresponses, hnextCount⟩ := count_of_pending_resume hs hnext
      exact ih hresponses (by omega) (by omega) (judged + 1)

theorem ends_runFrom (t : Turn) (d : Detector) (judged : Nat) (now : Instant) :
    Ends t d judged (.pending (.start t now)) (t.runFrom d judged now) :=
  ends_drive (s := .start t now) (List.cons_ne_nil _ _) (Nat.zero_le t.cap)
    (Nat.lt_add_left 0 (Nat.lt_succ_self t.cap)) judged

/-- A turn ends in one way. -/
theorem Ends.unique {m : Nat} {p : Progress} {report last : Report} (h : Ends t d m p report)
    (hlast : Ends t d m p last) : report = last := by
  induction h with
  | ended =>
    cases hlast
    rfl
  | judged _ ih =>
    cases hlast with
    | judged hlast => exact ih hlast

/-- A detector that looks at the response alone does not count. -/
theorem Ends.of_isStateless (hd : d.IsStateless) {m : Nat} {p : Progress} {report : Report}
    (h : Ends t d m p report) (n : Nat) : Ends t d n p report := by
  induction h generalizing n with
  | ended => exact .ended
  | @judged m s report _ ih =>
    rw [hd m n] at ih
    exact .judged (ih (n + 1))

/-- What each judgement hands on while a turn goes on, and gives to the report when it ends, holds of
    the report. -/
theorem Ends.of_step {P : Nat → State → Prop} {Q : Report → Prop} {judged : Nat} {report : Report}
    (hgoes : ∀ judged s next, P judged s → t.resume s (d.judge judged s.latest) = .pending next →
      P (judged + 1) next)
    (hends : ∀ judged s report, P judged s →
      t.resume s (d.judge judged s.latest) = .ended report → Q report)
    (h : Ends t d judged (.pending s) report) (hs : P judged s) : Q report := by
  generalize hp : Progress.pending s = p at h
  induction h generalizing s with
  | ended => cases hp
  | @judged judged s report hresume ih =>
    cases hp
    cases hnext : t.resume s (d.judge judged s.latest) with
    | pending next => exact ih (hgoes judged s next hs hnext) hnext.symm
    | ended last =>
      rw [hnext] at hresume
      cases hresume
      exact hends judged s report hs hnext

theorem finish_ne_waitsForEver (t : Turn) (s : State) (phase : Phase) :
    (t.finish s phase).outcome ≠ .waitsForEver := by
  unfold finish
  dsimp only
  split <;> rintro ⟨⟩

theorem Resumed.mayWaitForEver {report : Report} (hp : Resumed t s v (.ended report))
    (hwaits : report.outcome = .waitsForEver) : t.MayWaitForEver := by
  cases hp with
  | complete => cases hwaits
  | done => exact absurd hwaits (finish_ne_waitsForEver t _ _)
  | rounded _ _ hp =>
    cases hp with
    | capped | stalled => exact absurd hwaits (finish_ne_waitsForEver t _ _)
    | cancelled => cases hwaits
    | endless _ _ _ hdelay => exact .inl hdelay
    | requested _ _ _ hp => exact hp.mayWaitForEver hwaits

/-- A turn whose delay is finite, and all of whose work ends, does not wait for ever. -/
theorem runFrom_ne_waitsForEver (ht : ¬ t.MayWaitForEver) (d : Detector) (judged : Nat)
    (began : Instant) : (t.runFrom d judged began).outcome ≠ .waitsForEver := by
  refine (ends_runFrom t d judged began).of_step (P := fun _ _ => True)
    (Q := fun report => report.outcome ≠ .waitsForEver) (fun _ _ _ _ _ => trivial) ?_ trivial
  intro judged s report _ hended hwaits
  have hresumed := resumed_resume t s (d.judge judged s.latest)
  rw [hended] at hresumed
  exact ht (hresumed.mayWaitForEver hwaits)

end Ends

/-- A request that never ends, without a signal and with one that is due after five seconds. -/
example :
    let first : Response := .chat (.ofText ['a', 'b'] none)
    let work : Work (Option Response) := ⟨none, .endless, .abandoned, none, .abandoned⟩
    let t : Turn := ⟨.default, [], first, fun _ => .accepted false work, none⟩
    let d : Detector := .scripted [.truncated .tokenLimit ""]
    (match (t.runFrom d 0 0).outcome with
      | .waitsForEver => true
      | _ => false) = true ∧
      ({ t with signal := some ⟨false, some 5⟩ }.runFrom d 0 0).state.now = 5 := by
  decide +kernel

end Rejoin.Turn
