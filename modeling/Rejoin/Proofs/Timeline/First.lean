import Rejoin.Proofs.Timeline.Race

/-!
What a wait for work comes to. If no two of the parties meet, one of them is first: the work ends by
itself, or it is interrupted, by the signal or because the caller is cancelled; and then it is known how
the call ends, when, and when the work has ended.
-/

namespace Rejoin.Race

variable {α : Type} {w : Work α} {s : Signal} {start : Instant} {cancel : Option Instant}
  {first : Option Interrupt}

namespace Interrupt

def at_ : Interrupt → Instant
  | .signal t => t
  | .caller t => t

/-- How an interrupted call ends. -/
def ending : Interrupt → Ending α
  | .signal _ => cancelledEnding "Continuation cancelled while awaiting response"
  | .caller _ => .abandoned

end Interrupt

/-- Who is first, if at most one of the signal and the caller's cancellation comes before the call has
    ended and nothing falls due together. The signal may be set by the work itself: in the step in which
    it ends, or as it starts, and then at once if it takes its time. Work that never ends is not first. -/
inductive First (w : Work α) (s : Signal) (start : Instant) (cancel : Option Instant) :
    Option Interrupt → Prop where
  | work {e : Instant} (hfinish : w.finishAt? start = some e)
      (hstart : w.raises = some .atStart → w.duration = .atOnce)
      (hsignal : ∀ t, s.due = some t → e < t) (hcaller : ∀ t, cancel = some t → e < t) :
      First w s start cancel none
  | signal {t : Instant}
      (hsignal : if w.raises = some .atStart then t = start else s.due = some t ∧ start ≤ t)
      (hfinish : ∀ e, w.finishAt? start = some e → t < e)
      (hcaller : ∀ c, cancel = some c → t + timeOf w.cleanup < c) :
      First w s start cancel (some (.signal t))
  | caller {t : Instant} (hcaller : cancel = some t) (hstart : start ≤ t)
      (hfinish : ∀ e, w.finishAt? start = some e → t < e) (hraises : w.raises ≠ some .atStart)
      (hsignal : ∀ e, s.due = some e → t + timeOf w.cleanup < e) :
      First w s start cancel (some (.caller t))

/-- The observed stages of work that was interrupted at an instant. -/
def interruptedTrace (w : Work α) (start t : Instant) : Trace :=
  [(.started, start), (.cancelled, t)] ++
    if w.cleanup.isSome then [(.cleaned, t + timeOf w.cleanup)] else []

/-- What the wait comes to if it is known who is first: the work ends as it ends by itself, or the call
    ends as interrupted when the work has cleaned up, however the work ends then. -/
def settled (w : Work α) (s : Signal) (start : Instant) : Option Interrupt → Option (Awaited α)
  | none => answered? w (afterWork w s) start
  | some i =>
    some ⟨i.ending, i.at_ + timeOf w.cleanup, interruptedTrace w start i.at_, some (afterStart w s),
      drainRecords w.afterCancel, some (i.at_ + timeOf w.cleanup)⟩

theorem First.le_and_lt {i : Interrupt} (h : First w s start cancel (some i)) :
    start ≤ i.at_ ∧ ∀ e, w.finishAt? start = some e → i.at_ < e := by
  cases h with
  | signal hsignal hfinish =>
    refine ⟨?_, hfinish⟩
    split at hsignal
    · exact hsignal.ge
    · exact hsignal.2
  | caller _ hstart hfinish => exact ⟨hstart, hfinish⟩

theorem First.le_cancel {t : Instant} (h : First w s start cancel first) (ht : cancel = some t) :
    start ≤ t := by
  cases h with
  | work hfinish _ _ hcaller => exact (Work.le_of_finishAt? hfinish).trans (hcaller t ht).le
  | signal hsignal hfinish hcaller =>
    have hstart := (First.signal hsignal hfinish hcaller).le_and_lt.1
    exact (hstart.trans (le_add_timeOf _ w.cleanup)).trans (hcaller t ht).le
  | caller hcaller hstart =>
    rw [hcaller] at ht
    cases ht
    exact hstart

/-- Whoever is first, the wait comes to something. -/
theorem First.exists_settled (h : First w s start cancel first) :
    ∃ a, settled w s start first = some a := by
  cases h with
  | work hfinish => exact ⟨_, answered?_eq_some_iff.2 ⟨_, hfinish, rfl⟩⟩
  | signal | caller => exact ⟨_, rfl⟩

theorem cancelledAt_eq {t : Instant} {again : Option Instant}
    (hagain : again.filter (· < t + timeOf w.cleanup) = none) :
    w.cancelledAt start t again =
      ⟨w.afterCancel, t + timeOf w.cleanup, interruptedTrace w start t⟩ := by
  rw [Work.cancelledAt, hagain]
  rfl

theorem against_of_work {e : Instant} (hfinish : w.finishAt? start = some e)
    (hstart : w.raises = some .atStart → w.duration = .atOnce)
    (hsignal : ∀ t, s.due = some t → e < t) (hcaller : ∀ t, cancel = some t → e < t) :
    against w s start cancel = settled w s start none := by
  have htime : signalTime? w s start = none := by
    rw [Option.eq_none_iff_forall_ne_some]
    intro t ht
    obtain ⟨hbusy, ht⟩ := signalTime?_eq_some_iff.1 ht
    split at ht
    · next hraises =>
      have hnow := hbusy start (Work.finishAt?_of_atOnce (hstart hraises))
      exact absurd hnow (not_lt.2 ht.ge)
    · exact absurd (hsignal t ht.1) (not_lt.2 (hbusy e hfinish).le)
  have hlate : cancel.filter (w.isBusyAt start) = none := by
    rw [Option.filter_eq_none_iff]
    intro t ht hbusy
    exact absurd (hcaller t ht) (not_lt.2 ((Work.isBusyAt_iff.1 hbusy).2 e hfinish).le)
  rw [against, htime, hlate, settled, ← afterWork_eq]
  rfl

theorem against_of_signal {t : Instant} (htime : signalTime? w s start = some t)
    (hcaller : ∀ c, cancel = some c → t + timeOf w.cleanup < c) :
    against w s start cancel = settled w s start (some (.signal t)) := by
  have hfirst : earlier? (some t) (cancel.filter (w.isBusyAt start)) = some (.signal t) := by
    cases hlate : cancel.filter (w.isBusyAt start) with
    | none => rfl
    | some c =>
      have hc := hcaller c (Option.filter_eq_some_iff.1 hlate).1
      exact congrArg some (if_pos ((le_add_timeOf t w.cleanup).trans_lt hc))
  have hagain : (cancel.filter (t ≤ ·)).filter (· < t + timeOf w.cleanup) = none := by
    rw [Option.filter_eq_none_iff]
    intro c hc hbefore
    have hlate := hcaller c (Option.filter_eq_some_iff.1 hc).1
    exact absurd hlate (not_lt.2 (of_decide_eq_true hbefore).le)
  have hnever : (cancel.filter (t ≤ ·)).any (· < t + timeOf w.cleanup) = false := by
    rw [← Option.isSome_filter, hagain]
    rfl
  rw [against, htime, hfirst]
  dsimp only
  rw [hnever, cancelledAt_eq hagain]
  rfl

theorem against_of_caller {t : Instant} (hstart : start ≤ t)
    (hfinish : ∀ e, w.finishAt? start = some e → t < e)
    (hsignal : ∀ e, signalTime? w s start = some e → t + timeOf w.cleanup < e) :
    against w s start (some t) = settled w s start (some (.caller t)) := by
  have hsome : (some t).filter (w.isBusyAt start) = some t := by
    rw [Option.filter_some, if_pos (Work.isBusyAt_iff.2 ⟨hstart, hfinish⟩)]
  have hfirst : earlier? (signalTime? w s start) (some t) = some (.caller t) := by
    cases htime : signalTime? w s start with
    | none => rfl
    | some e =>
      have hle : t ≤ e := (le_add_timeOf t w.cleanup).trans (hsignal e htime).le
      exact congrArg some (if_neg (not_lt.2 hle))
  rw [against, hsome, hfirst]
  dsimp only
  rw [cancelledAt_eq rfl]
  rfl

theorem await_eq_settled (hunset : s.isRaised start = false) (hfirst : First w s start cancel first)
    (running : Bool) : await w start (some s) running cancel = settled w s start first := by
  rw [await, hunset, if_neg Bool.false_ne_true]
  cases hfirst with
  | work hfinish hstart hsignal hcaller => exact against_of_work hfinish hstart hsignal hcaller
  | signal hsignal hfinish hcaller =>
    exact against_of_signal (signalTime?_eq_some_iff.2 ⟨hfinish, hsignal⟩) hcaller
  | caller hcaller hstart hfinish hraises hsignal =>
    rw [hcaller]
    refine against_of_caller hstart hfinish fun e he => hsignal e ?_
    obtain ⟨_, hdue⟩ := signalTime?_eq_some_iff.1 he
    rw [if_neg hraises] at hdue
    exact hdue.1

end Rejoin.Race
