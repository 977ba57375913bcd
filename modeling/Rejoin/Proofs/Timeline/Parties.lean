import Mathlib.Data.Finset.Max
import Rejoin.Proofs.Timeline.Race

/-!
The race step by step. Three parties take part in a wait for work: the task that does the work, the
task that waits for the signal, and the caller, which waits for the first of the two and, when that was
not the work, cancels what is left and waits until it has ended. The parties that are ready take their
steps in any order; only when none is ready does the clock go on to the next instant at which something
falls due.

Whatever the order, the call ends, unless work that never ends is all that it waits for; and then the
work has ended and nobody waits for the signal.
-/

namespace Rejoin.Race

variable {α : Type}

/-- The task that does the work. -/
inductive Task (α : Type) where
  | fresh
  | busy (stop : Option Instant)
  | cleaning (stop : Instant)
  | done (ending : Ending α) (at_ : Instant)

/-- The task that waits for the signal. -/
inductive Waiter where
  | waiting
  | cancelled
  | done

/-- The caller. It waits for the first of the tasks; or for the work, once the signal came first; or for
    both, once it was cancelled itself; or for the work, once it was cancelled while it waited for the
    work already; or its call has ended. -/
inductive Caller (α : Type) where
  | racing
  | drainsWork
  | drainsBoth
  | givesUp
  | ended (ending : Ending α) (at_ : Instant)

namespace Task

def isDone : Task α → Bool
  | .done .. => true
  | _ => false

/-- When the task goes on by itself. -/
def timer? : Task α → Option Instant
  | .busy stop => stop
  | .cleaning stop => some stop
  | _ => none

/-- How many steps the task has before it at most. -/
def rank : Task α → Nat
  | .fresh => 3
  | .busy _ => 2
  | .cleaning _ => 1
  | .done .. => 0

end Task

namespace Waiter

def cancel : Waiter → Waiter
  | .waiting => .cancelled
  | other => other

def rank : Waiter → Nat
  | .waiting => 2
  | .cancelled => 1
  | .done => 0

theorem cancel_ne_waiting (v : Waiter) : v.cancel ≠ .waiting := by
  cases v <;> nofun

theorem rank_cancel_le (v : Waiter) : v.cancel.rank ≤ v.rank := by
  cases v <;> decide

end Waiter

namespace Caller

def isEnded : Caller α → Bool
  | .ended .. => true
  | _ => false

def rank : Caller α → Nat
  | .racing => 3
  | .drainsWork => 2
  | .drainsBoth => 1
  | .givesUp => 1
  | .ended .. => 0

end Caller

/-- The parties at an instant: whether the signal is set and when it will be from outside, when the
    caller will be cancelled and whether it was, where each of the three stands, whether the work was
    told to stop, and what was observed and reported. -/
structure Parties (α : Type) where
  now : Instant
  isSet : Bool
  setDue : Option Instant
  cancelDue : Option Instant
  callerCancelled : Bool
  work : Task α
  workCancelled : Bool
  waiter : Waiter
  caller : Caller α
  trace : Trace
  records : List Log.Record

/-- A step of the work. Work that is cancelled while it cleans up, or before it has begun, is abandoned
    on the spot. -/
inductive WorkStep (w : Work α) (p : Parties α) : Parties α → Prop where
  | beginsAndEnds (hwork : p.work = .fresh) (hgoing : p.workCancelled = false)
      (hduration : w.duration = .atOnce) :
      WorkStep w p { p with
        isSet := p.isSet || w.raises.isSome
        work := .done w.ending p.now
        trace := p.trace ++ [(.started, p.now), (.finished, p.now)] }
  | begins (hwork : p.work = .fresh) (hgoing : p.workCancelled = false)
      (hduration : w.duration ≠ .atOnce) :
      WorkStep w p { p with
        isSet := p.isSet || w.raises = some .atStart
        work := .busy (w.finishAt? p.now)
        trace := p.trace ++ [(.started, p.now)] }
  | ends (hwork : p.work = .busy (some p.now)) (hgoing : p.workCancelled = false) :
      WorkStep w p { p with
        isSet := p.isSet || w.raises = some .atEnd
        work := .done w.ending p.now
        trace := p.trace ++ [(.finished, p.now)] }
  | stops {stop : Option Instant} (hwork : p.work = .busy stop) (hcancelled : p.workCancelled = true)
      (hcleanup : w.cleanup = none) :
      WorkStep w p { p with
        work := .done w.afterCancel p.now
        workCancelled := false
        trace := p.trace ++ [(.cancelled, p.now)] }
  | cleansUp {stop : Option Instant} (hwork : p.work = .busy stop) (hcancelled : p.workCancelled = true)
      (hcleanup : w.cleanup ≠ none) :
      WorkStep w p { p with
        work := .cleaning (p.now + timeOf w.cleanup)
        workCancelled := false
        trace := p.trace ++ [(.cancelled, p.now)] }
  | isClean (hwork : p.work = .cleaning p.now) (hgoing : p.workCancelled = false) :
      WorkStep w p { p with
        work := .done w.afterCancel p.now
        trace := p.trace ++ [(.cleaned, p.now)] }
  | neverBegins (hwork : p.work = .fresh) (hcancelled : p.workCancelled = true) :
      WorkStep w p { p with work := .done .abandoned p.now, workCancelled := false }
  | stopsCleaning {stop : Instant} (hwork : p.work = .cleaning stop)
      (hcancelled : p.workCancelled = true) :
      WorkStep w p { p with work := .done .abandoned p.now, workCancelled := false }

/-- A step of the task that waits for the signal. -/
inductive WaiterStep (p : Parties α) : Parties α → Prop where
  | notices (hwaiter : p.waiter = .waiting) (hset : p.isSet = true) :
      WaiterStep p { p with waiter := .done }
  | stops (hwaiter : p.waiter = .cancelled) : WaiterStep p { p with waiter := .done }

/-- A step of the caller. If the work has ended when the caller comes to look, the call ends as the work
    did, whether the signal was set meanwhile or not. -/
inductive CallerStep (p : Parties α) : Parties α → Prop where
  | answered {ending : Ending α} {at_ : Instant} (hcaller : p.caller = .racing)
      (hgoing : p.callerCancelled = false) (hwork : p.work = .done ending at_) :
      CallerStep p { p with waiter := p.waiter.cancel, caller := .ended ending p.now }
  | loses (hcaller : p.caller = .racing) (hgoing : p.callerCancelled = false)
      (hwork : p.work.isDone = false) (hwaiter : p.waiter = .done) :
      CallerStep p { p with workCancelled := true, caller := .drainsWork }
  | interrupted (hcaller : p.caller = .racing) (hcancelled : p.callerCancelled = true) :
      CallerStep p { p with
        callerCancelled := false
        workCancelled := !p.work.isDone
        waiter := p.waiter.cancel
        caller := .drainsBoth }
  | interruptedAgain (hcaller : p.caller = .drainsWork) (hcancelled : p.callerCancelled = true) :
      CallerStep p { p with
        callerCancelled := false
        workCancelled := !p.work.isDone
        caller := .givesUp }
  | drained {ending : Ending α} {at_ : Instant} (hcaller : p.caller = .drainsWork)
      (hgoing : p.callerCancelled = false) (hwork : p.work = .done ending at_) :
      CallerStep p { p with
        caller := .ended (cancelledEnding "Continuation cancelled while awaiting response") p.now
        records := p.records ++ drainRecords ending }
  | drainedBoth {ending : Ending α} {at_ : Instant} (hcaller : p.caller = .drainsBoth)
      (hwork : p.work = .done ending at_) (hwaiter : p.waiter = .done) :
      CallerStep p { p with
        caller := .ended .abandoned p.now
        records := p.records ++ drainRecords ending }
  | gaveUp (hcaller : p.caller = .givesUp) (hwork : p.work.isDone = true) :
      CallerStep p { p with caller := .ended .abandoned p.now }

/-- A step of one of the parties. -/
inductive Move (w : Work α) (p q : Parties α) : Prop where
  | work (h : WorkStep w p q)
  | waiter (h : WaiterStep p q)
  | caller (h : CallerStep p q)

/-- The instants at which something falls due. -/
def Parties.timers (p : Parties α) : List Instant :=
  p.work.timer?.toList ++ (p.setDue.toList ++ p.cancelDue.toList)

/-- What happens to the parties from outside: the signal is set, the caller is cancelled, or the clock
    goes on to the next instant at which something falls due. -/
inductive ClockStep (p : Parties α) : Parties α → Prop where
  | sets (hdue : p.setDue = some p.now) : ClockStep p { p with isSet := true, setDue := none }
  | cancels (hdue : p.cancelDue = some p.now) :
      ClockStep p { p with callerCancelled := true, cancelDue := none }
  | passes {next : Instant} (hahead : ∀ t ∈ p.timers, p.now < t) (hnext : next ∈ p.timers)
      (hleast : ∀ t ∈ p.timers, next ≤ t) : ClockStep p { p with now := next }

/-- A step of the race: of one of the parties, or, if none of them is ready, from outside. -/
inductive Step (w : Work α) (p q : Parties α) : Prop where
  | move (h : Move w p q)
  | clock (hquiet : ∀ r, ¬ Move w p r) (h : ClockStep p q)

/-- What is bound to hold at some time, whatever the order of the steps. -/
inductive Inevitable (w : Work α) (P : Parties α → Prop) : Parties α → Prop where
  | now {p : Parties α} (h : P p) : Inevitable w P p
  | later {p : Parties α} (hsome : ∃ q, Step w p q) (hall : ∀ q, Step w p q → Inevitable w P q) :
      Inevitable w P p

variable {w : Work α} {p q : Parties α}

theorem mem_timers {t : Instant} :
    t ∈ p.timers ↔ p.work.timer? = some t ∨ p.setDue = some t ∨ p.cancelDue = some t := by
  simp [Parties.timers]

section Termination

/-- A bound on the number of steps that are left to the parties, and of what can happen to them. -/
def Parties.rank (p : Parties α) : Nat :=
  p.work.rank + p.waiter.rank + p.caller.rank + (p.setDue.toList.length + p.cancelDue.toList.length)

/-- The number of instants to come at which something falls due. -/
def Parties.ahead (p : Parties α) : Nat := p.timers.countP (p.now < ·)

/-- A bound on the number of steps of the race. -/
def Parties.weight (p : Parties α) : Nat := 4 * p.rank + p.ahead

theorem ahead_le (p : Parties α) : p.ahead ≤ 3 := by
  refine List.countP_le_length.trans ?_
  have hwork := p.work.timer?.length_toList_le
  have hset := p.setDue.length_toList_le
  have hcancel := p.cancelDue.length_toList_le
  rw [Parties.timers, List.length_append, List.length_append]
  omega

theorem WorkStep.rank_lt (h : WorkStep w p q) : q.rank < p.rank := by
  have hlt : q.work.rank < p.work.rank := by
    cases h with
    | beginsAndEnds hwork | begins hwork | ends hwork | stops hwork | cleansUp hwork | isClean hwork
    | neverBegins hwork | stopsCleaning hwork =>
      rw [hwork]
      exact Nat.le_of_ble_eq_true rfl
  have hsame : q.rank = q.work.rank + p.waiter.rank + p.caller.rank +
      (p.setDue.toList.length + p.cancelDue.toList.length) := by
    cases h <;> rfl
  rw [hsame, Parties.rank]
  omega

theorem WaiterStep.rank_lt (h : WaiterStep p q) : q.rank < p.rank := by
  have hlt : q.waiter.rank < p.waiter.rank := by
    cases h with
    | notices hwaiter | stops hwaiter =>
      rw [hwaiter]
      exact Nat.le_of_ble_eq_true rfl
  have hsame : q.rank = p.work.rank + q.waiter.rank + p.caller.rank +
      (p.setDue.toList.length + p.cancelDue.toList.length) := by
    cases h <;> rfl
  rw [hsame, Parties.rank]
  omega

theorem CallerStep.rank_lt (h : CallerStep p q) : q.rank < p.rank := by
  have hlt : q.caller.rank < p.caller.rank := by
    cases h with
    | answered hcaller | loses hcaller | interrupted hcaller | interruptedAgain hcaller
    | drained hcaller | drainedBoth hcaller | gaveUp hcaller =>
      rw [hcaller]
      exact Nat.le_of_ble_eq_true rfl
  have hle : q.waiter.rank ≤ p.waiter.rank := by
    cases h with
    | answered | interrupted => exact p.waiter.rank_cancel_le
    | loses | interruptedAgain | drained | drainedBoth | gaveUp => exact le_rfl
  have hsame : q.rank = p.work.rank + q.waiter.rank + q.caller.rank +
      (p.setDue.toList.length + p.cancelDue.toList.length) := by
    cases h <;> rfl
  rw [hsame, Parties.rank]
  omega

theorem Move.rank_lt (h : Move w p q) : q.rank < p.rank := by
  cases h with
  | work h => exact h.rank_lt
  | waiter h => exact h.rank_lt
  | caller h => exact h.rank_lt

theorem weight_lt_of_rank_lt (h : q.rank < p.rank) : q.weight < p.weight := by
  have hahead := ahead_le q
  rw [Parties.weight, Parties.weight]
  omega

theorem ClockStep.weight_lt (h : ClockStep p q) : q.weight < p.weight := by
  cases h with
  | sets hdue | cancels hdue =>
    apply weight_lt_of_rank_lt
    simp [Parties.rank, hdue]
  | @passes next hahead hnext _ =>
    -- before the step all instants are ahead, and after it the next one is no more
    have hall : p.ahead = p.timers.length :=
      List.countP_eq_length.2 fun t ht => decide_eq_true (hahead t ht)
    have hlt : p.timers.countP (next < ·) < p.timers.length := by
      refine lt_of_le_of_ne List.countP_le_length fun heq => ?_
      exact lt_irrefl next (of_decide_eq_true (List.countP_eq_length.1 heq next hnext))
    rw [← hall] at hlt
    exact Nat.add_lt_add_left hlt _

/-- Every step leaves fewer to come. -/
theorem Step.weight_lt (h : Step w p q) : q.weight < p.weight := by
  cases h with
  | move h => exact weight_lt_of_rank_lt h.rank_lt
  | clock _ h => exact h.weight_lt

/-- What holds, or lets the race go on, as long as something else holds, is bound to hold. -/
theorem inevitable_of_invariant {P I : Parties α → Prop} (hstep : ∀ p q, I p → Step w p q → I q)
    (hgoes : ∀ p, I p → P p ∨ ∃ q, Step w p q) (hp : I p) : Inevitable w P p := by
  induction hweight : p.weight using Nat.strong_induction_on generalizing p with
  | _ weight ih =>
    subst hweight
    obtain hnow | hsome := hgoes p hp
    · exact .now hnow
    · exact .later hsome fun q hq => ih q.weight hq.weight_lt (hstep p q hp hq) rfl

theorem of_reaches {I : Parties α → Prop} (hstep : ∀ p q, I p → Step w p q → I q) (hp : I p)
    (h : Relation.ReflTransGen (Step w) p q) : I q := by
  induction h with
  | refl => exact hp
  | tail _ hlast ih => exact hstep _ _ ih hlast

end Termination

section Progress

/-- What is kept in every race: no instant at which something falls due is left behind, nobody waits for
    the signal once the caller has stopped racing, and no call ends before the work. -/
structure Parties.Sound (p : Parties α) : Prop where
  timely : ∀ t ∈ p.timers, p.now ≤ t
  waiter : p.caller = .racing ∨ p.waiter ≠ .waiting
  work : p.caller.isEnded = true → p.work.isDone = true

theorem WorkStep.isDone_eq_false (h : WorkStep w p q) : p.work.isDone = false := by
  cases h with
  | beginsAndEnds hwork | begins hwork | ends hwork | stops hwork | cleansUp hwork | isClean hwork
  | neverBegins hwork | stopsCleaning hwork =>
    rw [hwork]
    rfl

theorem WorkStep.le_timer {t : Instant} (h : WorkStep w p q) (ht : q.work.timer? = some t) :
    p.now ≤ t := by
  cases h with
  | begins => exact Work.le_of_finishAt? ht
  | cleansUp =>
    cases ht
    exact le_add_timeOf p.now w.cleanup
  | beginsAndEnds | ends | stops | isClean | neverBegins | stopsCleaning => cases ht

theorem WorkStep.sound (hp : p.Sound) (h : WorkStep w p q) : q.Sound := by
  have hgoing := h.isDone_eq_false
  obtain ⟨hnow, hset, hcancel, hwaiter, hcaller⟩ : q.now = p.now ∧ q.setDue = p.setDue ∧
      q.cancelDue = p.cancelDue ∧ q.waiter = p.waiter ∧ q.caller = p.caller := by
    cases h <;> exact ⟨rfl, rfl, rfl, rfl, rfl⟩
  refine ⟨fun t ht => ?_, ?_, fun hended => ?_⟩
  · rw [hnow]
    rw [mem_timers, hset, hcancel] at ht
    obtain ht | ht := ht
    · exact h.le_timer ht
    · exact hp.timely t (mem_timers.2 (.inr ht))
  · rw [hcaller, hwaiter]
    exact hp.waiter
  · rw [hcaller] at hended
    rw [hp.work hended] at hgoing
    cases hgoing

theorem WaiterStep.sound (hp : p.Sound) (h : WaiterStep p q) : q.Sound := by
  cases h <;> exact ⟨hp.timely, .inr nofun, hp.work⟩

theorem CallerStep.sound (hp : p.Sound) (h : CallerStep p q) : q.Sound := by
  have htimely : ∀ t ∈ q.timers, q.now ≤ t := by
    cases h <;> exact hp.timely
  cases h with
  | answered _ _ hwork =>
    refine ⟨htimely, .inr p.waiter.cancel_ne_waiting, fun _ => ?_⟩
    rw [hwork]
    rfl
  | loses _ _ _ hwaiter =>
    refine ⟨htimely, .inr ?_, nofun⟩
    rw [hwaiter]
    nofun
  | interrupted => exact ⟨htimely, .inr p.waiter.cancel_ne_waiting, nofun⟩
  | interruptedAgain hcaller =>
    exact ⟨htimely, .inr (hp.waiter.resolve_left (by rw [hcaller]; nofun)), nofun⟩
  | drained hcaller _ hwork | drainedBoth hcaller hwork =>
    refine ⟨htimely, .inr (hp.waiter.resolve_left (by rw [hcaller]; nofun)), fun _ => ?_⟩
    rw [hwork]
    rfl
  | gaveUp hcaller hwork =>
    exact ⟨htimely, .inr (hp.waiter.resolve_left (by rw [hcaller]; nofun)), fun _ => hwork⟩

theorem ClockStep.sound (hp : p.Sound) (h : ClockStep p q) : q.Sound := by
  cases h with
  | sets =>
    refine ⟨fun t ht => hp.timely t ?_, hp.waiter, hp.work⟩
    rw [mem_timers] at ht ⊢
    exact ht.imp_right fun h => .inr (h.resolve_left nofun)
  | cancels =>
    refine ⟨fun t ht => hp.timely t ?_, hp.waiter, hp.work⟩
    rw [mem_timers] at ht ⊢
    exact ht.imp_right fun h => .inl (h.resolve_right nofun)
  | passes _ _ hleast => exact ⟨hleast, hp.waiter, hp.work⟩

theorem Step.sound (hp : p.Sound) (h : Step w p q) : q.Sound := by
  cases h with
  | move h =>
    cases h with
    | work h => exact h.sound hp
    | waiter h => exact h.sound hp
    | caller h => exact h.sound hp
  | clock _ h => exact h.sound hp

/-- Once the work has ended, somebody is ready until the call has ended too. -/
theorem exists_move_of_isDone (hp : p.Sound) (hcaller : p.caller.isEnded = false)
    (hwork : p.work.isDone = true) (w : Work α) : ∃ q, Move w p q := by
  obtain ⟨ending, at_, hdone⟩ : ∃ ending at_, p.work = .done ending at_ := by
    cases hstage : p.work with
    | done ending at_ => exact ⟨ending, at_, rfl⟩
    | fresh | busy | cleaning =>
      rw [hstage] at hwork
      cases hwork
  cases hstage : p.caller with
  | racing =>
    cases hcancelled : p.callerCancelled with
    | false => exact ⟨_, .caller (.answered hstage hcancelled hdone)⟩
    | true => exact ⟨_, .caller (.interrupted hstage hcancelled)⟩
  | drainsWork =>
    cases hcancelled : p.callerCancelled with
    | false => exact ⟨_, .caller (.drained hstage hcancelled hdone)⟩
    | true => exact ⟨_, .caller (.interruptedAgain hstage hcancelled)⟩
  | drainsBoth =>
    cases hwaiter : p.waiter with
    | waiting => exact absurd hwaiter (hp.waiter.resolve_left (by rw [hstage]; nofun))
    | cancelled => exact ⟨_, .waiter (.stops hwaiter)⟩
    | done => exact ⟨_, .caller (.drainedBoth hstage hdone hwaiter)⟩
  | givesUp => exact ⟨_, .caller (.gaveUp hstage hwork)⟩
  | ended =>
    rw [hstage] at hcaller
    cases hcaller

/-- The clock goes on to what falls due next, if nothing else happens. -/
theorem exists_clockStep (htimely : ∀ t ∈ p.timers, p.now ≤ t) (hsome : ∃ t, t ∈ p.timers)
    (hgoing : p.work.timer? ≠ some p.now) : ∃ q, ClockStep p q := by
  obtain ⟨t, ht⟩ := hsome
  obtain ⟨next, hnext, hleast⟩ :=
    p.timers.toFinset.exists_min_image id ⟨t, List.mem_toFinset.2 ht⟩
  simp only [List.mem_toFinset, id] at hnext hleast
  obtain hahead | hnow := (htimely next hnext).lt_or_eq
  · exact ⟨_, .passes (fun t ht => hahead.trans_le (hleast t ht)) hnext hleast⟩
  · rw [← hnow] at hnext
    obtain hwork | hset | hcancel := mem_timers.1 hnext
    · exact absurd hwork hgoing
    · exact ⟨_, .sets hset⟩
    · exact ⟨_, .cancels hcancel⟩

/-- Whether something is still to come while work that never ends is under way and was not told to
    stop. -/
def Parties.Goes (w : Work α) (p : Parties α) : Prop :=
  p.work = .busy none → p.workCancelled = false → (∃ t, t ∈ p.timers) ∨ ∃ q, Move w p q

/-- As long as the call has not ended, the race goes on. -/
theorem exists_step (hp : p.Sound) (hgoes : p.Goes w) (hcaller : p.caller.isEnded = false) :
    ∃ q, Step w p q := by
  by_cases hmove : ∃ q, Move w p q
  · exact hmove.imp fun _ => .move
  have hquiet : ∀ q, ¬ Move w p q := not_exists.1 hmove
  have hclock (hsome : ∃ t, t ∈ p.timers) (hgoing : p.work.timer? ≠ some p.now) :
      ∃ q, Step w p q :=
    (exists_clockStep hp.timely hsome hgoing).imp fun _ => .clock hquiet
  have htimer {stop : Instant} (hstop : p.work.timer? = some stop) : ∃ t, t ∈ p.timers :=
    ⟨stop, mem_timers.2 (.inl hstop)⟩
  cases hwork : p.work with
  | done =>
    refine absurd (exists_move_of_isDone hp hcaller ?_ w) hmove
    rw [hwork]
    rfl
  | fresh =>
    cases hcancelled : p.workCancelled with
    | true => exact absurd (.work (.neverBegins hwork hcancelled)) (hquiet _)
    | false =>
      by_cases hduration : w.duration = .atOnce
      · exact absurd (.work (.beginsAndEnds hwork hcancelled hduration)) (hquiet _)
      · exact absurd (.work (.begins hwork hcancelled hduration)) (hquiet _)
  | busy stop =>
    cases hcancelled : p.workCancelled with
    | true =>
      cases hcleanup : w.cleanup with
      | none => exact absurd (.work (.stops hwork hcancelled hcleanup)) (hquiet _)
      | some _ => exact absurd (.work (.cleansUp hwork hcancelled (by rw [hcleanup]; nofun))) (hquiet _)
    | false =>
      have hsome : ∃ t, t ∈ p.timers := by
        cases stop with
        | none => exact (hgoes hwork hcancelled).resolve_right hmove
        | some stop => exact htimer (by rw [hwork]; rfl)
      refine hclock hsome fun hnow => ?_
      rw [hwork] at hnow
      exact hquiet _ (.work (.ends (hwork.trans (congrArg Task.busy hnow)) hcancelled))
  | cleaning stop =>
    cases hcancelled : p.workCancelled with
    | true => exact absurd (.work (.stopsCleaning hwork hcancelled)) (hquiet _)
    | false =>
      refine hclock (htimer (by rw [hwork]; rfl)) fun hnow => ?_
      rw [hwork] at hnow
      cases hnow
      exact hquiet _ (.work (.isClean hwork hcancelled))

end Progress

end Rejoin.Race
