import Rejoin.Proofs.Timeline.First
import Rejoin.Proofs.Timeline.Parties

/-!
The race comes to what it must come to. If it is known who is first, the race can stand in few ways, and
each of them is left to another one of them, until the call has ended as it is known to end.
-/

namespace Rejoin.Race

variable {α : Type} {w : Work α} {s : Signal} {start : Instant} {cancel : Option Instant}
  {first : Option Interrupt} {running : Bool} {p q : Parties α}

/-- What the caller does when it is interrupted. -/
def Interrupt.drains : Interrupt → Caller α
  | .signal _ => .drainsWork
  | .caller _ => .drainsBoth

section Stands

namespace Parties

/-- The parties at the call, the work not begun. -/
abbrev atCall (s : Signal) (start : Instant) (cancel : Option Instant) : Parties α where
  now := start
  isSet := false
  setDue := s.due
  cancelDue := cancel
  callerCancelled := false
  work := .fresh
  workCancelled := false
  waiter := .waiting
  caller := .racing
  trace := []
  records := []

/-- The parties while the work takes its time and nothing has happened. -/
abbrev atWork (w : Work α) (s : Signal) (start : Instant) (cancel : Option Instant) (now : Instant) :
    Parties α :=
  { atCall s start cancel with
    now
    work := .busy (w.finishAt? start)
    trace := [(.started, start)] }

/-- The work has ended, and the caller does not know yet. -/
abbrev finished (w : Work α) (s : Signal) (start : Instant) (cancel : Option Instant) (stop : Instant)
    (isSet : Bool) (waiter : Waiter) : Parties α :=
  { atCall s start cancel with
    now := stop
    isSet
    work := .done w.ending stop
    waiter
    trace := [(.started, start), (.finished, stop)] }

/-- The signal is set, and the caller does not know yet. -/
abbrev alarmed (w : Work α) (s : Signal) (start : Instant) (cancel : Option Instant) (t : Instant)
    (setDue : Option Instant) (waiter : Waiter) : Parties α :=
  { atWork w s start cancel t with isSet := true, setDue, waiter }

/-- The caller was cancelled, and has not noticed yet. -/
abbrev interrupted (w : Work α) (s : Signal) (start t : Instant) : Parties α :=
  { atWork w s start none t with callerCancelled := true }

/-- The caller has told the work to stop; what becomes of the signal and of its waiter does not matter
    any more. -/
abbrev told (w : Work α) (start : Instant) (i : Interrupt) (isSet : Bool)
    (setDue cancelDue : Option Instant) (waiter : Waiter) : Parties α where
  now := i.at_
  isSet
  setDue
  cancelDue
  callerCancelled := false
  work := .busy (w.finishAt? start)
  workCancelled := true
  waiter
  caller := i.drains
  trace := [(.started, start)]
  records := []

/-- The work cleans up. -/
abbrev cleaning (w : Work α) (start : Instant) (i : Interrupt) (now : Instant) (isSet : Bool)
    (setDue cancelDue : Option Instant) (waiter : Waiter) : Parties α :=
  { told w start i isSet setDue cancelDue waiter with
    now
    work := .cleaning (i.at_ + timeOf w.cleanup)
    workCancelled := false
    trace := [(.started, start), (.cancelled, i.at_)] }

/-- The work has cleaned up, and the caller does not know yet. -/
abbrev clean (w : Work α) (start : Instant) (i : Interrupt) (isSet : Bool)
    (setDue cancelDue : Option Instant) (waiter : Waiter) : Parties α :=
  { told w start i isSet setDue cancelDue waiter with
    now := i.at_ + timeOf w.cleanup
    work := .done w.afterCancel (i.at_ + timeOf w.cleanup)
    workCancelled := false
    trace := interruptedTrace w start i.at_ }

end Parties

/-- How the parties can stand at the call. The work has still to begin, whether it is given as a task or
    not; or it is a task that is under way, and its duration is what is left of it. -/
inductive Initial (w : Work α) (s : Signal) (start : Instant) (cancel : Option Instant)
    (running : Bool) : Parties α → Prop where
  | fresh : Initial w s start cancel running (.atCall s start cancel)
  | begun (hrunning : running = true) (hduration : w.duration ≠ .atOnce)
      (hraises : w.raises ≠ some .atStart) :
      Initial w s start cancel running (.atWork w s start cancel start)

/-- Whether the call has ended in a given way. -/
structure Parties.Agrees (p : Parties α) (a : Awaited α) : Prop where
  caller : p.caller = .ended a.ending a.at_
  work : ∃ ending at_, p.work = .done ending at_ ∧ a.drainedAt = some at_
  trace : p.trace = a.trace
  records : p.records = a.records

/-- The ways in which the race can stand if it is known who is first. -/
inductive Phase (w : Work α) (s : Signal) (start : Instant) (cancel : Option Instant)
    (first : Option Interrupt) : Parties α → Prop where
  | fresh : Phase w s start cancel first (.atCall s start cancel)
  | busy {now : Instant} (hfinish : ∀ e, w.finishAt? start = some e → now ≤ e)
      (hnow : ∀ i, first = some i → now ≤ i.at_) (hraises : w.raises ≠ some .atStart) :
      Phase w s start cancel first (.atWork w s start cancel now)
  | finished {stop : Instant} {isSet : Bool} {waiter : Waiter} (hfirst : first = none)
      (hfinish : w.finishAt? start = some stop) :
      Phase w s start cancel first (.finished w s start cancel stop isSet waiter)
  | alarmed {t : Instant} {setDue : Option Instant} {waiter : Waiter}
      (hfirst : first = some (.signal t)) :
      Phase w s start cancel first (.alarmed w s start cancel t setDue waiter)
  | interrupted {t : Instant} (hfirst : first = some (.caller t)) :
      Phase w s start cancel first (.interrupted w s start t)
  | told {i : Interrupt} {isSet : Bool} {setDue cancelDue : Option Instant} {waiter : Waiter}
      (hfirst : first = some i) (hdue : ∀ c, cancelDue = some c → i.at_ + timeOf w.cleanup < c) :
      Phase w s start cancel first (.told w start i isSet setDue cancelDue waiter)
  | cleaning {i : Interrupt} {now : Instant} {isSet : Bool} {setDue cancelDue : Option Instant}
      {waiter : Waiter} (hfirst : first = some i)
      (hdue : ∀ c, cancelDue = some c → i.at_ + timeOf w.cleanup < c)
      (hcleanup : w.cleanup ≠ none) (hnow : now ≤ i.at_ + timeOf w.cleanup) :
      Phase w s start cancel first (.cleaning w start i now isSet setDue cancelDue waiter)
  | clean {i : Interrupt} {isSet : Bool} {setDue cancelDue : Option Instant} {waiter : Waiter}
      (hfirst : first = some i) :
      Phase w s start cancel first (.clean w start i isSet setDue cancelDue waiter)
  | ended {p : Parties α} {a : Awaited α} (hsettled : settled w s start first = some a)
      (h : p.Agrees a) : Phase w s start cancel first p

end Stands

section Phases

/-- Work that takes its time and was not told to stop can only end. -/
theorem WorkStep.eq_of_busy {stop : Option Instant} (hwork : p.work = .busy stop)
    (hgoing : p.workCancelled = false) (h : WorkStep w p q) :
    stop = some p.now ∧ q = { p with
      isSet := p.isSet || w.raises = some .atEnd
      work := .done w.ending p.now
      trace := p.trace ++ [(.finished, p.now)] } := by
  cases h with
  | ends hnow =>
    rw [hwork] at hnow
    exact ⟨Task.busy.inj hnow, rfl⟩
  | beginsAndEnds hother | begins hother | isClean hother | neverBegins hother
  | stopsCleaning hother =>
    rw [hwork] at hother
    cases hother
  | stops _ hcancelled | cleansUp _ hcancelled =>
    rw [hgoing] at hcancelled
    cases hcancelled

/-- As long as the work has not ended, the caller goes on racing until the signal was noticed or it is
    cancelled itself. -/
theorem CallerStep.eq_of_racing (hcaller : p.caller = .racing) (hwork : p.work.isDone = false)
    (h : CallerStep p q) :
    p.callerCancelled = false ∧ p.waiter = .done ∧
        q = { p with workCancelled := true, caller := .drainsWork } ∨
      p.callerCancelled = true ∧ q = { p with
        callerCancelled := false
        workCancelled := !p.work.isDone
        waiter := p.waiter.cancel
        caller := .drainsBoth } := by
  cases h with
  | loses _ hgoing _ hwaiter => exact .inl ⟨hgoing, hwaiter, rfl⟩
  | interrupted _ hcancelled => exact .inr ⟨hcancelled, rfl⟩
  | answered _ _ hdone =>
    rw [hdone] at hwork
    cases hwork
  | interruptedAgain hother | drained hother | drainedBoth hother | gaveUp hother =>
    rw [hcaller] at hother
    cases hother

/-- While the work is told to stop or cleans up, the caller waits. -/
theorem CallerStep.false_of_drains {i : Interrupt} (hcaller : p.caller = i.drains)
    (hgoing : p.callerCancelled = false) (hwork : p.work.isDone = false) (h : CallerStep p q) :
    False := by
  cases h with
  | answered _ _ hdone | drained _ _ hdone | drainedBoth _ hdone =>
    rw [hdone] at hwork
    cases hwork
  | loses hracing =>
    rw [hcaller] at hracing
    cases i <;> cases hracing
  | interrupted _ hcancelled | interruptedAgain _ hcancelled =>
    rw [hgoing] at hcancelled
    cases hcancelled
  | gaveUp _ hdone =>
    rw [hwork] at hdone
    cases hdone

/-- Before the signal is set nobody stops waiting for it. -/
theorem WaiterStep.false_of_unset (hwaiter : p.waiter = .waiting) (hunset : p.isSet = false)
    (h : WaiterStep p q) : False := by
  cases h with
  | notices _ hset =>
    rw [hunset] at hset
    cases hset
  | stops hcancelled =>
    rw [hwaiter] at hcancelled
    cases hcancelled

theorem Phase.of_fresh (hfirst : First w s start cancel first)
    (h : Step w (.atCall s start cancel) q) : Phase w s start cancel first q := by
  cases h with
  | move h =>
    cases h with
    | work h =>
      cases h with
      | beginsAndEnds _ _ hduration =>
        have hfinish : w.finishAt? start = some start := Work.finishAt?_of_atOnce hduration
        have hnone : first = none := by
          cases first with
          | none => rfl
          | some i =>
            obtain ⟨hstart, hlt⟩ := hfirst.le_and_lt
            exact absurd hstart (not_le.2 (hlt start hfinish))
        exact .finished hnone hfinish
      | begins _ _ hduration =>
        -- work that takes its time and sets the signal as it starts is interrupted at once
        by_cases hraises : w.raises = some .atStart
        · have halarmed : first = some (.signal start) := by
            cases hfirst with
            | work _ hstart => exact absurd (hstart hraises) hduration
            | signal hsignal =>
              rw [if_pos hraises] at hsignal
              rw [hsignal]
            | caller _ _ _ hnot => exact absurd hraises hnot
          dsimp only
          rw [decide_eq_true hraises]
          exact .alarmed halarmed
        · dsimp only
          rw [decide_eq_false hraises]
          refine .busy (fun e he => Work.le_of_finishAt? he) ?_ hraises
          rintro i rfl
          exact hfirst.le_and_lt.1
      | ends hwork | stops hwork | cleansUp hwork | isClean hwork | stopsCleaning hwork => cases hwork
      | neverBegins _ hcancelled => cases hcancelled
    | waiter h => exact (h.false_of_unset rfl rfl).elim
    | caller h =>
      obtain ⟨_, hwaiter, _⟩ | ⟨hcancelled, _⟩ := h.eq_of_racing rfl rfl
      · cases hwaiter
      · cases hcancelled
  | clock hquiet _ =>
    by_cases hduration : w.duration = .atOnce
    · exact absurd (.work (.beginsAndEnds rfl rfl hduration)) (hquiet _)
    · exact absurd (.work (.begins rfl rfl hduration)) (hquiet _)

theorem Phase.of_busy {now : Instant} (hfirst : First w s start cancel first)
    (hfinish : ∀ e, w.finishAt? start = some e → now ≤ e)
    (hnow : ∀ i, first = some i → now ≤ i.at_) (hraises : w.raises ≠ some .atStart)
    (h : Step w (.atWork w s start cancel now) q) : Phase w s start cancel first q := by
  cases h with
  | move h =>
    cases h with
    | work h =>
      obtain ⟨hstop, rfl⟩ := h.eq_of_busy rfl rfl
      refine .finished ?_ hstop
      cases first with
      | none => rfl
      | some i => exact absurd (hfirst.le_and_lt.2 now hstop) (not_lt.2 (hnow i rfl))
    | waiter h => exact (h.false_of_unset rfl rfl).elim
    | caller h =>
      obtain ⟨_, hwaiter, _⟩ | ⟨hcancelled, _⟩ := h.eq_of_racing rfl rfl
      · cases hwaiter
      · cases hcancelled
  | clock _ h =>
    -- of what falls due now only that can be which comes first
    cases h with
    | sets hdue =>
      cases hfirst with
      | work hstop _ hsignal => exact absurd (hsignal now hdue) (not_lt.2 (hfinish _ hstop))
      | signal hsignal =>
        rw [if_neg hraises, show s.due = some now from hdue] at hsignal
        cases hsignal.1
        exact .alarmed rfl
      | @caller t _ _ _ _ hsignal =>
        have hlate := hsignal now hdue
        have hle := hnow _ rfl
        exact absurd hlate (not_lt.2 (hle.trans (le_add_timeOf _ w.cleanup)))
    | cancels hdue =>
      cases hfirst with
      | work hstop _ _ hcaller => exact absurd (hcaller now hdue) (not_lt.2 (hfinish _ hstop))
      | signal _ _ hcaller =>
        have hlate := hcaller now hdue
        have hle := hnow _ rfl
        exact absurd hlate (not_lt.2 (hle.trans (le_add_timeOf _ w.cleanup)))
      | caller hcaller =>
        rw [show cancel = some now from hdue] at hcaller
        cases hcaller
        exact .interrupted rfl
    | passes _ _ hleast =>
      simp only [mem_timers] at hleast
      refine .busy (fun e he => hleast e (.inl he)) ?_ hraises
      rintro i rfl
      cases hfirst with
      | signal hsignal =>
        rw [if_neg hraises] at hsignal
        exact hleast _ (.inr (.inl hsignal.1))
      | caller hcaller => exact hleast _ (.inr (.inr hcaller))

theorem Phase.of_finished {stop : Instant} {isSet : Bool} {waiter : Waiter} (hfirst : first = none)
    (hfinish : w.finishAt? start = some stop)
    (h : Step w (.finished w s start cancel stop isSet waiter) q) :
    Phase w s start cancel first q := by
  cases h with
  | move h =>
    cases h with
    | work h => cases h.isDone_eq_false
    | waiter h => cases h <;> exact .finished hfirst hfinish
    | caller h =>
      cases h with
      | answered _ _ hwork =>
        cases hwork
        subst hfirst
        exact .ended (answered?_eq_some_iff.2 ⟨stop, hfinish, rfl⟩) ⟨rfl, ⟨_, _, rfl, rfl⟩, rfl, rfl⟩
      | loses _ _ hwork => cases hwork
      | interrupted _ hcancelled => cases hcancelled
      | interruptedAgain hcaller | drained hcaller | drainedBoth hcaller | gaveUp hcaller =>
        cases hcaller
  | clock hquiet _ => exact absurd (.caller (.answered rfl rfl rfl)) (hquiet _)

theorem Phase.of_alarmed {t : Instant} {setDue : Option Instant} {waiter : Waiter}
    (hfirst : First w s start cancel (some (.signal t)))
    (h : Step w (.alarmed w s start cancel t setDue waiter) q) :
    Phase w s start cancel (some (.signal t)) q := by
  cases h with
  | move h =>
    cases h with
    | work h =>
      obtain ⟨hstop, _⟩ := h.eq_of_busy rfl rfl
      exact absurd (hfirst.le_and_lt.2 t hstop) (lt_irrefl t)
    | waiter h => cases h <;> exact .alarmed rfl
    | caller h =>
      obtain ⟨_, _, rfl⟩ | ⟨hcancelled, _⟩ := h.eq_of_racing rfl rfl
      · cases hfirst with
        | signal _ _ hcaller => exact .told rfl hcaller
      · cases hcancelled
  | clock hquiet _ =>
    cases waiter with
    | waiting => exact absurd (.waiter (.notices rfl rfl)) (hquiet _)
    | cancelled => exact absurd (.waiter (.stops rfl)) (hquiet _)
    | done => exact absurd (.caller (.loses rfl rfl rfl rfl)) (hquiet _)

theorem Phase.of_interrupted {t : Instant} (hfirst : First w s start cancel (some (.caller t)))
    (h : Step w (.interrupted w s start t) q) : Phase w s start cancel (some (.caller t)) q := by
  cases h with
  | move h =>
    cases h with
    | work h =>
      obtain ⟨hstop, _⟩ := h.eq_of_busy rfl rfl
      exact absurd (hfirst.le_and_lt.2 t hstop) (lt_irrefl t)
    | waiter h => exact (h.false_of_unset rfl rfl).elim
    | caller h =>
      obtain ⟨hgoing, _⟩ | ⟨_, rfl⟩ := h.eq_of_racing rfl rfl
      · cases hgoing
      · exact .told rfl nofun
  | clock hquiet _ => exact absurd (.caller (.interrupted rfl rfl)) (hquiet _)

theorem Phase.of_told {i : Interrupt} {isSet : Bool} {setDue cancelDue : Option Instant}
    {waiter : Waiter} (hdue : ∀ c, cancelDue = some c → i.at_ + timeOf w.cleanup < c)
    (h : Step w (.told w start i isSet setDue cancelDue waiter) q) :
    Phase w s start cancel (some i) q := by
  cases h with
  | move h =>
    cases h with
    | work h =>
      cases h with
      | stops _ _ hcleanup =>
        have hclean : Phase w s start cancel (some i)
            (.clean w start i isSet setDue cancelDue waiter) := .clean rfl
        unfold Parties.clean at hclean
        rw [interruptedTrace, hcleanup, show timeOf none = 0 from rfl, add_zero] at hclean
        exact hclean
      | cleansUp _ _ hcleanup =>
        exact .cleaning rfl hdue hcleanup (le_add_timeOf i.at_ w.cleanup)
      | ends _ hgoing => cases hgoing
      | beginsAndEnds hwork | begins hwork | isClean hwork | neverBegins hwork
      | stopsCleaning hwork => cases hwork
    | waiter h => cases h <;> exact .told rfl hdue
    | caller h => exact (h.false_of_drains rfl rfl rfl).elim
  | clock hquiet _ =>
    cases hcleanup : w.cleanup with
    | none => exact absurd (.work (.stops rfl rfl hcleanup)) (hquiet _)
    | some _ => exact absurd (.work (.cleansUp rfl rfl (by rw [hcleanup]; nofun))) (hquiet _)

theorem Phase.of_cleaning {i : Interrupt} {now : Instant} {isSet : Bool}
    {setDue cancelDue : Option Instant} {waiter : Waiter}
    (hdue : ∀ c, cancelDue = some c → i.at_ + timeOf w.cleanup < c) (hcleanup : w.cleanup ≠ none)
    (hnow : now ≤ i.at_ + timeOf w.cleanup)
    (h : Step w (.cleaning w start i now isSet setDue cancelDue waiter) q) :
    Phase w s start cancel (some i) q := by
  cases h with
  | move h =>
    cases h with
    | work h =>
      cases h with
      | isClean hwork =>
        obtain rfl : i.at_ + timeOf w.cleanup = now := Task.cleaning.inj hwork
        have htrace : interruptedTrace w start i.at_ = [(.started, start), (.cancelled, i.at_)] ++
            [(.cleaned, i.at_ + timeOf w.cleanup)] := by
          rw [interruptedTrace, if_pos (Option.isSome_iff_ne_none.2 hcleanup)]
        dsimp only
        rw [← htrace]
        exact .clean rfl
      | beginsAndEnds hwork | begins hwork | ends hwork | stops hwork | cleansUp hwork
      | neverBegins hwork => cases hwork
      | stopsCleaning _ hcancelled => cases hcancelled
    | waiter h => cases h <;> exact .cleaning rfl hdue hcleanup hnow
    | caller h => exact (h.false_of_drains rfl rfl rfl).elim
  | clock _ h =>
    cases h with
    | sets => exact .cleaning rfl hdue hcleanup hnow
    | cancels hnext => exact absurd (hdue now hnext) (not_lt.2 hnow)
    | passes _ _ hleast => exact .cleaning rfl hdue hcleanup (hleast _ (mem_timers.2 (.inl rfl)))

theorem Phase.of_clean {i : Interrupt} {isSet : Bool} {setDue cancelDue : Option Instant}
    {waiter : Waiter} (hp : (Parties.clean w start i isSet setDue cancelDue waiter).Sound)
    (h : Step w (.clean w start i isSet setDue cancelDue waiter) q) :
    Phase w s start cancel (some i) q := by
  cases h with
  | move h =>
    cases h with
    | work h => cases h.isDone_eq_false
    | waiter h => cases h <;> exact .clean rfl
    | caller h =>
      cases i with
      | signal t =>
        cases h with
        | drained _ _ hwork =>
          cases hwork
          exact .ended rfl ⟨rfl, ⟨_, _, rfl, rfl⟩, rfl, rfl⟩
        | answered hcaller | loses hcaller | interrupted hcaller | drainedBoth hcaller
        | gaveUp hcaller => cases hcaller
        | interruptedAgain _ hcancelled => cases hcancelled
      | caller t =>
        cases h with
        | drainedBoth _ hwork =>
          cases hwork
          exact .ended rfl ⟨rfl, ⟨_, _, rfl, rfl⟩, rfl, rfl⟩
        | answered hcaller | loses hcaller | interrupted hcaller | drained hcaller
        | interruptedAgain hcaller | gaveUp hcaller => cases hcaller
  | clock hquiet _ =>
    have hgoing : (i.drains : Caller α).isEnded = false := by
      cases i <;> rfl
    obtain ⟨r, hr⟩ := exists_move_of_isDone hp hgoing rfl w
    exact absurd hr (hquiet r)

/-- A call that has ended stays as it has ended. -/
theorem Parties.Agrees.step {a : Awaited α} (hp : p.Agrees a) (h : Step w p q) : q.Agrees a := by
  obtain ⟨hcaller, ⟨ending, at_, hwork, hdrained⟩, htrace, hrecords⟩ := hp
  cases h with
  | move h =>
    cases h with
    | work h =>
      have hgoing := h.isDone_eq_false
      rw [hwork] at hgoing
      cases hgoing
    | waiter h => cases h <;> exact ⟨hcaller, ⟨ending, at_, hwork, hdrained⟩, htrace, hrecords⟩
    | caller h =>
      cases h with
      | answered hracing | loses hracing | interrupted hracing | interruptedAgain hracing
      | drained hracing | drainedBoth hracing | gaveUp hracing =>
        rw [hcaller] at hracing
        cases hracing
  | clock _ h => cases h <;> exact ⟨hcaller, ⟨ending, at_, hwork, hdrained⟩, htrace, hrecords⟩

theorem Phase.step (hfirst : First w s start cancel first) (hsound : p.Sound)
    (hp : Phase w s start cancel first p) (h : Step w p q) : Phase w s start cancel first q := by
  cases hp with
  | fresh => exact .of_fresh hfirst h
  | busy hfinish hnow hraises => exact .of_busy hfirst hfinish hnow hraises h
  | finished hnone hfinish => exact .of_finished hnone hfinish h
  | alarmed hsome =>
    subst hsome
    exact .of_alarmed hfirst h
  | interrupted hsome =>
    subst hsome
    exact .of_interrupted hfirst h
  | told hsome hdue =>
    subst hsome
    exact .of_told hdue h
  | cleaning hsome hdue hcleanup hnow =>
    subst hsome
    exact .of_cleaning hdue hcleanup hnow h
  | clean hsome =>
    subst hsome
    exact .of_clean hsound h
  | ended hsettled hended => exact .ended hsettled (hended.step h)

end Phases

section Races

theorem Initial.sound (hunset : s.isRaised start = false) (hfirst : First w s start cancel first)
    (h : Initial w s start cancel running p) : p.Sound := by
  have hsignal := (Signal.isRaised_eq_false_iff.1 hunset).2
  cases h with
  | fresh =>
    refine ⟨fun t ht => ?_, .inl rfl, nofun⟩
    obtain hwork | hset | hcancel := mem_timers.1 ht
    · cases hwork
    · exact hsignal t hset
    · exact hfirst.le_cancel hcancel
  | begun =>
    refine ⟨fun t ht => ?_, .inl rfl, nofun⟩
    obtain hwork | hset | hcancel := mem_timers.1 ht
    · exact Work.le_of_finishAt? hwork
    · exact hsignal t hset
    · exact hfirst.le_cancel hcancel

theorem Initial.phase (hfirst : First w s start cancel first)
    (h : Initial w s start cancel running p) : Phase w s start cancel first p := by
  cases h with
  | fresh => exact .fresh
  | begun _ _ hraises =>
    refine .busy (fun e he => Work.le_of_finishAt? he) ?_ hraises
    rintro i rfl
    exact hfirst.le_and_lt.1

/-- While work that never ends is under way, whoever is first is still to come, or was noticed. -/
theorem Phase.goes (hfirst : First w s start cancel first) (hp : Phase w s start cancel first p) :
    p.Goes w := by
  intro hwork hgoing
  cases hp with
  | busy _ _ hraises =>
    refine .inl ?_
    cases hfirst with
    | work hfinish => exact ⟨_, mem_timers.2 (.inl hfinish)⟩
    | signal hsignal =>
      rw [if_neg hraises] at hsignal
      exact ⟨_, mem_timers.2 (.inr (.inl hsignal.1))⟩
    | caller hcaller => exact ⟨_, mem_timers.2 (.inr (.inr hcaller))⟩
  | @alarmed t setDue waiter =>
    refine .inr ?_
    cases waiter with
    | waiting => exact ⟨_, .waiter (.notices rfl rfl)⟩
    | cancelled => exact ⟨_, .waiter (.stops rfl)⟩
    | done => exact ⟨_, .caller (.loses rfl rfl rfl rfl)⟩
  | interrupted => exact .inr ⟨_, .caller (.interrupted rfl rfl)⟩
  | fresh | finished | cleaning | clean => cases hwork
  | told => cases hgoing
  | ended _ hended =>
    obtain ⟨_, _, hdone, _⟩ := hended.work
    rw [hwork] at hdone
    cases hdone

/-- Whatever happens and in whatever order, the call ends. -/
theorem inevitable_isEnded (hfirst : First w s start cancel first) (hsound : p.Sound)
    (hp : Phase w s start cancel first p) : Inevitable w (fun q => q.caller.isEnded = true) p := by
  refine inevitable_of_invariant (I := fun p => p.Sound ∧ Phase w s start cancel first p)
    (fun p q hp h => ⟨h.sound hp.1, hp.2.step hfirst hp.1 h⟩) (fun p hp => ?_) ⟨hsound, hp⟩
  cases hcaller : p.caller.isEnded with
  | true => exact .inl rfl
  | false => exact .inr (exists_step hp.1 (hp.2.goes hfirst) hcaller)

theorem Phase.agrees (h : Phase w s start cancel first p) (hended : p.caller.isEnded = true) :
    ∃ a, settled w s start first = some a ∧ p.Agrees a := by
  cases h with
  | ended hsettled h => exact ⟨_, hsettled, h⟩
  | fresh | busy | finished | alarmed | interrupted => cases hended
  | @told i | @cleaning i | @clean i => cases i <;> cases hended

/-- A wait for work with a signal that is not set comes to what it must come to. If the work ends before
the signal is set and before the caller is cancelled, or in the step in which it sets the signal itself,
its ending is that of the call, at once. If the signal is set before, or the caller is cancelled, the
call ends so, at the instant at which the work has cleaned up, and however the work ends then. In every
race of the parties, in whatever order they take their steps, the call ends, it ends in this way, and
when it has ended the work has ended and nobody waits for the signal. -/
theorem await_settles (hunset : s.isRaised start = false) (hfirst : First w s start cancel first)
    (running : Bool) :
    ∃ a, await w start (some s) running cancel = some a ∧ settled w s start first = some a ∧
    ∀ p, Initial w s start cancel running p →
      Inevitable w (fun q => q.caller.isEnded = true) p ∧
      ∀ q, Relation.ReflTransGen (Step w) p q → q.caller.isEnded = true →
        q.Agrees a ∧ q.work.isDone = true ∧ q.waiter ≠ .waiting := by
  obtain ⟨a, ha⟩ := hfirst.exists_settled
  refine ⟨a, (await_eq_settled hunset hfirst running).trans ha, ha, fun p hp => ?_⟩
  have hsound := hp.sound hunset hfirst
  have hphase := hp.phase hfirst
  refine ⟨inevitable_isEnded hfirst hsound hphase, fun q hq hended => ?_⟩
  have hstep (p q : Parties α) (hp : p.Sound ∧ Phase w s start cancel first p) (h : Step w p q) :
      q.Sound ∧ Phase w s start cancel first q := ⟨h.sound hp.1, hp.2.step hfirst hp.1 h⟩
  obtain ⟨hsound, hphase⟩ := of_reaches hstep ⟨hsound, hphase⟩ hq
  obtain ⟨a', ha', hagrees⟩ := hphase.agrees hended
  rw [ha] at ha'
  cases ha'
  refine ⟨hagrees, hsound.work hended, hsound.waiter.resolve_left fun hracing => ?_⟩
  rw [hracing] at hended
  cases hended

/-- Work that takes three seconds and cleans up for one, with a value after all. It ends by itself if the
signal is due long after; it is interrupted if the work sets the signal as it starts, or, even if it
would never end, when the signal is due after one second; and if the caller is cancelled after two
seconds, every race that has begun so ends after three. -/
theorem await_settles_each_way :
    let w : Work Nat := ⟨none, .seconds 3, .value 7, some 1, .value 8⟩
    let setting : Work Nat := { w with raises := some .atStart }
    let endless : Work Nat := { w with duration := .endless }
    let cancelled : Ending Nat := cancelledEnding "Continuation cancelled while awaiting response"
    (await w 0 (some ⟨false, some 9⟩) false none).map (fun a => (a.ending, a.at_)) =
        some (.value 7, 3) ∧
      (await endless 0 (some ⟨false, some 1⟩) true (some 9)).map (fun a => (a.ending, a.at_)) =
        some (cancelled, 2) ∧
      (await setting 0 (some ⟨false, none⟩) false none).map (fun a => (a.ending, a.at_)) =
        some (cancelled, 1) ∧
      ∀ q, Relation.ReflTransGen (Step w)
          (.atWork w ⟨false, none⟩ 0 (some 2) 0) q →
        q.caller.isEnded = true → q.caller = .ended .abandoned 3 ∧ q.work.isDone = true := by
  intro w setting endless cancelled
  have hstop : w.finishAt? 0 = some 3 := by decide +kernel
  obtain ⟨alone, halone, hsettled, _⟩ := @await_settles _ w ⟨false, some 9⟩ 0 none none rfl
    (.work hstop nofun (by rintro t ⟨⟩; decide +kernel) nofun) false
  cases hsettled
  obtain ⟨told, htold, hsettled, _⟩ := @await_settles _ endless ⟨false, some 1⟩ 0 (some 9)
    (some (.signal 1)) rfl
    (.signal ⟨rfl, by decide +kernel⟩ nofun (by rintro c ⟨⟩; decide +kernel)) true
  cases hsettled
  obtain ⟨telling, htelling, hsettled, _⟩ := @await_settles _ setting ⟨false, none⟩ 0 none
    (some (.signal 0)) rfl (.signal rfl (by rintro e ⟨⟩; decide +kernel) nofun) false
  cases hsettled
  obtain ⟨called, _, hsettled, hcaller⟩ := @await_settles _ w ⟨false, none⟩ 0 (some 2)
    (some (.caller 2)) rfl
    (.caller rfl (by decide +kernel) (by rintro e ⟨⟩; decide +kernel) nofun nofun) true
  cases hsettled
  rw [halone, htold, htelling]
  refine ⟨?_, ?_, ?_, fun q hq hended => ?_⟩
  · exact congrArg (fun e => some (Ending.value 7, e)) (by decide +kernel)
  · exact congrArg (fun e => some (cancelled, e)) (by decide +kernel)
  · exact congrArg (fun e => some (cancelled, e)) (by decide +kernel)
  · obtain ⟨hagrees, hdone, _⟩ := (hcaller _ (.begun rfl nofun nofun)).2 q hq hended
    have hclean : (2 : Instant) + timeOf w.cleanup = 3 := by decide +kernel
    exact ⟨hagrees.caller.trans (congrArg (Caller.ended .abandoned) hclean), hdone⟩

end Races

end Rejoin.Race
