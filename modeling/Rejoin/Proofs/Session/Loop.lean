import Rejoin.Proofs.Session.Alone
import Rejoin.Proofs.Session.Together

/-!
Turns on one loop. The turns share the clock and the detector, and nothing else. Whatever is ready at an
instant takes its steps in any order; only when no turn has a step at this instant does the clock go on,
to the next instant at which one has. As long as the detector looks at each response by itself, the
order does not matter: every turn ends, and it ends as it does alone.
-/

namespace Rejoin.Session

open Turn

/-- A turn under way: when it began, and what it is at. -/
structure Running where
  turn : Turn
  began : Instant
  activity : Activity

/-- The loop: the clock, the number of judgements that were made, and the turns. -/
structure Loop where
  now : Instant
  judged : Nat
  running : List Running

namespace Running

/-- What a turn is, whatever it is at. -/
def run (e : Running) : Turn × Instant := (e.turn, e.began)

def isEnded (e : Running) : Bool := e.activity.isEnded

variable [Json.Limits]

/-- Whether a turn has a step at an instant. -/
def CanAct (d : Detector) (judged : Nat) (at_ : Instant) (e : Running) : Prop :=
  ∃ b, Acts e.turn d judged e.activity b ∧ b.instant = at_

/-- The report that the turn makes when it runs alone. -/
def alone (d : Detector) (e : Running) : Report := e.turn.runFrom d 0 e.began

end Running

namespace Loop

/-- The loop at an instant at which no turn has begun. -/
def start (now : Instant) (runs : List (Turn × Instant)) : Loop :=
  ⟨now, 0, runs.map fun (t, began) => ⟨t, began, .judging (.start t began)⟩⟩

variable [Json.Limits]

/-- A step of the loop: of a turn that is ready, or of the clock, if no turn is. -/
inductive Step (d : Detector) (l : Loop) : Loop → Prop where
  | acts {before after : List Running} {e : Running} {b : Activity}
      (hrunning : l.running = before ++ e :: after)
      (h : Acts e.turn d l.judged e.activity b) (hnow : b.instant = l.now) :
      Step d l
        ⟨l.now, l.judged + e.activity.judgements, before ++ { e with activity := b } :: after⟩
  | passes {next : Instant} (hquiet : ∀ e ∈ l.running, ¬ e.CanAct d l.judged l.now)
      (hnext : ∃ e ∈ l.running, e.CanAct d l.judged next)
      (hleast : ∀ e ∈ l.running, ∀ at_, e.CanAct d l.judged at_ → next ≤ at_) :
      Step d l { l with now := next }

/-- Whether every turn has ended. -/
def HasEnded (l : Loop) : Prop := ∀ e ∈ l.running, e.isEnded = true

/-- What is bound to hold at some time, whatever the order of the steps. -/
inductive Inevitable (d : Detector) (P : Loop → Prop) : Loop → Prop where
  | now {l : Loop} (h : P l) : Inevitable d P l
  | later {l : Loop} (hsome : ∃ next, Step d l next)
      (hall : ∀ next, Step d l next → Inevitable d P next) : Inevitable d P l

/-- A bound on the steps that are left to the turns. -/
def weight (l : Loop) : Nat := (l.running.map fun e => e.activity.weight e.turn).sum

end Loop

variable {d : Detector} {e : Running} {l next : Loop} {judged : Nat}

section Steps

variable [Json.Limits]

/-- What is kept of a turn on the loop: it is left to end as it does alone. -/
structure Running.Fits (d : Detector) (e : Running) : Prop where
  untied : ∀ signal, e.turn.signal = some signal →
    e.turn.Untied (signal.shiftedBy e.began) (e.alone d).state.requests
  sound : e.activity.Sound e.turn e.began
  endsAlone : e.activity.EndsAlone e.turn d (e.alone d)

/-- What is kept on the loop: every turn fits, and none has a step that lies in the past. -/
structure Loop.Sound (d : Detector) (l : Loop) : Prop where
  fits : ∀ e ∈ l.running, e.Fits d
  timely : ∀ e ∈ l.running, ∀ at_, e.CanAct d l.judged at_ → l.now ≤ at_

/-- How many judgements were made does not matter to a detector that does not count. -/
theorem Running.CanAct.of_isStateless {at_ : Instant} (hd : d.IsStateless)
    (h : e.CanAct d judged at_) (m : Nat) : e.CanAct d m at_ := by
  obtain ⟨b, hacts, hat⟩ := h
  refine ⟨b, ?_, hat⟩
  generalize e.activity = a at hacts
  cases hacts with
  | judges s =>
    rw [hd judged m]
    exact .judges s
  | wakes hbefore => exact .wakes hbefore
  | interrupted hsignal hdue hbefore => exact .interrupted hsignal hdue hbefore
  | answers hanswer => exact .answers hanswer
  | races h hgoing => exact .races h hgoing
  | settles h hended => exact .settles h hended

theorem Running.Fits.acts (hd : d.IsStateless) (he : e.Fits d) {b : Activity}
    (h : Acts e.turn d judged e.activity b) : Running.Fits d { e with activity := b } := by
  have halone := h.endsAlone hd he.untied he.sound he.endsAlone
  exact ⟨he.untied, h.sound he.untied he.sound halone, halone⟩

theorem Loop.Step.sound (hd : d.IsStateless) (hl : l.Sound d) (h : Loop.Step d l next) :
    next.Sound d := by
  obtain ⟨now, judged, running⟩ := l
  cases h with
  | @acts before after e b hrunning h hnow =>
    obtain rfl : running = before ++ e :: after := hrunning
    obtain ⟨hfits, htimely⟩ := hl
    rw [List.forall_mem_append, List.forall_mem_cons] at hfits htimely
    obtain ⟨hbefore, he, hafter⟩ := hfits
    obtain ⟨htimelyBefore, _, htimelyAfter⟩ := htimely
    have hb := he.acts hd h
    refine ⟨?_, ?_⟩
    · rw [List.forall_mem_append, List.forall_mem_cons]
      exact ⟨hbefore, hb, hafter⟩
    · rw [List.forall_mem_append, List.forall_mem_cons]
      refine ⟨fun e he at_ hacts => ?_, fun at_ hacts => ?_, fun e he at_ hacts => ?_⟩
      · exact htimelyBefore e he at_ (hacts.of_isStateless hd judged)
      · obtain ⟨c, hc, rfl⟩ := hacts
        exact hnow.ge.trans (hc.instant_le hb.sound)
      · exact htimelyAfter e he at_ (hacts.of_isStateless hd judged)
  | passes _ _ hleast => exact ⟨hl.fits, hleast⟩

theorem Loop.start_sound {now : Instant} {runs : List (Turn × Instant)}
    (hbegan : ∀ run ∈ runs, now ≤ run.2)
    (huntied : ∀ run ∈ runs, ∀ signal, run.1.signal = some signal →
      run.1.Untied (signal.shiftedBy run.2) (run.1.runFrom d 0 run.2).state.requests) :
    (Loop.start now runs).Sound d := by
  refine ⟨fun e he => ?_, fun e he at_ hacts => ?_⟩
  · obtain ⟨⟨t, began⟩, hrun, rfl⟩ := List.mem_map.1 he
    exact ⟨huntied _ hrun, State.OnWay.start t began, _, ends_runFrom t d 0 began, rfl⟩
  · obtain ⟨⟨t, began⟩, hrun, rfl⟩ := List.mem_map.1 he
    obtain ⟨b, h, rfl⟩ := hacts
    have hway : (Activity.judging (.start t began)).Sound t began := State.OnWay.start t began
    exact (hbegan _ hrun).trans (h.instant_le hway)

/-- The turns stay the turns that they are. -/
theorem Loop.Step.map_run (h : Loop.Step d l next) :
    next.running.map Running.run = l.running.map Running.run := by
  cases h with
  | acts hrunning =>
    rw [hrunning, List.map_append, List.map_append]
    rfl
  | passes => rfl

theorem Loop.sound_of_reaches (hd : d.IsStateless) (hl : l.Sound d)
    (h : Relation.ReflTransGen (Loop.Step d) l next) :
    next.Sound d ∧ next.running.map Running.run = l.running.map Running.run := by
  induction h with
  | refl => exact ⟨hl, rfl⟩
  | tail _ hlast ih => exact ⟨hlast.sound hd ih.1, hlast.map_run.trans ih.2⟩

/-- A turn that has ended has ended as it does alone, but for the signal that it holds then. -/
theorem Running.Fits.report_eq (he : e.Fits d) {r : Report} (hended : e.activity = .ended r) :
    r.withoutSignal = (e.alone d).withoutSignal := by
  obtain ⟨last, hends, hsame⟩ := he.endsAlone
  rw [hended] at hends
  cases hends
  exact hsame

end Steps

section Termination

variable [Json.Limits]

/-- A step of a turn leaves fewer to come. -/
theorem weight_acts_lt {before after : List Running} {b : Activity} (he : e.Fits d)
    (h : Acts e.turn d judged e.activity b) (hrunning : l.running = before ++ e :: after)
    (now : Instant) (m : Nat) :
    (Loop.mk now m (before ++ { e with activity := b } :: after)).weight < l.weight := by
  have hlt := h.weight_lt he.sound
  simp only [Loop.weight, hrunning, List.map_append, List.map_cons, List.sum_append, List.sum_cons]
  omega

/-- The next instant at which a turn has a step. -/
theorem exists_next (hl : l.Sound d) (hsome : ∃ e ∈ l.running, ∃ at_, e.CanAct d l.judged at_) :
    ∃ next, (∃ e ∈ l.running, e.CanAct d l.judged next) ∧
      ∀ e ∈ l.running, ∀ at_, e.CanAct d l.judged at_ → next ≤ at_ := by
  classical
  have hmem (e : Running) (he : e ∈ l.running) (at_ : Instant) (hacts : e.CanAct d l.judged at_) :
      at_ ∈ (l.running.flatMap (·.activity.alarms)).toFinset.filter
        fun at_ => ∃ e ∈ l.running, e.CanAct d l.judged at_ := by
    refine Finset.mem_filter.2 ⟨List.mem_toFinset.2 (List.mem_flatMap.2 ⟨e, he, ?_⟩), e, he, hacts⟩
    obtain ⟨b, h, rfl⟩ := hacts
    exact h.mem_alarms (hl.fits e he).sound
  obtain ⟨e, he, at_, hacts⟩ := hsome
  obtain ⟨next, hnext, hleast⟩ := Finset.exists_min_image _ id ⟨at_, hmem e he at_ hacts⟩
  exact ⟨next, (Finset.mem_filter.1 hnext).2,
    fun e he at_ hacts => hleast at_ (hmem e he at_ hacts)⟩

/-- Where a turn is ready the clock waits, and every step leaves fewer to come. -/
theorem Loop.Inevitable.of_ready {P : Loop → Prop} (hd : d.IsStateless) (hl : l.Sound d)
    (hready : ∃ e ∈ l.running, e.CanAct d l.judged l.now)
    (hless : ∀ next : Loop, next.Sound d → next.weight < l.weight → Loop.Inevitable d P next) :
    Loop.Inevitable d P l := by
  obtain ⟨e, he, hacts⟩ := hready
  refine .later ?_ fun next hstep => ?_
  · obtain ⟨b, h, hnow⟩ := hacts
    obtain ⟨before, after, hrunning⟩ := List.append_of_mem he
    exact ⟨_, .acts hrunning h hnow⟩
  · have hnext := hstep.sound hd hl
    cases hstep with
    | acts hrunning h =>
      have hfits := hl.fits _ (hrunning ▸ List.mem_append_right _ List.mem_cons_self)
      exact hless _ hnext (weight_acts_lt hfits h hrunning l.now _)
    | passes hquiet => exact absurd hacts (hquiet e he)

/-- Where no turn is ready, and not all have ended, the clock goes on until one is. -/
theorem Loop.Inevitable.of_quiet {P : Loop → Prop} (hd : d.IsStateless) (hl : l.Sound d)
    (hgoing : ¬ l.HasEnded) (hquiet : ∀ e ∈ l.running, ¬ e.CanAct d l.judged l.now)
    (hlater : ∀ next : Loop, next.Sound d → next.weight = l.weight →
      (∃ e ∈ next.running, e.CanAct d next.judged next.now) → Loop.Inevitable d P next) :
    Loop.Inevitable d P l := by
  simp only [HasEnded, not_forall, Bool.not_eq_true] at hgoing
  obtain ⟨e, he, hgoing⟩ := hgoing
  obtain ⟨b, h⟩ := exists_acts (hl.fits e he).sound hgoing d l.judged
  obtain ⟨next, hnext, hleast⟩ := exists_next hl ⟨e, he, b.instant, b, h, rfl⟩
  refine .later ⟨_, .passes hquiet hnext hleast⟩ fun after hstep => ?_
  have hafter := hstep.sound hd hl
  cases hstep with
  | @acts _ _ e b hrunning h hnow =>
    have he : e ∈ l.running := hrunning ▸ List.mem_append_right _ List.mem_cons_self
    exact absurd ⟨b, h, hnow⟩ (hquiet e he)
  | passes _ hnext => exact hlater _ hafter rfl hnext

/-- Whatever the order of the steps, every turn ends. -/
theorem inevitable_hasEnded (hd : d.IsStateless) (hl : l.Sound d) :
    Loop.Inevitable d Loop.HasEnded l := by
  induction hweight : l.weight using Nat.strong_induction_on generalizing l with
  | _ weight ih =>
    subst hweight
    have hless (next : Loop) (hnext : next.Sound d) (hlt : next.weight < l.weight) :
        Loop.Inevitable d Loop.HasEnded next := ih _ hlt hnext rfl
    by_cases hended : l.HasEnded
    · exact .now hended
    by_cases hready : ∃ e ∈ l.running, e.CanAct d l.judged l.now
    · exact .of_ready hd hl hready hless
    · refine .of_quiet hd hl hended (fun e he hacts => hready ⟨e, he, hacts⟩) ?_
      intro next hnext hweight hready
      exact .of_ready hd hnext hready (hweight ▸ hless)

end Termination

/-- Turns that share a loop and a detector that looks at each response by itself do not interfere, where
no signal falls due together with what its own turn waits for. Whatever the order of the steps, every
turn ends, or comes to a wait that has no end, and each has then sent the same requests at the same
instants, received the same responses, and ended at the same instant in the same way as when it runs
alone: whether another is cancelled, fails or reaches its cap makes no difference. The same holds of
turns that are judged one at a time. -/
theorem concurrent_eq_alone [Json.Limits] (hd : d.IsStateless) {now : Instant}
    {runs : List (Turn × Instant)} (hbegan : ∀ run ∈ runs, now ≤ run.2)
    (huntied : ∀ run ∈ runs, ∀ signal, run.1.signal = some signal →
      run.1.Untied (signal.shiftedBy run.2) (run.1.runFrom d 0 run.2).state.requests) :
    Loop.Inevitable d Loop.HasEnded (.start now runs) ∧
      (∀ l, Relation.ReflTransGen (Loop.Step d) (.start now runs) l →
        l.running.map Running.run = runs ∧
          ∀ e ∈ l.running, ∀ r, e.activity = .ended r →
            r.withoutSignal = (e.turn.runFrom d 0 e.began).withoutSignal) ∧
      ∀ turns, together d turns = turns.map fun t => t.run d := by
  have hstart := Loop.start_sound hbegan huntied
  refine ⟨inevitable_hasEnded hd hstart, fun l hreaches => ?_, together_eq hd⟩
  obtain ⟨hl, hruns⟩ := Loop.sound_of_reaches hd hstart hreaches
  refine ⟨hruns.trans ?_, fun e he r hended => (hl.fits e he).report_eq hended⟩
  rw [Loop.start, List.map_map]
  exact List.map_id runs

/-- Three turns that overlap, with requests that take two seconds each and a delay of three in between:
one is cancelled as it awaits its second answer, one reaches its cap, and one cannot send its request. -/
theorem concurrent_eq_alone_of_three :
    let first : Response := .chat (.ofText ['a', 'b'] none)
    let work : Work (Option Response) := ⟨none, .seconds 2, .value (some first), some 1, .value none⟩
    let policy : Policy := { Policy.default with delay := .int 3, minProgress := .int 0 }
    let cancelled : Turn := ⟨policy, [], first, fun _ => .accepted false work, some ⟨false, some 6⟩⟩
    let capped : Turn :=
      ⟨{ policy with maxContinuations := .int 1 }, [], first, fun _ => .accepted false work, none⟩
    let refused : Turn := ⟨policy, [], first, fun _ => .refused (.foreign "RuntimeError" "no"), none⟩
    let d : Detector := ⟨fun _ _ => ⟨.truncated .tokenLimit "", []⟩⟩
    let runs : List (Turn × Instant) := [(cancelled, 0), (capped, 1), (refused, 1)]
    Loop.Inevitable d Loop.HasEnded (.start 0 runs) ∧
      (∀ l, Relation.ReflTransGen (Loop.Step d) (.start 0 runs) l → ∀ e ∈ l.running, ∀ r,
        e.activity = .ended r → r.withoutSignal = (e.turn.runFrom d 0 e.began).withoutSignal) ∧
      (cancelled.runFrom d 0 0).state.requests.map (·.at_) = [0, 5] ∧
      (cancelled.runFrom d 0 0).state.now = 7 ∧ (capped.runFrom d 0 1).state.now = 3 ∧
      (refused.runFrom d 0 1).state.now = 1 := by
  intro first work policy cancelled capped refused d runs
  have hasked : (cancelled.runFrom d 0 0).state.requests.map (·.at_) = [0, 5] := by decide +kernel
  have hplace {k : Nat} {q : Request}
      (hq : (cancelled.runFrom d 0 0).state.requests[k]? = some q) :
      k = 0 ∧ q.at_ = 0 ∨ k = 1 ∧ q.at_ = 5 := by
    have hat := congrArg (·[k]?) hasked
    rw [List.getElem?_map, hq] at hat
    match k, hat with
    | 0, hat => exact .inl ⟨rfl, Option.some.inj hat⟩
    | 1, hat => exact .inr ⟨rfl, Option.some.inj hat⟩
  have huntied : cancelled.Untied (Signal.shiftedBy ⟨false, some 6⟩ 0)
      (cancelled.runFrom d 0 0).state.requests := by
    refine ⟨fun k q hpos hq => ?_, fun k q raises w hq hcall => ?_, fun k q raises w _ hcall => ?_⟩
    · obtain ⟨rfl, _⟩ | ⟨_, hat⟩ := hplace hq
      · exact absurd hpos (lt_irrefl 0)
      · rw [hat]
        decide +kernel
    · cases hcall
      obtain ⟨_, hat⟩ | ⟨_, hat⟩ := hplace hq
      · rw [hat]
        decide +kernel
      · rw [hat]
        decide +kernel
    · cases hcall
      nofun
  have hbegan : ∀ run ∈ runs, (0 : Instant) ≤ run.2 :=
    List.forall_mem_cons.2 ⟨le_refl 0, List.forall_mem_cons.2 ⟨zero_le_one,
      List.forall_mem_singleton.2 zero_le_one⟩⟩
  have huntiedAll : ∀ run ∈ runs, ∀ signal, run.1.signal = some signal →
      run.1.Untied (signal.shiftedBy run.2) (run.1.runFrom d 0 run.2).state.requests := by
    refine List.forall_mem_cons.2 ⟨?_, List.forall_mem_cons.2 ⟨nofun,
      List.forall_mem_singleton.2 nofun⟩⟩
    intro signal hsignal
    cases hsignal
    exact huntied
  have hd : d.IsStateless := fun _ _ _ => rfl
  obtain ⟨hends, hsame, _⟩ := concurrent_eq_alone hd hbegan huntiedAll
  exact ⟨hends, fun l hreaches => (hsame l hreaches).2, hasked, by decide +kernel,
    by decide +kernel, by decide +kernel⟩

end Rejoin.Session
