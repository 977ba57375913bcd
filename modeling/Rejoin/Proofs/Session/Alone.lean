import Rejoin.Proofs.Session.Activity

/-!
Whatever the order in which its activity takes its steps, a turn comes to what it comes to alone. Only
its own signal could make a difference: where it is due at the very instant at which a pause or a piece
of work of the turn is over, either may be first. Where this does not happen, every step leaves the turn
at what it comes to anyway, never goes back in time, and leaves fewer steps to come.
-/

namespace Rejoin

namespace Race

variable {α : Type} {w : Work α} {s : Signal} {start : Instant} {p q : Parties α}
  {first : Option Interrupt}

/-- The signal as long as nothing interrupts the work: it is due as before, and set as soon as the work
    has ended that sets it. -/
structure Parties.KeepsSignal (w : Work α) (s : Signal) (p : Parties α) : Prop where
  due : p.setDue = s.due
  isSet : p.isSet = (p.work.isDone && w.raises.isSome)

theorem WorkStep.keepsSignal (hfirst : First w s start none none)
    (hp : Phase w s start none none p) (h : WorkStep w p q) : q.KeepsSignal w s := by
  cases hfirst with
  | work _ hstart =>
  cases hp with
  | fresh =>
    cases h with
    | beginsAndEnds => exact ⟨rfl, rfl⟩
    | begins _ _ hduration =>
      exact ⟨rfl, decide_eq_false fun hraises => hduration (hstart hraises)⟩
    | neverBegins _ hcancelled => cases hcancelled
    | ends hwork | stops hwork | cleansUp hwork | isClean hwork | stopsCleaning hwork => cases hwork
  | busy _ _ hraises =>
    obtain ⟨_, rfl⟩ := h.eq_of_busy rfl rfl
    refine ⟨rfl, ?_⟩
    change (false || decide (w.raises = some .atEnd)) = (true && w.raises.isSome)
    cases hmoment : w.raises with
    | none => rfl
    | some moment =>
      cases moment with
      | atStart => exact absurd hmoment hraises
      | atEnd => rfl
  | finished => cases h.isDone_eq_false
  | alarmed hsome | interrupted hsome | told hsome | cleaning hsome | clean hsome => cases hsome
  | ended _ hended =>
    obtain ⟨_, _, hwork, _⟩ := hended.work
    have hgoing := h.isDone_eq_false
    rw [hwork] at hgoing
    cases hgoing

/-- As long as the work comes first nothing but the work touches the signal. -/
theorem Phase.keepsSignal (hfirst : First w s start none none)
    (hp : Phase w s start none none p) (hgoing : p.caller.isEnded = false)
    (hkeeps : p.KeepsSignal w s) (h : Step w p q) : q.KeepsSignal w s := by
  cases h with
  | move h =>
    cases h with
    | work h => exact h.keepsSignal hfirst hp
    | waiter h => cases h <;> exact ⟨hkeeps.due, hkeeps.isSet⟩
    | caller h => cases h <;> exact ⟨hkeeps.due, hkeeps.isSet⟩
  | clock _ h =>
    cases h with
    | passes | cancels => exact ⟨hkeeps.due, hkeeps.isSet⟩
    | sets hdue =>
      cases hfirst with
      | @work e hfinish _ hsignal =>
        have hnow : p.now ≤ e := by
          cases hp with
          | fresh => exact Work.le_of_finishAt? hfinish
          | busy hbusy => exact hbusy e hfinish
          | finished _ hstop =>
            rw [hfinish] at hstop
            cases hstop
            exact le_refl _
          | ended _ hended =>
            rw [hended.caller] at hgoing
            cases hgoing
          | alarmed hsome | interrupted hsome | told hsome | cleaning hsome | clean hsome => cases hsome
        rw [hkeeps.due] at hdue
        exact absurd (hsignal p.now hdue) (not_lt.2 hnow)

/-- What the race has settled, with the signal as the race leaves it. -/
theorem Phase.awaited_eq (hunset : s.isRaised start = false)
    (hp : Phase w s start none none p) (hkeeps : p.KeepsSignal w s) {ending : Ending α}
    {at_ : Instant} (hended : p.caller = .ended ending at_) :
    some (⟨ending, at_, p.trace, some ⟨p.isSet, p.setDue⟩, p.records, at_⟩ : Awaited α) =
      settled w s start none := by
  have hraised := (Signal.isRaised_eq_false_iff.1 hunset).1
  obtain ⟨a, hsettled, hagrees⟩ := hp.agrees (by rw [hended]; rfl)
  obtain ⟨_, _, hwork, _⟩ := hagrees.work
  have hset : p.isSet = w.raises.isSome := by
    rw [hkeeps.isSet, hwork]
    rfl
  obtain ⟨e, _, rfl⟩ := answered?_eq_some_iff.1 hsettled
  have hcaller := hagrees.caller
  rw [hended] at hcaller
  cases hcaller
  rw [hsettled, hagrees.trace, hagrees.records, hset, hkeeps.due, afterWork, hraised, Bool.false_or]

/-- The same when the work was interrupted, but for the signal: nobody asks about it any more. -/
theorem Phase.awaited_eq_of_interrupt {i : Interrupt} {ending : Ending α} {at_ : Instant}
    (hp : Phase w s start none (some i) p) (hended : p.caller = .ended ending at_) :
    some (⟨ending, at_, p.trace, some ⟨p.isSet, p.setDue⟩, p.records, at_⟩ : Awaited α) =
      (settled w s start (some i)).map ({ · with signal := some ⟨p.isSet, p.setDue⟩ }) := by
  obtain ⟨a, hsettled, hagrees⟩ := hp.agrees (by rw [hended]; rfl)
  cases hsettled
  have hcaller := hagrees.caller
  rw [hended] at hcaller
  cases hcaller
  rw [hagrees.trace, hagrees.records]
  rfl

/-- A step is taken at once, or the clock goes on to an instant at which something falls due. -/
theorem Step.now_eq_or_mem (h : Step w p q) : q.now = p.now ∨ q.now ∈ p.timers := by
  cases h with
  | move h =>
    cases h with
    | work h => cases h <;> exact .inl rfl
    | waiter h => cases h <;> exact .inl rfl
    | caller h => cases h <;> exact .inl rfl
  | clock _ h =>
    cases h with
    | sets | cancels => exact .inl rfl
    | passes _ hnext => exact .inr hnext

/-- A call ends at the instant of the step that ends it. -/
theorem Step.eq_now_of_ended {ending : Ending α} {at_ : Instant} (hgoing : p.caller.isEnded = false)
    (hended : q.caller = .ended ending at_) (h : Step w p q) : at_ = q.now := by
  have hsame (hcaller : q.caller = p.caller) : at_ = q.now := by
    rw [← hcaller, hended] at hgoing
    cases hgoing
  cases h with
  | move h =>
    cases h with
    | work h => cases h <;> exact hsame rfl
    | waiter h => cases h <;> exact hsame rfl
    | caller h => cases h <;> cases hended <;> rfl
  | clock _ h => cases h <;> exact hsame rfl

end Race

namespace Turn

variable {t : Turn} {d : Detector} {s : State} {v : Verdict} {a b : Activity} {judged : Nat}
  {began : Instant} {requests : List Request}

section Ties

/-- Whether nothing that a turn waits for on its way falls due together with its signal: no pause is over
    when the signal is due, and no work ends then, nor in the instant in which it sets the signal as it
    starts, unless that is one step. -/
structure Untied (t : Turn) (event : Signal) (requests : List Request) : Prop where
  pause : ∀ k q, 0 < k → requests[k]? = some q → event.due ≠ some q.at_
  work : ∀ k q raises w, requests[k]? = some q → t.sender k = .accepted raises w →
    ∀ e, w.finishAt? q.at_ = some e → event.due ≠ some e
  lasts : ∀ k q raises w, requests[k]? = some q → t.sender k = .accepted raises w →
    w.raises = some .atStart → w.duration ≠ .atOnce → w.finishAt? q.at_ ≠ some q.at_

/-- Where there are no ties it is known who is first, if the wait has an end. -/
theorem exists_first {w : Work (Option Response)} {sig : Signal} {start : Instant}
    (hunset : sig.isRaised start = false) (hends : Race.await w start (some sig) false none ≠ none)
    (hwork : ∀ e, w.finishAt? start = some e → sig.due ≠ some e)
    (hlasts : w.raises = some .atStart → w.duration ≠ .atOnce → w.finishAt? start ≠ some start) :
    ∃ first, Race.First w sig start none first := by
  cases htime : Race.signalTime? w sig start with
  | some c =>
    obtain ⟨hfinish, hsignal⟩ := Race.signalTime?_eq_some_iff.1 htime
    exact ⟨_, .signal hsignal hfinish nofun⟩
  | none =>
    cases hfinish : w.finishAt? start with
    | none => exact absurd (Race.await_eq_none_iff.2 ⟨hunset, hfinish, htime⟩) hends
    | some e =>
      have hnot (c : Instant) : ¬ (c < e ∧
          if w.raises = some .atStart then c = start else sig.due = some c ∧ start ≤ c) := by
        rintro ⟨hlt, hsignal⟩
        have hsome : Race.signalTime? w sig start = some c :=
          Race.signalTime?_eq_some_iff.2 ⟨fun e' he => by
            rw [hfinish] at he
            cases he
            exact hlt, hsignal⟩
        rw [htime] at hsome
        cases hsome
      have hle := Work.le_of_finishAt? hfinish
      have hstart (hraises : w.raises = some .atStart) : w.duration = .atOnce := by
        by_contra hduration
        have hlt : start < e := lt_of_le_of_ne hle fun heq =>
          hlasts hraises hduration (heq ▸ hfinish)
        exact hnot start ⟨hlt, by rw [if_pos hraises]⟩
      refine ⟨none, .work hfinish hstart (fun c hc => ?_) nofun⟩
      have hdue := (Signal.isRaised_eq_false_iff.1 hunset).2 c hc
      refine lt_of_le_of_ne (not_lt.1 fun hlt => ?_) fun heq => hwork e hfinish (heq ▸ hc)
      by_cases hraises : w.raises = some .atStart
      · rw [Work.finishAt?_of_atOnce (hstart hraises)] at hfinish
        cases hfinish
        exact absurd hlt (not_lt.2 hdue)
      · exact hnot c ⟨hlt, by rw [if_neg hraises]; exact ⟨hc, hdue⟩⟩

end Ties

section Sound

/-- What is kept on the way of a turn: the signal that it holds, if any, is due when its own signal is,
    and it has an answer to each of its requests, but for those that are open. -/
structure State.OnWay (t : Turn) (began : Instant) (isOpen : Nat) (s : State) : Prop where
  signal : ∀ sig, s.signal = some sig →
    ∃ event, t.signal = some event ∧ sig.due = (event.shiftedBy began).due
  received : s.responses.length + isOpen = s.requests.length + 1
  answered : s.responses ≠ []

/-- A race on its way, of which it is known who is first. -/
structure Racing (w : Work (Option Response)) (signal : Signal) (start : Instant)
    (first : Option Race.Interrupt) (p : Race.Parties (Option Response)) : Prop where
  comes : Race.First w signal start none first
  phase : Race.Phase w signal start none first p
  sound : p.Sound
  going : p.caller.isEnded = false
  keeps : first = none → p.KeepsSignal w signal

/-- What is kept in every activity of a turn. -/
def Activity.Sound (t : Turn) (began : Instant) : Activity → Prop
  | .judging s => s.OnWay t began 0
  | .pausing s stop => s.OnWay t began 0 ∧ s.IsUnset ∧ stop ≠ some s.now ∧ stop = t.pauseEnd s ∧
      (t.pause s).isSome = true
  | .awaiting s w => s.OnWay t began 1 ∧ (Race.plain w s.now none).isSome = true
  | .racing s signal w p =>
    s.OnWay t began 1 ∧ s.signal = some signal ∧ signal.isRaised s.now = false ∧
      ∃ first, Racing w signal s.now first p
  | .ended _ => True

theorem State.OnWay.of_sameExchange {next : State} {isOpen : Nat} (h : s.OnWay t began isOpen)
    (hnext : s.SameExchange next) : next.OnWay t began isOpen := by
  refine ⟨fun sig hsig => h.signal sig (hnext.signal ▸ hsig), ?_, hnext.responses ▸ h.answered⟩
  rw [hnext.responses, hnext.requests]
  exact h.received

/-- A pause leaves a turn on its way. -/
theorem State.OnWay.remark {isOpen : Nat} (hs : s.OnWay t began isOpen) (stop : Instant) :
    (t.remark { s with now := stop }).OnWay t began isOpen := by
  have hsame := sameExchange_remark t { s with now := stop }
  exact hs.of_sameExchange ⟨hsame.responses, hsame.requests, hsame.signal⟩

theorem State.OnWay.start (t : Turn) (began : Instant) : (start t began).OnWay t began 0 := by
  refine ⟨fun sig hsig => ?_, rfl, List.cons_ne_nil _ _⟩
  obtain ⟨event, hevent, rfl⟩ := Option.map_eq_some_iff.1 hsig
  exact ⟨event, hevent, rfl⟩

/-- While an answer is awaited, the next response is the answer. -/
theorem sound_receive (hs : s.OnWay t began 1) (a : Awaited (Option Response))
    (hsignal : ∀ sig, a.signal = some sig →
      ∃ event, t.signal = some event ∧ sig.due = (event.shiftedBy began).due) :
    (Activity.ofProgress (receive s (some a))).Sound t began := by
  obtain ⟨ending, at_, trace, signal, records, drainedAt⟩ := a
  cases ending with
  | value answer =>
    refine ⟨hsignal, ?_, ?_⟩
    · change (s.responses ++ [answer]).length + 0 = s.requests.length + 1
      rw [List.length_append]
      exact hs.received
    · exact List.append_ne_nil_of_right_ne_nil _ (List.cons_ne_nil _ _)
  | failed f => trivial
  | abandoned => trivial

/-- A request that stands among those of the turn has its place there. -/
theorem getElem?_of_request (hs : s.OnWay t began 0) (hsent : (t.request s).requests <+: requests) :
    ∃ q, requests[s.count]? = some q ∧ q.at_ = s.now := by
  rw [requests_request] at hsent
  have hcount : s.count = s.requests.length := by
    have hreceived := hs.received
    rw [State.count]
    omega
  refine ⟨⟨s.now, requestFor t.policy t.messages s.latest⟩, ?_, rfl⟩
  rw [hcount]
  obtain ⟨rest, rfl⟩ := hsent
  rw [List.append_assoc, List.getElem?_append_right (Nat.le_refl _), Nat.sub_self]
  rfl

/-- The wait for an answer, with a signal that the turn holds unless it is raised already. -/
theorem sound_awaitAnswer {signal : Option Signal} {w : Work (Option Response)}
    (hs : s.OnWay t began 1) (hsignal : ∀ sig, signal = some sig → sig.isRaised s.now = false →
      s.signal = some sig ∧ (∀ e, w.finishAt? s.now = some e → sig.due ≠ some e) ∧
        (w.raises = some .atStart → w.duration ≠ .atOnce → w.finishAt? s.now ≠ some s.now)) :
    (awaitAnswer s signal w).Sound t began := by
  unfold awaitAnswer
  split
  · trivial
  next hends =>
  rw [Option.isNone_iff_eq_none] at hends
  cases signal with
  | none => exact ⟨hs, Option.ne_none_iff_isSome.1 hends⟩
  | some signal =>
    dsimp only
    split
    · trivial
    next hunset =>
    rw [Bool.not_eq_true] at hunset
    obtain ⟨hheld, hwork, hlasts⟩ := hsignal signal rfl hunset
    obtain ⟨first, hfirst⟩ := exists_first hunset hends hwork hlasts
    have hinitial : Race.Initial w signal s.now none false (.atCall signal s.now none) := .fresh
    exact ⟨hs, hheld, hunset, first, hfirst, .fresh, hinitial.sound hunset hfirst, rfl,
      fun _ => ⟨rfl, rfl⟩⟩

theorem sound_ask (huntied : ∀ event, t.signal = some event →
      t.Untied (event.shiftedBy began) requests)
    (hs : s.OnWay t began 0) (hsent : (t.request s).requests <+: requests) :
    (t.ask s).Sound t began := by
  have hasked : (t.sent s (requestFor t.policy t.messages s.latest)).OnWay t began 1 := by
    refine ⟨hs.signal, ?_, hs.answered⟩
    change s.responses.length + 1 = (s.requests ++ [_]).length + 1
    rw [List.length_append]
    exact congrArg (· + 1) hs.received
  obtain ⟨q, hq, hat⟩ := getElem?_of_request hs hsent
  unfold ask
  dsimp only
  cases hcall : t.sender s.count with
  | refused f => trivial
  | accepted raises w =>
    refine sound_awaitAnswer hasked fun sig hsignal hunset => ?_
    have hheld : s.signal = some sig := by
      cases raises with
      | false => exact hsignal
      | true =>
        obtain ⟨sig, _, rfl⟩ := Option.map_eq_some_iff.1 hsignal
        cases hunset
    obtain ⟨event, hevent, hdue⟩ := hs.signal sig hheld
    have hties := huntied event hevent
    have hwork := hties.work s.count q raises w hq hcall
    have hlasts := hties.lasts s.count q raises w hq hcall
    rw [hat] at hwork hlasts
    exact ⟨hheld, fun e he => hdue ▸ hwork e he, hlasts⟩

variable [Json.Limits]

theorem sound_enter (huntied : ∀ event, t.signal = some event →
      t.Untied (event.shiftedBy began) requests)
    (hs : s.OnWay t began 0) (hsent : (t.round s).requests <+: requests) :
    (t.enter s).Sound t began := by
  have hcomes := comesTo_enter t s
  unfold enter at hcomes ⊢
  split at hcomes
  · next hgoing =>
    rw [if_pos hgoing]
    split
    · next hend =>
      rw [if_pos hend, comesTo_ask] at hcomes
      rw [← hcomes] at hsent
      exact sound_ask huntied (hs.remark s.now) hsent
    · next hend =>
      obtain ⟨_, hunset, _, hpause⟩ := isGoing_iff.1 hgoing
      exact ⟨hs, hunset, hend, rfl, hpause⟩
  · next hgoing =>
    rw [if_neg hgoing]
    obtain ⟨r, hended, _⟩ := exists_ended_of_not_isGoing (Bool.eq_false_iff.2 hgoing)
    rw [hended]
    trivial

theorem sound_proceed (huntied : ∀ event, t.signal = some event →
      t.Untied (event.shiftedBy began) requests)
    (hs : s.OnWay t began 0) (hsent : (t.resume s v).requests <+: requests) :
    (t.proceed s v).Sound t began := by
  unfold proceed
  split
  · next htruncated =>
    rw [resume_of_truncated t htruncated] at hsent
    exact sound_enter huntied (hs.of_sameExchange (sameExchange_afterTruncated s v)) hsent
  · next hcomplete =>
    obtain ⟨r, hended, _⟩ := exists_ended_of_complete (Bool.eq_false_iff.2 hcomplete) s
    rw [hended]
    trivial

end Sound

section Steps

/-- Whether a turn that is left alone with its activity ends as a report tells. -/
def Activity.EndsAlone [Json.Limits] (t : Turn) (d : Detector) (report : Report) (a : Activity) :
    Prop :=
  ∃ r, Ends t d 0 (a.comesTo t) r ∧ r.withoutSignal = report.withoutSignal

theorem Ends.precedes [Json.Limits] {m : Nat} {p : Progress} {r : Report} (h : Ends t d m p r) :
    p.Precedes (.ended r) := by
  induction h with
  | ended => exact .refl _
  | judged _ ih => exact (precedes_resume t _ _).trans ih

/-- What the turn comes to next sends no request that the report does not have. -/
theorem Activity.EndsAlone.sent [Json.Limits] {report : Report} (h : a.EndsAlone t d report) :
    (a.comesTo t).requests <+: report.state.requests := by
  obtain ⟨r, hends, hsame⟩ := h
  have hrequests : r.state.requests = report.state.requests :=
    congrArg (fun r => r.state.requests) hsame
  rw [← hrequests]
  exact hends.precedes.requests

/-- Two waits that come to the same but for the signal end a turn in the same way. -/
theorem receive_withoutSignal_eq {x y : Option (Awaited (Option Response))} (s : State)
    (hsame : x.map ({ · with signal := none }) = y.map ({ · with signal := none })) :
    (receive s x).withoutSignal = (receive s y).withoutSignal := by
  rw [← receive_withoutSignal, ← receive_withoutSignal, hsame]

theorem Racing.step {w : Work (Option Response)} {signal : Signal} {start : Instant}
    {first : Option Race.Interrupt} {p q : Race.Parties (Option Response)}
    (hp : Racing w signal start first p) (h : Race.Step w p q)
    (hgoing : q.caller.isEnded = false) : Racing w signal start first q := by
  refine ⟨hp.comes, hp.phase.step hp.comes hp.sound h, h.sound hp.sound, hgoing, ?_⟩
  rintro rfl
  exact hp.phase.keepsSignal hp.comes hp.going (hp.keeps rfl) h

/-- A race that has settled ends as it was to end, but for the signal if the work was interrupted. -/
theorem Racing.settles {w : Work (Option Response)} {signal : Signal} {first : Option Race.Interrupt}
    {p q : Race.Parties (Option Response)} {ending : Ending (Option Response)} {at_ : Instant}
    (hunset : signal.isRaised s.now = false) (hp : Racing w signal s.now first p)
    (h : Race.Step w p q) (hended : q.caller = .ended ending at_) :
    let a : Option (Awaited (Option Response)) :=
      some ⟨ending, at_, q.trace, some ⟨q.isSet, q.setDue⟩, q.records, at_⟩
    let b := Race.await w s.now (some signal) false none
    a = b ∧ q.setDue = signal.due ∨ ∃ r r', receive s a = .ended r ∧ receive s b = .ended r' ∧
      r.withoutSignal = r'.withoutSignal := by
  intro a b
  have hb : b = Race.settled w signal s.now first := Race.await_eq_settled hunset hp.comes false
  have hphase := hp.phase.step hp.comes hp.sound h
  cases first with
  | none =>
    have hkeeps := hp.phase.keepsSignal hp.comes hp.going (hp.keeps rfl) h
    refine .inl ⟨?_, hkeeps.due⟩
    rw [hb]
    exact hphase.awaited_eq hunset hkeeps hended
  | some i =>
    have ha : a = _ := hphase.awaited_eq_of_interrupt hended
    have hsame : (receive s a).withoutSignal = (receive s b).withoutSignal := by
      rw [ha, hb]
      exact receive_withoutSignal_eq s rfl
    have hends (x : Awaited (Option Response)) (hx : x.ending = i.ending) :
        ∃ r, receive s (some x) = .ended r := by
      unfold receive
      dsimp only
      rw [hx]
      cases i <;> exact ⟨_, rfl⟩
    obtain ⟨r, hr⟩ : ∃ r, receive s a = .ended r := by
      rw [ha]
      exact hends _ rfl
    obtain ⟨r', hr'⟩ : ∃ r, receive s b = .ended r := by
      rw [hb]
      exact hends _ rfl
    rw [hr, hr'] at hsame
    exact .inr ⟨r, r', hr, hr', Progress.ended.inj hsame⟩

/-- A pause that is cut short is cut short by a signal that is due before it is over. -/
theorem lt_of_interrupted [Json.Limits] {sig : Signal} {due stop : Instant} {report : Report}
    (huntied : ∀ event, t.signal = some event →
      t.Untied (event.shiftedBy began) report.state.requests)
    (hs : s.OnWay t began 0) (hunset : s.IsUnset) (hpos : 0 < s.count)
    (halone : (Activity.pausing s (t.pauseEnd s)).EndsAlone t d report)
    (hsignal : s.signal = some sig) (hdue : sig.due = some due) (hend : t.pauseEnd s = some stop)
    (hbefore : due ≤ stop) : due < stop := by
  refine lt_of_le_of_ne hbefore fun heq => ?_
  -- were both to come together, a request would be sent at that instant
  have hpause := pause_of_wakes hunset hend fun sig' due' hsig' hdue' => by
    rw [hsignal] at hsig'
    cases hsig'
    rw [hdue] at hdue'
    cases hdue'
    exact heq.ge
  have hsent := halone.sent
  rw [Activity.comesTo, hpause] at hsent
  obtain ⟨q, hq, hat⟩ := getElem?_of_request (hs.remark stop) hsent
  obtain ⟨event, hevent, hsame⟩ := hs.signal sig hsignal
  rw [now_remark] at hat
  have hpos : 0 < (t.remark { s with now := stop }).count := by
    rw [State.count, sameExchange_remark t _ |>.responses]
    exact hpos
  refine (huntied event hevent).pause _ q hpos hq ?_
  rw [← hsame, hdue, hat, heq]

/-- A step of a turn leaves it at what it comes to anyway. -/
theorem Acts.endsAlone [Json.Limits] {report : Report} (hd : d.IsStateless)
    (huntied : ∀ event, t.signal = some event →
      t.Untied (event.shiftedBy began) report.state.requests)
    (ha : a.Sound t began) (halone : a.EndsAlone t d report) (h : Acts t d judged a b) :
    b.EndsAlone t d report := by
  cases h with
  | judges s =>
    obtain ⟨r, hends, hsame⟩ := halone
    cases hends with
    | judged hresume =>
      refine ⟨r, ?_, hsame⟩
      rw [comesTo_proceed, hd judged 0]
      exact hresume.of_isStateless hd 0
  | wakes hbefore =>
    obtain ⟨_, hunset, _, hend, _⟩ := ha
    rw [Activity.EndsAlone, Activity.comesTo, pause_of_wakes hunset hend.symm hbefore] at halone
    rw [Activity.EndsAlone, comesTo_ask]
    exact halone
  | interrupted hsignal hdue hbefore =>
    obtain ⟨hs, hunset, hne, rfl, _⟩ := ha
    have hbefore (stop : Instant) (hend : t.pauseEnd _ = some stop) := lt_of_interrupted huntied hs
      hunset (pos_of_pauseEnd_ne hne) halone hsignal hdue hend (hbefore stop hend)
    rw [Activity.EndsAlone, Activity.comesTo, pause_of_interrupted hunset hsignal hdue hbefore]
      at halone
    exact halone
  | answers hanswer =>
    rw [Activity.EndsAlone, Activity.comesTo, hanswer] at halone
    rw [Activity.EndsAlone, comesTo_ofProgress]
    exact halone
  | races => exact halone
  | settles hstep hended =>
    obtain ⟨_, _, hunset, first, hracing⟩ := ha
    rw [Activity.EndsAlone, comesTo_ofProgress]
    obtain ⟨heq, _⟩ | ⟨r, r', hr, hr', hsame⟩ := hracing.settles hunset hstep hended
    · rw [heq]
      exact halone
    · obtain ⟨last, hends, hlast⟩ := halone
      rw [Activity.comesTo, hr'] at hends
      cases hends
      rw [hr]
      exact ⟨r, .ended, hsame.trans hlast⟩

theorem Acts.sound [Json.Limits] {report : Report} (huntied : ∀ event, t.signal = some event →
      t.Untied (event.shiftedBy began) report.state.requests)
    (ha : a.Sound t began) (halone : b.EndsAlone t d report) (h : Acts t d judged a b) :
    b.Sound t began := by
  have hsent := halone.sent
  cases h with
  | judges s =>
    rw [comesTo_proceed] at hsent
    exact sound_proceed huntied ha hsent
  | @wakes s stop =>
    rw [comesTo_ask] at hsent
    exact sound_ask huntied (ha.1.remark stop) hsent
  | interrupted => trivial
  | answers hanswer =>
    obtain ⟨_, _, rfl⟩ := Option.map_eq_some_iff.1 hanswer
    exact sound_receive ha.1 _ nofun
  | races hstep hgoing =>
    obtain ⟨hs, hsignal, hunset, first, hracing⟩ := ha
    exact ⟨hs, hsignal, hunset, first, hracing.step hstep hgoing⟩
  | settles hstep hended =>
    obtain ⟨hs, hsignal, hunset, first, hracing⟩ := ha
    obtain ⟨_, hdue⟩ | ⟨r, _, hr, _⟩ := hracing.settles hunset hstep hended
    · refine sound_receive hs _ fun sig hsig => ?_
      cases hsig
      obtain ⟨event, hevent, hsame⟩ := hs.signal _ hsignal
      exact ⟨event, hevent, hdue.trans hsame⟩
    · rw [hr]
      trivial

theorem Racing.now_le {w : Work (Option Response)} {signal : Signal} {start : Instant}
    {first : Option Race.Interrupt} {p q : Race.Parties (Option Response)}
    (hp : Racing w signal start first p) (h : Race.Step w p q) : p.now ≤ q.now := by
  obtain hnow | hnext := h.now_eq_or_mem
  · exact hnow.ge
  · exact hp.sound.timely q.now hnext

variable [Json.Limits]

/-- No step goes back in time. -/
theorem Acts.instant_le (ha : a.Sound t began) (h : Acts t d judged a b) :
    a.instant ≤ b.instant := by
  cases h with
  | judges s => exact (instant_proceed t s _).ge
  | wakes =>
    obtain ⟨_, _, _, hend, _⟩ := ha
    rw [instant_ask, now_remark]
    exact le_pauseEnd hend.symm
  | interrupted hsignal hdue =>
    obtain ⟨_, hunset, _⟩ := ha
    exact (Signal.isRaised_eq_false_iff.1 (hunset _ hsignal)).2 _ hdue
  | answers hanswer =>
    rw [instant_ofProgress, now_receive]
    exact Race.le_at_of_await (s := none) hanswer
  | races hstep =>
    obtain ⟨_, _, _, first, hracing⟩ := ha
    exact hracing.now_le hstep
  | settles hstep hended =>
    obtain ⟨_, _, _, first, hracing⟩ := ha
    rw [instant_ofProgress, now_receive]
    exact (hracing.now_le hstep).trans_eq (hstep.eq_now_of_ended hracing.going hended).symm

/-- Every step leaves fewer to come. -/
theorem Acts.weight_lt (ha : a.Sound t began) (h : Acts t d judged a b) :
    b.weight t < a.weight t := by
  cases h with
  | judges s => exact weight_proceed_lt t s _
  | @wakes s stop =>
    have hask := weight_ask_lt t (t.remark { s with now := stop })
    rw [(sameExchange_remark t _).count_eq] at hask
    exact hask
  | interrupted => exact Nat.succ_pos _
  | answers =>
    exact Nat.lt_of_le_of_lt (weight_receive_le ha.1.answered _) (Nat.lt_succ_self _)
  | races hstep => exact Nat.add_lt_add_left hstep.weight_lt _
  | settles hstep hended =>
    refine Nat.lt_of_le_of_lt (weight_receive_le ha.1.answered _) ?_
    exact Nat.lt_of_lt_of_le (Nat.lt_succ_self _) (Nat.le_add_right _ _)

/-- A turn that has not ended has a step before it. -/
theorem exists_acts (ha : a.Sound t began) (hgoing : a.isEnded = false) (d : Detector)
    (judged : Nat) : ∃ b, Acts t d judged a b := by
  cases a with
  | judging s => exact ⟨_, .judges s⟩
  | pausing s stop =>
    obtain ⟨_, hunset, _, hend, hpause⟩ := ha
    cases stop with
    | none =>
      obtain ⟨sig, due, hsignal, hdue⟩ := exists_due_of_pauseEnd_eq_none hunset hpause hend.symm
      exact ⟨_, .interrupted hsignal hdue nofun⟩
    | some stop =>
      by_cases hbefore : ∀ sig due, s.signal = some sig → sig.due = some due → stop ≤ due
      · exact ⟨_, .wakes hbefore⟩
      · simp only [not_forall, not_le] at hbefore
        obtain ⟨sig, due, hsignal, hdue, hlt⟩ := hbefore
        exact ⟨_, .interrupted hsignal hdue fun e he => by cases he; exact hlt.le⟩
  | awaiting s w =>
    obtain ⟨a, hanswer⟩ := Option.isSome_iff_exists.1 ha.2
    exact ⟨_, .answers hanswer⟩
  | racing s signal w p =>
    obtain ⟨_, _, _, first, hracing⟩ := ha
    obtain ⟨q, hstep⟩ := Race.exists_step hracing.sound (hracing.phase.goes hracing.comes)
      hracing.going
    cases hcaller : q.caller with
    | ended ending at_ => exact ⟨_, .settles hstep hcaller⟩
    | racing | drainsWork | drainsBoth | givesUp =>
      exact ⟨_, .races hstep (by rw [hcaller]; rfl)⟩
  | ended r => cases hgoing

/-- The instants at which a turn can have its next step. -/
def Activity.alarms : Activity → List Instant
  | .judging s => [s.now]
  | .pausing s stop => stop.toList ++ (s.signal.bind (·.due)).toList
  | .awaiting s w => (w.finishAt? s.now).toList
  | .racing _ _ _ p => p.now :: p.timers
  | .ended _ => []

theorem Acts.mem_alarms (ha : a.Sound t began) (h : Acts t d judged a b) :
    b.instant ∈ a.alarms := by
  cases h with
  | judges s => exact List.mem_singleton.2 (instant_proceed t s _)
  | wakes =>
    rw [instant_ask, now_remark]
    exact List.mem_cons_self
  | interrupted hsignal hdue =>
    refine List.mem_append_right _ (Option.mem_toList.2 ?_)
    rw [hsignal]
    exact hdue
  | answers hanswer =>
    rw [instant_ofProgress, now_receive]
    obtain ⟨e, he, rfl⟩ := Race.answered?_eq_some_iff.1 hanswer
    exact Option.mem_toList.2 he
  | races hstep => exact List.mem_cons.2 hstep.now_eq_or_mem
  | settles hstep hended =>
    obtain ⟨_, _, _, first, hracing⟩ := ha
    rw [instant_ofProgress, now_receive, hstep.eq_now_of_ended hracing.going hended]
    exact List.mem_cons.2 hstep.now_eq_or_mem

end Steps

end Turn

end Rejoin
