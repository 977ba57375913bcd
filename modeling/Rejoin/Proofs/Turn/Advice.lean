import Rejoin.Proofs.Turn.Forward

/-!
The duration that a policy advises is advice only. Turns that differ in nothing else send the same
requests at the same instants and end at the same instant in the same way. They make the same reports
too, except that a turn remarks, once, on the first request that is sent after more time than advised.
-/

namespace Rejoin.Turn

variable {t : Turn} {d : Detector} {advice : Number} {began : Instant} {b s : State} {q : Request}
  {requests : List Request} {base records : List (Instant × Log.Record)} {warned : Bool}

/-- The turn with another advice on its duration. -/
def advising (t : Turn) (advice : Number) : Turn :=
  { t with policy := { t.policy with maxDuration := advice } }

section Remarks

/-- Whether more time has passed than advised. Only a positive number advises anything. -/
def Exceeds (elapsed : Rat) (advice : Number) : Prop :=
  ∃ most : Rat, advice.extent? = some (.point most) ∧ 0 < most ∧ most < elapsed

/-- The remark on a turn that takes longer than advised. -/
def overdueRecord (advice : Number) : Log.Record :=
  ⟨.warning, .turn, "Continuation exceeded advisory duration of " ++ advice.tenthsText ++ "s"⟩

/-- The records of a turn with an advice, beside those of the same turn without: the same ones, if no
    request was sent after more time than advised; and otherwise one remark among them, made when the
    first such request was sent. -/
inductive Remarks (advice : Number) (began : Instant) (requests : List Request)
    (base : List (Instant × Log.Record)) : Bool → List (Instant × Log.Record) → Prop where
  | never (hnone : ∀ q ∈ requests, ¬ Exceeds (q.at_ - began) advice) :
      Remarks advice began requests base false base
  | once {k : Nat} {q : Request} {before after : List (Instant × Log.Record)}
      (hbase : base = before ++ after) (hq : requests[k]? = some q)
      (hexceeds : Exceeds (q.at_ - began) advice)
      (hfirst : ∀ j < k, ∀ p, requests[j]? = some p → ¬ Exceeds (p.at_ - began) advice) :
      Remarks advice began requests base true
        (before ++ (q.at_, overdueRecord advice) :: after)

theorem isOverdue_iff (t : Turn) (s : State) :
    t.isOverdue s = true ↔ Exceeds (s.now - s.began) t.policy.maxDuration := by
  have hzero : (Number.int 0).extent? = some (.point 0) := rfl
  rw [isOverdue, Exceeds, Number.isPositive, Number.lt, hzero]
  cases t.policy.maxDuration.extent? with
  | none => simp
  | some e => cases e <;> simp [Extent.lt]

/-- What is reported later is reported in either turn. -/
theorem Remarks.report (h : Remarks advice began requests base warned records)
    (more : List (Instant × Log.Record)) :
    Remarks advice began requests (base ++ more) warned (records ++ more) := by
  cases h with
  | never hnone => exact .never hnone
  | @once k q before after hbase hq hexceeds hfirst =>
    rw [List.append_assoc, List.cons_append]
    refine .once ?_ hq hexceeds hfirst
    rw [hbase, List.append_assoc]

/-- A request on which nothing is to be remarked. -/
theorem Remarks.request (h : Remarks advice began requests base warned records)
    (hq : warned = true ∨ ¬ Exceeds (q.at_ - began) advice) :
    Remarks advice began (requests ++ [q]) base warned records := by
  cases h with
  | never hnone =>
    refine .never fun p hp => ?_
    obtain hp | hp := List.mem_append.1 hp
    · exact hnone p hp
    · obtain rfl := List.mem_singleton.1 hp
      exact hq.resolve_left Bool.false_ne_true
  | @once k first before after hbase hfirst hexceeds hnone =>
    have hk : k < requests.length := (List.getElem?_eq_some_iff.1 hfirst).1
    refine .once hbase ?_ hexceeds fun j hj p hp => hnone j hj p ?_
    · rw [List.getElem?_append_left hk]
      exact hfirst
    · rw [List.getElem?_append_left (hj.trans hk)] at hp
      exact hp

/-- The first request that is sent after more time than advised, and the remark that comes before it. -/
theorem Remarks.remark (h : Remarks advice began requests base false records)
    (hq : Exceeds (q.at_ - began) advice) :
    Remarks advice began (requests ++ [q]) base true (records ++ [(q.at_, overdueRecord advice)]) := by
  cases h with
  | never hnone =>
    refine .once (k := requests.length) (List.append_nil base).symm ?_ hq fun j hj p hp => ?_
    · rw [List.getElem?_append_right (Nat.le_refl _), Nat.sub_self]
      rfl
    · rw [List.getElem?_append_left hj] at hp
      exact hnone p (List.mem_of_getElem? hp)

end Remarks

section Alike

/-- A state of a turn with an advice, beside one of the same turn without: they differ in nothing but
    the remark. -/
inductive State.Advised (advice : Number) (began : Instant) (b : State) : State → Prop where
  | noted {warned : Bool} {records : List (Instant × Log.Record)}
      (h : Remarks advice began b.requests b.records warned records) :
      Advised advice began b { b with warned, records }

/-- The same for turns that have ended. -/
structure Report.Advised (advice : Number) (began : Instant) (plain report : Report) : Prop where
  outcome : report.outcome = plain.outcome
  state : plain.state.Advised advice began report.state

/-- A state of a turn that began at an instant. -/
structure State.Begun (began : Instant) (s : State) : Prop where
  start : s.began = began
  responses : s.responses ≠ []
  fresh : s.count = 0 → s.now = began

/-- The same for turns on their way. -/
inductive Progress.Advised (advice : Number) (began : Instant) : Progress → Progress → Prop where
  | pending {b s : State} (h : b.Advised advice began s) (hbegun : b.Begun began) :
      Advised advice began (.pending b) (.pending s)
  | ended {plain report : Report} (h : plain.Advised advice began report) :
      Advised advice began (.ended plain) (.ended report)

theorem State.Advised.report (h : b.Advised advice began s) (records : List Log.Record) :
    (b.report records).Advised advice began (s.report records) := by
  cases h with
  | noted h => exact .noted (h.report _)

theorem State.Advised.tell (h : b.Advised advice began s) (level : Log.Level) (message : String) :
    (b.tell level message).Advised advice began (s.tell level message) := h.report _

theorem State.Advised.count_eq (h : b.Advised advice began s) : s.count = b.count := by
  cases h
  rfl

theorem State.Advised.now_eq (h : b.Advised advice began s) : s.now = b.now := by
  cases h
  rfl

theorem State.Advised.signal_eq (h : b.Advised advice began s) : s.signal = b.signal := by
  cases h
  rfl

theorem State.Advised.responses_eq (h : b.Advised advice began s) : s.responses = b.responses := by
  cases h
  rfl

theorem advised_cancel (h : b.Advised advice began s) (f : Fault) :
    Report.Advised advice began (cancel b f) (cancel s f) := by
  refine ⟨?_, ?_⟩
  · rw [cancel, cancel, h.count_eq]
  · unfold cancel
    rw [h.count_eq]
    exact h.tell _ _

theorem advised_fail (h : b.Advised advice began s) (f : Failure) :
    Report.Advised advice began (fail b f) (fail s f) := by
  unfold fail
  split
  · split
    · exact advised_cancel h _
    · exact ⟨rfl, h⟩
  · exact ⟨rfl, h⟩

theorem advised_finish [Json.Limits] (h : b.Advised advice began s) (phase : Phase) :
    Report.Advised advice began ((t.advising (.int 0)).finish b phase)
      ((t.advising advice).finish s phase) := by
  have hreached (a : Number) (s : State) : (t.advising a).hasReachedMax s = t.hasReachedMax s := rfl
  have hrepaired (a : Number) : Recovered.ofText (t.advising a).policy =
    Recovered.ofText t.policy := rfl
  have hfails (a : Number) : (t.advising a).policy.failsAtCap = t.policy.failsAtCap := rfl
  have hcap (a : Number) :
    (t.advising a).policy.maxContinuations = t.policy.maxContinuations := rfl
  cases h with
  | @noted warned records h =>
    have hmax : t.hasReachedMax { b with warned, records } = t.hasReachedMax b := rfl
    unfold finish
    simp only [hreached, hrepaired, hfails, hcap, hmax]
    cases t.hasReachedMax b with
    | false => exact ⟨rfl, ((State.Advised.noted h).report _).tell _ _⟩
    | true =>
      cases t.policy.failsAtCap with
      | false => exact ⟨rfl, (((State.Advised.noted h).tell _ _).report _).tell _ _⟩
      | true => exact ⟨rfl, (State.Advised.noted h).tell _ _⟩

/-- A request that is sent, with a remark before it if it is due. -/
theorem State.Advised.sent (h : b.Advised advice began s) (hbegan : b.began = began)
    (messages : List Message) :
    ((t.advising (.int 0)).sent b messages).Advised advice began
      ((t.advising advice).sent ((t.advising advice).remark s) messages) := by
  cases h with
  | @noted warned records h =>
    unfold remark
    split
    · next hremark =>
      rw [Bool.and_eq_true, Bool.not_eq_true', isOverdue_iff] at hremark
      obtain ⟨hwarned, hexceeds⟩ := hremark
      dsimp only at hwarned hexceeds
      subst hwarned hbegan
      exact .noted ((h.remark (q := ⟨b.now, messages⟩) hexceeds).report _)
    · next hremark =>
      refine .noted ((h.request (q := ⟨b.now, messages⟩) ?_).report _)
      rw [Bool.and_eq_true, Bool.not_eq_true', isOverdue_iff] at hremark
      subst hbegan
      cases warned with
      | true => exact .inl rfl
      | false => exact .inr fun hexceeds => hremark ⟨rfl, hexceeds⟩

/-- Without an advice there is nothing to remark. -/
theorem remark_unadvised (t : Turn) (s : State) : (t.advising (.int 0)).remark s = s := by
  unfold remark
  split
  · next hremark =>
    rw [Bool.and_eq_true, isOverdue_iff] at hremark
    obtain ⟨_, most, hpoint, hpos, _⟩ := hremark
    cases hpoint
    exact absurd hpos (lt_irrefl _)
  · rfl

theorem advised_receive (h : b.Advised advice began s) (hbegan : b.began = began)
    (hresponses : b.responses ≠ []) (a : Option (Awaited (Option Response))) :
    Progress.Advised advice began (receive b a) (receive s a) := by
  cases h with
  | @noted warned records h =>
    cases a with
    | none => exact .ended ⟨rfl, .noted h⟩
    | some a =>
      unfold receive
      dsimp only
      cases a.ending with
      | value r =>
        refine .pending (.noted (h.report _)) ⟨hbegan, by simp, fun hcount => ?_⟩
        change (b.responses ++ [r]).length - 1 = 0 at hcount
        rw [List.length_append, List.length_singleton, Nat.add_sub_cancel] at hcount
        exact absurd (List.length_eq_zero_iff.1 hcount) hresponses
      | failed f => exact .ended (advised_fail (.noted (h.report _)) f)
      | abandoned => exact .ended ⟨rfl, .noted (h.report _)⟩

theorem advised_request (h : b.Advised advice began s) (hbegan : b.began = began)
    (hresponses : b.responses ≠ []) :
    Progress.Advised advice began ((t.advising (.int 0)).request b)
      ((t.advising advice).request ((t.advising advice).remark s)) := by
  have hremark := sameExchange_remark (t.advising advice) s
  have hcount : ((t.advising advice).remark s).count = b.count := hremark.count_eq.trans h.count_eq
  have hlatest : ((t.advising advice).remark s).latest = b.latest := by
    rw [State.latest, hremark.responses, h.responses_eq, State.latest]
  have hmessages (a : Number) (r : Option Response) :
      requestFor (t.advising a).policy (t.advising a).messages r =
        requestFor t.policy t.messages r := rfl
  have hsender (a : Number) : (t.advising a).sender = t.sender := rfl
  have hsent := h.sent (t := t) hbegan (requestFor t.policy t.messages b.latest)
  unfold request
  simp only [hcount, hlatest, hmessages, hsender, hsent.now_eq, hsent.signal_eq]
  cases t.sender b.count with
  | refused f => exact .ended (advised_fail hsent f)
  | accepted raises w => exact advised_receive hsent hbegan hresponses _

theorem advised_goOn (h : b.Advised advice began s) (hbegan : b.began = began)
    (hresponses : b.responses ≠ []) (w : Option Waited) :
    Progress.Advised advice began ((t.advising (.int 0)).goOn b w) ((t.advising advice).goOn s w) := by
  cases h with
  | @noted warned records h =>
    cases w with
    | none => exact .ended ⟨rfl, .noted h⟩
    | some w =>
      obtain ⟨fault, at_⟩ := w
      cases fault with
      | some fault => exact .ended (advised_cancel (b := { b with now := at_ }) (.noted h) fault)
      | none =>
        have hrequest := advised_request (t := t) (b := { b with now := at_ }) (.noted h) hbegan
          hresponses
        rw [goOn, remark_unadvised]
        exact hrequest

variable [Json.Limits]

theorem advised_round (h : b.Advised advice began s) (hbegan : b.began = began)
    (hresponses : b.responses ≠ []) :
    Progress.Advised advice began ((t.advising (.int 0)).round b) ((t.advising advice).round s) := by
  have hcap (a : Number) : (t.advising a).cap = t.cap := rfl
  have hstalled (a : Number) (s : State) : (t.advising a).isStalled s = t.isStalled s := rfl
  have hpause (a : Number) (s : State) : (t.advising a).pause s = t.pause s := rfl
  have hmin (a : Number) : (t.advising a).policy.minProgress = t.policy.minProgress := rfl
  cases h with
  | @noted warned records h =>
    have hsame : t.isStalled { b with warned, records } = t.isStalled b := rfl
    have hwaits : t.pause { b with warned, records } = t.pause b := rfl
    have hcount : State.count { b with warned, records } = b.count := rfl
    unfold round
    simp only [hcap, hstalled, hpause, hmin, hsame, hwaits, hcount]
    split
    · exact .ended (advised_finish (.noted h) _)
    split
    · exact .ended (advised_cancel (.noted h) _)
    split
    · exact .ended (advised_finish ((State.Advised.noted h).tell _ _) _)
    · exact advised_goOn (.noted h) hbegan hresponses _

theorem advised_resume (h : b.Advised advice began s) (hbegun : b.Begun began) (v : Verdict) :
    Progress.Advised advice began ((t.advising (.int 0)).resume b v)
      ((t.advising advice).resume s v) := by
  obtain ⟨hstart, hresponses, hfresh⟩ := hbegun
  cases h with
  | @noted warned records h =>
    have hreported := (State.Advised.noted h).report v.records
    have hcount : (State.report { b with warned, records } v.records).count =
      (b.report v.records).count := rfl
    unfold resume
    simp only [hcount]
    split
    · exact .ended ⟨rfl, hreported⟩
    · next hzero _ => exact advised_round (.noted ((h.report _).report _)) (hfresh hzero) hresponses
    · exact .ended (advised_finish hreported _)
    · exact advised_round (hreported.tell _ _) hstart hresponses

theorem advised_drive {p plain : Progress} (h : plain.Advised advice began p) (judged left : Nat) :
    Report.Advised advice began ((t.advising (.int 0)).drive d judged left plain)
      ((t.advising advice).drive d judged left p) := by
  induction left generalizing judged p plain with
  | zero =>
    cases h with
    | pending h => exact advised_finish h .continuing
    | ended h => exact h
  | succ left ih =>
    cases h with
    | @pending b s h hbegun =>
      have hlatest : s.latest = b.latest := by rw [State.latest, h.responses_eq, State.latest]
      rw [drive, drive, hlatest]
      exact ih (advised_resume h hbegun _) (judged + 1)
    | ended h => exact h

end Alike

/-- A turn with an advice, beside the same turn without. -/
theorem advised_runFrom [Json.Limits] (t : Turn) (d : Detector) (judged : Nat) (began : Instant)
    (advice : Number) :
    Report.Advised advice began ((t.advising (.int 0)).runFrom d judged began)
      ((t.advising advice).runFrom d judged began) := by
  have hbegun : (State.start t began).Begun began := ⟨rfl, List.cons_ne_nil _ _, fun _ => rfl⟩
  have hnone : Remarks advice began [] [] false [] := .never nofun
  exact advised_drive (.pending (.noted hnone) hbegun) judged (t.cap + 1)

theorem State.Advised.remarks (h : b.Advised advice began s) :
    Remarks advice began s.requests b.records s.warned s.records := by
  cases h with
  | noted h => exact h

/-- Two states beside the same one differ in the remark only. -/
theorem State.Advised.eq_of_advised {other : Number} {next : State} (h : b.Advised advice began s)
    (hother : b.Advised other began next) :
    next = { s with warned := next.warned, records := next.records } := by
  cases h
  cases hother
  rfl

/-- Turns that differ in nothing but the duration that their policies advise end at the same instant in
the same way, and have sent the same requests at the same instants and received the same responses by
then. There are records that all of them make. A turn makes no others, unless one of its requests was
sent when more time had passed since it began than advised: then it remarks on that once, at the first
such request. -/
theorem runFrom_advising [Json.Limits] (t : Turn) (d : Detector) (judged : Nat) (began : Instant) :
    ∃ base, ∀ advice other,
      let report := (t.advising advice).runFrom d judged began
      let second := (t.advising other).runFrom d judged began
      second.outcome = report.outcome ∧
      second.state = { report.state with
        warned := second.state.warned, records := second.state.records } ∧
      Remarks advice began report.state.requests base report.state.warned report.state.records := by
  refine ⟨((t.advising (.int 0)).runFrom d judged began).state.records, fun advice other => ?_⟩
  have hadvice := advised_runFrom t d judged began advice
  have hother := advised_runFrom t d judged began other
  exact ⟨hother.outcome.trans hadvice.outcome.symm, hadvice.state.eq_of_advised hother.state,
    hadvice.state.remarks⟩

/-- Three requests that take two seconds each, with a delay of three in between. With an advice of one
second there is one remark, on the second request, though the third is late as well; with an advice of
ten there is none, and nothing else is different. -/
theorem runFrom_advising_of_three_requests :
    let first : Response := .chat (.ofText ['a', 'b'] none)
    let t : Turn :=
      ⟨{ Policy.default with delay := .int 3, minProgress := .int 0 }, [], first,
        fun _ => .accepted false ⟨none, .seconds 2, .value (some first), none, .abandoned⟩, none⟩
    let d : Detector := .scripted
      [.truncated .tokenLimit "", .truncated .tokenLimit "", .truncated .tokenLimit "", .complete]
    let hurried := (t.advising (.int 1)).runFrom d 0 0
    let patient := (t.advising (.int 10)).runFrom d 0 0
    hurried.state.requests.map (·.at_) = [0, 5, 10] ∧
      (hurried.state.records.filter (·.2 = overdueRecord (.int 1))).map (·.1) = [5] ∧
      patient.outcome = hurried.outcome ∧ patient.state.requests = hurried.state.requests ∧
      patient.state.now = hurried.state.now ∧
      Remarks (.int 1) 0 hurried.state.requests patient.state.records true hurried.state.records := by
  intro first t d hurried patient
  obtain ⟨base, hadvising⟩ := runFrom_advising t d 0 0
  have hrequests : hurried.state.requests.map (·.at_) = [0, 5, 10] := by decide +kernel
  have hremarks : (hurried.state.records.filter (·.2 = overdueRecord (.int 1))).map (·.1) = [5] := by
    decide +kernel
  have hwarned : hurried.state.warned = true := by decide +kernel
  have hunwarned : patient.state.warned = false := by decide +kernel
  obtain ⟨houtcome, hstate, hhurried⟩ := hadvising (.int 1) (.int 10)
  obtain ⟨_, _, hpatient⟩ := hadvising (.int 10) (.int 1)
  change Remarks _ _ hurried.state.requests base hurried.state.warned hurried.state.records at hhurried
  change Remarks _ _ patient.state.requests base patient.state.warned patient.state.records at hpatient
  rw [hwarned] at hhurried
  rw [hunwarned] at hpatient
  have hbase : base = patient.state.records := by
    cases hpatient
    rfl
  have hsame : patient.state = { hurried.state with
      warned := patient.state.warned, records := patient.state.records } := hstate
  refine ⟨hrequests, hremarks, houtcome, ?_, ?_, ?_⟩
  · rw [hsame]
  · rw [hsame]
  · rw [← hbase]
    exact hhurried

end Rejoin.Turn
