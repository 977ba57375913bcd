import Mathlib.Data.Nat.Find
import Mathlib.Order.Bounds.Defs
import Rejoin.Proofs.Turn.Step

/-!
When a turn stops. The responses alone decide it: a turn stops at the first response that is the last
one its cap allows, that is judged complete, or whose text is too short to count as progress. The
steps of a turn look at the latest text that is not empty, which need not be that of the latest
response; but an older text was the latest one before, and did not stop the turn then.
-/

namespace Rejoin

namespace Number

theorem le_int (a b : Int) : (Number.int a).le (.int b) = decide (a ≤ b) := by
  rw [Bool.eq_iff_iff]
  simp only [le, extent?, Extent.lt, Bool.not_eq_true', decide_eq_false_iff_not, decide_eq_true_eq,
    Rat.not_lt, Rat.intCast_le_intCast]

theorem ceiling?_int (n : Nat) : (Number.int n).ceiling? = some n := by
  simp only [ceiling?, extent?, Rat.ceil_intCast, Int.toNat_natCast]

end Number

namespace Turn

variable {t : Turn} {d : Detector} {r : Nat → Option Response} {s next : State} {M n k : Nat}

theorem cap_of_int (hM : t.policy.maxContinuations = .int M) : t.cap = M := by
  rw [cap, hM, Number.ceiling?_int, Option.getD_some]

theorem hasReachedMax_of_int (hM : t.policy.maxContinuations = .int M) (s : State) :
    t.hasReachedMax s = decide (M ≤ s.count) := by
  rw [hasReachedMax, hM, Number.le_int]
  simp only [Int.ofNat_le]

section Law

/-- Whether a turn stalls at a position: the text there is not empty and is shorter than the policy
    demands, and it is not the first text. -/
def StallsAt (t : Turn) (r : Nat → Option Response) (k : Nat) : Prop :=
  Response.textOf (r k) ≠ [] ∧
    (Number.int (Response.textOf (r k)).length).lt t.policy.minProgress = true ∧
    ∃ i < k, Response.textOf (r i) ≠ []

theorem StallsAt.pos (hstalls : t.StallsAt r k) : 1 ≤ k := by
  obtain ⟨_, _, i, hi, _⟩ := hstalls
  omega

/-- Whether the detector, asked about each response in turn, finds the one at a position
    complete. -/
def isCompleteAt (d : Detector) (r : Nat → Option Response) (k : Nat) : Bool :=
  !(d.judge k (r k)).diagnosis.isTruncated

/-- Whether a turn whose first response is truncated stops at a position: the cap is reached there,
    or the response there is found complete, or the turn stalls. -/
def StopsAt (t : Turn) (d : Detector) (M : Nat) (r : Nat → Option Response) (k : Nat) : Prop :=
  k = M ∨ 1 ≤ k ∧ isCompleteAt d r k = true ∨ 1 ≤ k ∧ t.StallsAt r k

/-- Whether the first calls of the send function are answered with the given responses. -/
def Answers (t : Turn) (r : Nat → Option Response) (n : Nat) : Prop :=
  ∀ k < n, ∃ raises w, t.sender k = .accepted raises w ∧ w.EndsAs (.value (r (k + 1)))

/-- The end of a turn that stops at a position, with what its result tells about the way there. -/
structure EndsAt (d : Detector) (M : Nat) (r : Nat → Option Response) (n : Nat) (report : Report)
    (result : Result) : Prop where
  outcome : report.outcome = .result result
  requests : report.state.requests.length = n
  count : result.count = n
  responses : result.responses = (List.range (n + 1)).map r
  reachedMax : result.reachedMax = decide (n = M)
  phase : result.phase =
    if 1 ≤ n ∧ isCompleteAt d r n = true then .done
    else if n = M then .maxReached
    else .stalled

end Law

section Texts

/-- The texts of the first responses, those without text left out. -/
def texts (r : Nat → Option Response) (n : Nat) : List (List Char) :=
  (((List.range n).map r).map Response.textOf).filter (!·.isEmpty)

theorem texts_succ (r : Nat → Option Response) (n : Nat) :
    texts r (n + 1) =
      texts r n ++ if Response.textOf (r n) = [] then [] else [Response.textOf (r n)] := by
  simp only [texts, List.range_succ, List.map_append, List.filter_append, List.map_cons,
    List.map_nil, List.filter_cons, List.filter_nil]
  congr 1
  by_cases hempty : Response.textOf (r n) = [] <;> simp [hempty]

theorem texts_eq_nil_iff : texts r n = [] ↔ ∀ i < n, Response.textOf (r i) = [] := by
  simp [texts, List.filter_eq_nil_iff]

/-- Whether the latest of some texts is shorter than the policy demands, and not the first one. -/
def stallsWith (t : Turn) (fragments : List (List Char)) : Bool :=
  1 < fragments.length &&
    fragments.getLast?.any fun f => (Number.int f.length).lt t.policy.minProgress

/-- Behind a response without text nothing has changed; behind any other only its own text counts. -/
theorem stallsWith_texts_succ (t : Turn) (r : Nat → Option Response) (k : Nat) :
    t.stallsWith (texts r (k + 1)) = true ↔
      t.StallsAt r k ∨ Response.textOf (r k) = [] ∧ t.stallsWith (texts r k) = true := by
  rw [texts_succ]
  by_cases hempty : Response.textOf (r k) = []
  · simp [hempty, StallsAt]
  · have hearlier : 1 < (texts r k ++ [Response.textOf (r k)]).length ↔
        ∃ i < k, Response.textOf (r i) ≠ [] := by
      rw [List.length_append, List.length_singleton, Nat.lt_add_left_iff_pos, List.length_pos_iff,
        Ne, texts_eq_nil_iff]
      simp
    rw [if_neg hempty, stallsWith, List.getLast?_concat, Option.any_some, Bool.and_eq_true,
      decide_eq_true_eq, hearlier]
    simp only [StallsAt, hempty, ne_eq, not_false_eq_true, true_and, false_and, or_false]
    exact and_comm

theorem stallsWith_texts_eq_false (hnot : ∀ i < k, ¬ t.StallsAt r i) :
    t.stallsWith (texts r k) = false := by
  induction k with
  | zero => rfl
  | succ k ih =>
    -- a text older than the latest response was the latest one before, and did not stall the turn
    have hbefore := ih fun i hi => hnot i (Nat.lt_succ_of_lt hi)
    rw [Bool.eq_false_iff, Ne, stallsWith_texts_succ, hbefore]
    rintro (hstalls | ⟨_, hstalls⟩)
    · exact hnot k (Nat.lt_succ_self k) hstalls
    · cases hstalls

end Texts

section Steps

/-- A state behind the first responses, each of which but the initial one was asked for once. -/
structure State.HasReceived (s : State) (r : Nat → Option Response) (k : Nat) : Prop where
  responses : s.responses = (List.range (k + 1)).map r
  requests : s.requests.length = k

theorem State.HasReceived.count_eq (hs : s.HasReceived r k) : s.count = k := by
  rw [count, hs.responses, List.length_map, List.length_range, Nat.add_sub_cancel]

theorem State.HasReceived.latest_eq (hs : s.HasReceived r k) : s.latest = r k := by
  rw [latest, hs.responses, List.range_succ, List.map_append, List.map_singleton,
    List.getLast?_concat]
  rfl

theorem State.HasReceived.of_sameExchange (hs : s.HasReceived r k) (hnext : s.SameExchange next) :
    next.HasReceived r k :=
  ⟨hnext.responses.trans hs.responses, (congrArg _ hnext.requests).trans hs.requests⟩

theorem State.HasReceived.isStalled_eq (hs : s.HasReceived r k) :
    t.isStalled s = t.stallsWith (texts r (k + 1)) := by
  rw [isStalled, fragments, hs.responses]
  rfl

/-- The state behind one more response. -/
theorem State.HasReceived.answered (hs : s.HasReceived r k) (hnext : s.OneSent next) :
    State.HasReceived { next with responses := next.responses ++ [r (k + 1)] } r (k + 1) := by
  refine ⟨?_, ?_⟩
  · rw [hnext.responses, hs.responses, List.range_succ (n := k + 1), List.map_append]
    rfl
  · exact hnext.requests.trans (congrArg (· + 1) hs.requests)

/-- Whether a turn on its way has ended by being cancelled. -/
def Progress.IsCancelled : Progress → Prop
  | .pending _ => False
  | .ended report => report.outcome.IsCancelled

/-- Where nothing stops a turn, it asks for the next response. -/
theorem exists_requested [Json.Limits] {v : Verdict} {p : Progress} (hs : s.HasReceived r k)
    (hcap : k < t.cap) (htruncated : v.diagnosis.isTruncated = true)
    (hstalled : t.isStalled s = false) (hdelay : 0 < k → t.policy.delay.extent? ≠ some .highest)
    (hp : Resumed t s v p) (hcancelled : ¬ p.IsCancelled) :
    ∃ next, next.HasReceived r k ∧ Requested t next p := by
  cases hp with
  | complete _ hcomplete => exact absurd (htruncated.symm.trans hcomplete) (by decide)
  | done _ hcomplete => exact absurd (htruncated.symm.trans hcomplete) (by decide)
  | @rounded middle _ _ hmiddle hp =>
    have hs' := hs.of_sameExchange hmiddle
    cases hp with
    | capped hcapped =>
      rw [hs'.count_eq] at hcapped
      omega
    | cancelled => exact absurd (isCancelled_cancel _ _) hcancelled
    | stalled _ hstalls =>
      rw [hs'.isStalled_eq, ← hs.isStalled_eq, hstalled] at hstalls
      cases hstalls
    | endless _ _ hcount hinfinite =>
      rw [hs'.count_eq] at hcount
      exact absurd hinfinite (hdelay hcount)
    | requested _ _ hnext hp => exact ⟨_, hs'.of_sameExchange hnext, hp⟩

/-- An answered request makes the answer the next response. -/
theorem exists_pending {p : Progress} (hs : s.HasReceived r k)
    (hanswer : ∃ raises w, t.sender k = .accepted raises w ∧ w.EndsAs (.value (r (k + 1))))
    (hp : Requested t s p) (hcancelled : ¬ p.IsCancelled) :
    ∃ next, next.HasReceived r (k + 1) ∧ p = .pending next := by
  obtain ⟨raises, w, hsender, hends, hvalue⟩ := hanswer
  rw [← hs.count_eq] at hsender
  cases hp with
  | refused hcall =>
    rw [hsender] at hcall
    cases hcall
  | cancelled _ _ hfault => exact absurd (isCancelled_fail hfault _) hcancelled
  | answered hcall hending hnext =>
    rw [hsender] at hcall
    cases hcall
    have hanswered := hending.2
    rw [hvalue] at hanswered
    cases hanswered
    exact ⟨_, hs.answered hnext, rfl⟩
  | failed hcall hending | abandoned hcall hending =>
    rw [hsender] at hcall
    cases hcall
    have hother := hending.2
    rw [hvalue] at hother
    cases hother
  | endless hcall hendless =>
    rw [hsender] at hcall
    cases hcall
    exact absurd hendless hends

/-- A request that fails ends the turn with its failure. -/
theorem exists_failed {p : Progress} {f : Failure} (hs : s.HasReceived r k)
    (hfails : (t.sender k).Fails f) (hp : Requested t s p) (hcancelled : ¬ p.IsCancelled) :
    ∃ report, p = .ended report ∧ report.outcome = .failed f ∧
      report.state.requests.length = k + 1 := by
  rw [← hs.count_eq] at hfails
  have hend {g : Failure} {next : State} (hg : g = f) (hnext : s.OneSent next)
      (hnot : ¬ (fail next g).outcome.IsCancelled) :
      ∃ report, Progress.ended (fail next g) = .ended report ∧ report.outcome = .failed f ∧
        report.state.requests.length = k + 1 := by
    refine ⟨_, rfl, ?_, ?_⟩
    · rw [fail_eq hnot, hg]
    · rw [fail_eq hnot, hnext.requests, hs.requests]
  rcases hfails with hrefused | ⟨raises, w, hsender, hends, hfailed⟩
  · cases hp with
    | refused hcall hnext =>
      rw [hrefused] at hcall
      cases hcall
      exact hend rfl hnext hcancelled
    | cancelled hcall | answered hcall | failed hcall | abandoned hcall | endless hcall =>
      rw [hrefused] at hcall
      cases hcall
  · cases hp with
    | refused hcall =>
      rw [hsender] at hcall
      cases hcall
    | cancelled _ _ hfault => exact absurd (isCancelled_fail hfault _) hcancelled
    | failed hcall hending hnext =>
      rw [hsender] at hcall
      cases hcall
      have hanswered := hending.2
      rw [hfailed] at hanswered
      cases hanswered
      exact hend rfl hnext hcancelled
    | answered hcall hending | abandoned hcall hending =>
      rw [hsender] at hcall
      cases hcall
      have hother := hending.2
      rw [hfailed] at hother
      cases hother
    | endless hcall hendless =>
      rw [hsender] at hcall
      cases hcall
      exact absurd hendless hends

end Steps

section Runs

variable [Json.Limits]

/-- A turn carried on until it ends, together with the responses that the detector is asked about. -/
def watch (t : Turn) (d : Detector) (judged : Nat) :
    Nat → Progress → Report × List (Option Response)
  | _, .ended report => (report, [])
  | 0, .pending s => (t.finish s .continuing, [])
  | left + 1, .pending s =>
    let (report, asked) := watch t d (judged + 1) left (t.resume s (d.judge judged s.latest))
    (report, s.latest :: asked)

/-- Watching a turn does not change how it ends. -/
theorem watch_fst (t : Turn) (d : Detector) (judged left : Nat) (p : Progress) :
    (t.watch d judged left p).1 = t.drive d judged left p := by
  induction left generalizing judged p with
  | zero => cases p <;> rfl
  | succ left ih =>
    cases p with
    | ended report => rfl
    | pending s => exact ih _ _

/-- A turn that is run alone, and watched. -/
def watched (t : Turn) (d : Detector) : Report × List (Option Response) :=
  t.watch d 0 (t.cap + 1) (.pending (.start t 0))

/-- The responses that the detector is asked about in a turn that is run alone. -/
def consulted (t : Turn) (d : Detector) : List (Option Response) := (t.watched d).2

theorem watched_fst (t : Turn) (d : Detector) : (t.watched d).1 = t.run d := watch_fst t d 0 _ _

theorem isCancelled_drive {p : Progress} (hp : p.IsCancelled) (judged left : Nat) :
    (t.drive d judged left p).outcome.IsCancelled := by
  cases p with
  | pending s => exact hp.elim
  | ended report => cases left <;> exact hp

/-- What is given of a turn: its cap, its first response, which is truncated, a delay that ends, if there
    can be one, and that the turn is not cancelled. -/
structure Runs (t : Turn) (d : Detector) (M : Nat) (r : Nat → Option Response) : Prop where
  maxContinuations : t.policy.maxContinuations = .int M
  initial : r 0 = some t.initial
  truncated : (d.judge 0 (r 0)).diagnosis.isTruncated = true
  delay : 1 < M → t.policy.delay.extent? ≠ some .highest
  notCancelled : ¬ (t.run d).outcome.IsCancelled

/-- Whether a turn that is run alone comes to a state behind the first responses, in which the
    detector was asked about all of them but the latest. -/
structure Reaches (t : Turn) (d : Detector) (M : Nat) (r : Nat → Option Response) (k : Nat)
    (s : State) : Prop where
  received : s.HasReceived r k
  le : k ≤ M
  watched : t.watched d =
    Prod.map id ((List.range k).map r ++ ·) (t.watch d k (M + 1 - k) (.pending s))

theorem Reaches.run_eq (hs : t.Reaches d M r k s) :
    t.run d = t.drive d k (M + 1 - k) (.pending s) := by
  rw [← watched_fst, hs.watched, Prod.map_fst, id, watch_fst]

/-- A turn that ends at a judgement has had all responses up to there judged. -/
theorem Reaches.run_eq_of_ended {report : Report} (hs : t.Reaches d M r k s)
    (hended : t.resume s (d.judge k (r k)) = .ended report) :
    t.run d = report ∧ t.consulted d = (List.range (k + 1)).map r := by
  have hwatch : t.watch d k (M + 1 - k) (.pending s) = (report, [r k]) := by
    rw [Nat.succ_sub hs.le, watch, hs.received.latest_eq, hended]
    cases M - k <;> rfl
  have hwatched := hs.watched
  rw [hwatch] at hwatched
  refine ⟨?_, ?_⟩
  · rw [← watched_fst, hwatched]
    rfl
  · rw [consulted, hwatched, List.range_succ, List.map_append]
    rfl

namespace Runs

theorem cap_eq (hruns : t.Runs d M r) : t.cap = M := cap_of_int hruns.maxContinuations

theorem hasReachedMax_eq (hruns : t.Runs d M r) (hs : s.HasReceived r k) :
    t.hasReachedMax s = decide (M ≤ k) := by
  rw [hasReachedMax_of_int hruns.maxContinuations, hs.count_eq]

theorem isTruncated_of_not_complete (hruns : t.Runs d M r)
    (hcomplete : ¬ (1 ≤ k ∧ isCompleteAt d r k = true)) :
    (d.judge k (r k)).diagnosis.isTruncated = true := by
  cases k with
  | zero => exact hruns.truncated
  | succ k =>
    rw [isCompleteAt, Bool.not_eq_true', not_and, Bool.not_eq_false] at hcomplete
    exact hcomplete (Nat.le_add_left 1 k)

/-- A turn that is not cancelled is not cancelled at any of its judgements. -/
theorem not_isCancelled_resume (hruns : t.Runs d M r) (hs : t.Reaches d M r k s) :
    ¬ (t.resume s (d.judge k (r k))).IsCancelled := by
  intro hcancelled
  apply hruns.notCancelled
  rw [hs.run_eq, Nat.succ_sub hs.le, drive, hs.received.latest_eq]
  exact isCancelled_drive hcancelled (k + 1) (M - k)

/-- Where nothing stops a turn it goes on to the next request. -/
theorem exists_requested (hruns : t.Runs d M r) (hgoing : ∀ i ≤ k, ¬ t.StopsAt d M r i)
    (hs : t.Reaches d M r k s) :
    k < M ∧ ∃ next, next.HasReceived r k ∧ Requested t next (t.resume s (d.judge k (r k))) := by
  have hstops := hgoing k (Nat.le_refl k)
  rw [StopsAt, not_or, not_or] at hstops
  obtain ⟨hne, hcomplete, _⟩ := hstops
  have hlt : k < M := Nat.lt_of_le_of_ne hs.le hne
  have hcap : k < t.cap := by
    rw [hruns.cap_eq]
    exact hlt
  have hstalled : t.isStalled s = false := by
    rw [hs.received.isStalled_eq]
    exact stallsWith_texts_eq_false fun i hi hstalls =>
      hgoing i (Nat.le_of_lt_succ hi) (.inr (.inr ⟨hstalls.pos, hstalls⟩))
  exact ⟨hlt, Turn.exists_requested hs.received hcap (hruns.isTruncated_of_not_complete hcomplete)
    hstalled (fun hpos => hruns.delay (by omega)) (resumed_resume t s _)
    (hruns.not_isCancelled_resume hs)⟩

/-- As long as nothing stops a turn and its requests are answered, it receives one response after
    another and has each of them judged. -/
theorem exists_reaches (hruns : t.Runs d M r) (hgoing : ∀ i < k, ¬ t.StopsAt d M r i)
    (hanswers : t.Answers r k) : ∃ s, t.Reaches d M r k s := by
  induction k with
  | zero =>
    refine ⟨.start t 0, ⟨?_, rfl⟩, Nat.zero_le M, ?_⟩
    · exact congrArg (fun first => [first]) hruns.initial.symm
    · rw [Turn.watched, hruns.cap_eq]
      rfl
  | succ k ih =>
    obtain ⟨s, hs⟩ := ih (fun i hi => hgoing i (by omega)) (fun i hi => hanswers i (by omega))
    obtain ⟨hlt, middle, hmiddle, hrequested⟩ :=
      hruns.exists_requested (fun i hi => hgoing i (by omega)) hs
    obtain ⟨next, hnext, hpending⟩ := exists_pending hmiddle (hanswers k (Nat.lt_succ_self k))
      hrequested (hruns.not_isCancelled_resume hs)
    refine ⟨next, hnext, hlt, ?_⟩
    rw [hs.watched, Nat.succ_sub hs.le, watch, hs.received.latest_eq, hpending,
      Nat.add_sub_add_right, List.range_succ, List.map_append]
    simp only [Prod.map, List.append_assoc, List.map_singleton, List.singleton_append]

/-- The end of a turn that stops at a position, by the phase in which it is brought to its end. -/
theorem exists_endsAt_finish (hruns : t.Runs d M r) (hthrow : t.policy.failsAtCap = false)
    (hs : s.HasReceived r n) (hle : n ≤ M) (phase : Phase)
    (hphase : (if n = M ∧ phase = .continuing then .maxReached else phase) =
      if 1 ≤ n ∧ isCompleteAt d r n = true then .done
      else if n = M then .maxReached
      else .stalled) :
    ∃ result, EndsAt d M r n (t.finish s phase) result := by
  obtain ⟨result, hsettled⟩ := exists_settled_finish hthrow s phase
  have hreached : t.hasReachedMax s = decide (n = M) := by
    rw [hruns.hasReachedMax_eq hs, decide_eq_decide]
    omega
  refine ⟨result, hsettled.outcome, ?_, ?_, ?_, ?_, ?_⟩
  · rw [hsettled.requests, hs.requests]
  · rw [hsettled.count, hs.count_eq]
  · rw [hsettled.responses, hs.responses]
  · rw [hsettled.reachedMax, hreached]
  · rw [hsettled.phase, hreached, ← hphase]
    simp only [Bool.and_eq_true, decide_eq_true_eq]

/-- A turn ends where something stops it. -/
theorem exists_endsAt (hruns : t.Runs d M r) (hthrow : t.policy.failsAtCap = false)
    (hstops : t.StopsAt d M r n) (hreach : t.Reaches d M r n s) :
    ∃ report result, t.resume s (d.judge n (r n)) = .ended report ∧
      EndsAt d M r n report result := by
  have hnot := hruns.not_isCancelled_resume hreach
  have hresumed := resumed_resume t s (d.judge n (r n))
  have hs := hreach.received
  have hle := hreach.le
  generalize t.resume s (d.judge n (r n)) = p at hnot hresumed ⊢
  cases hresumed with
  | complete hcount hcomplete =>
    rw [hs.count_eq] at hcount
    subst hcount
    exact absurd (hruns.truncated.symm.trans hcomplete) (by decide)
  | done hcount hcomplete hnext =>
    rw [hs.count_eq] at hcount
    have hcomplete : isCompleteAt d r n = true := by rw [isCompleteAt, hcomplete]; rfl
    obtain ⟨result, hends⟩ := hruns.exists_endsAt_finish hthrow (hs.of_sameExchange hnext) hle .done
      (by rw [if_neg (by simp), if_pos ⟨hcount, hcomplete⟩])
    exact ⟨_, result, rfl, hends⟩
  | rounded htruncated hmiddle hp =>
    have hs' := hs.of_sameExchange hmiddle
    have hcomplete : ¬ (1 ≤ n ∧ isCompleteAt d r n = true) := by
      rw [isCompleteAt, htruncated]
      simp
    cases hp with
    | capped hcapped =>
      rw [hs'.count_eq, hruns.cap_eq] at hcapped
      have heq : n = M := Nat.le_antisymm hle hcapped
      obtain ⟨result, hends⟩ := hruns.exists_endsAt_finish hthrow hs' hle .continuing
        (by rw [if_neg hcomplete, if_pos ⟨heq, rfl⟩, if_pos heq])
      exact ⟨_, result, rfl, hends⟩
    | cancelled => exact absurd (isCancelled_cancel _ _) hnot
    | stalled hcap _ hnext =>
      rw [hs'.count_eq, hruns.cap_eq] at hcap
      obtain ⟨result, hends⟩ := hruns.exists_endsAt_finish hthrow (hs'.of_sameExchange hnext) hle
        .stalled (by rw [if_neg hcomplete, if_neg (by simp), if_neg (Nat.ne_of_lt hcap)])
      exact ⟨_, result, rfl, hends⟩
    | endless hcap hnotStalled | requested hcap hnotStalled =>
      rw [hs'.count_eq, hruns.cap_eq] at hcap
      rcases hstops with heq | hdone | ⟨_, hstalls⟩
      · exact absurd heq (Nat.ne_of_lt hcap)
      · exact absurd hdone hcomplete
      · rw [hs'.isStalled_eq, (stallsWith_texts_succ t r n).2 (.inl hstalls)] at hnotStalled
        cases hnotStalled

end Runs

end Runs

/-- A turn whose first response is truncated, and which is not cancelled, stops at the first response
that reaches its cap, that is found complete, or whose text makes it stall, and nowhere else, unless its
delay is infinite and it may ask twice: then it may wait for ever before a request. By the time it stops
it has asked for every response but the first once, each of them was judged once, in turn, and the
result tells where and why it stopped. If a request fails before anything stops the turn, the turn
ends with that failure. -/
theorem run_stops_at_first [Json.Limits] {t : Turn} {d : Detector} {M : Nat}
    {r : Nat → Option Response} (hcap : t.policy.maxContinuations = .int M)
    (hthrow : t.policy.failsAtCap = false) (hinitial : r 0 = some t.initial)
    (htruncated : (d.judge 0 (r 0)).diagnosis.isTruncated = true)
    (hdelay : 1 < M → t.policy.delay.extent? ≠ some .highest)
    (hcancelled : ¬ (t.run d).outcome.IsCancelled) :
    (∃ n ≤ M, IsLeast {k | t.StopsAt d M r k} n) ∧
    (∀ n, IsLeast {k | t.StopsAt d M r k} n → t.Answers r n →
      t.consulted d = (List.range (n + 1)).map r ∧
        ∃ result, EndsAt d M r n (t.run d) result ∧ result.phase ≠ .continuing ∧
          (result.phase = .stalled → result.reachedMax = false)) ∧
    ∀ j f, (∀ k ≤ j, ¬ t.StopsAt d M r k) → t.Answers r j → (t.sender j).Fails f →
      t.consulted d = (List.range (j + 1)).map r ∧ (t.run d).outcome = .failed f ∧
        (t.run d).state.requests.length = j + 1 := by
  have hruns : t.Runs d M r := ⟨hcap, hinitial, htruncated, hdelay, hcancelled⟩
  refine ⟨?_, ?_, ?_⟩
  · classical
    have hexists : ∃ k, t.StopsAt d M r k := ⟨M, .inl rfl⟩
    exact ⟨Nat.find hexists, Nat.find_min' hexists (.inl rfl), Nat.find_spec hexists,
      fun k hk => Nat.find_min' hexists hk⟩
  · rintro n ⟨hstops, hleast⟩ hanswers
    have hgoing (i : Nat) (hi : i < n) : ¬ t.StopsAt d M r i := fun hstops =>
      Nat.not_le_of_lt hi (hleast hstops)
    obtain ⟨s, hs⟩ := hruns.exists_reaches hgoing hanswers
    obtain ⟨report, result, hended, hends⟩ := hruns.exists_endsAt hthrow hstops hs
    obtain ⟨rfl, hconsulted⟩ := hs.run_eq_of_ended hended
    refine ⟨hconsulted, result, hends, ?_, ?_⟩
    · rw [hends.phase]
      split
      · decide
      · split <;> decide
    · rw [hends.phase, hends.reachedMax]
      split
      · nofun
      · split
        · nofun
        · next hne => exact fun _ => decide_eq_false hne
  · intro j f hgoing hanswers hfails
    obtain ⟨s, hs⟩ := hruns.exists_reaches (fun i hi => hgoing i (Nat.le_of_lt hi)) hanswers
    obtain ⟨_, next, hnext, hrequested⟩ := hruns.exists_requested hgoing hs
    obtain ⟨report, hended, houtcome, hrequests⟩ :=
      exists_failed hnext hfails hrequested (hruns.not_isCancelled_resume hs)
    obtain ⟨rfl, hconsulted⟩ := hs.run_eq_of_ended hended
    exact ⟨hconsulted, houtcome, hrequests⟩

/-- A turn that stalls with its third continuation. The first has no text, and the second is long
enough. -/
theorem run_stops_at_third_continuation :
    let texts : List (List Char) := [['a', 'b'], [], List.replicate 12 'c', ['d']]
    let r : Nat → Option Response := fun k => some (.chat (.ofText (texts.getD k []) none))
    let first : Response := .chat (.ofText ['a', 'b'] none)
    let t : Turn :=
      ⟨.default, [], first,
        fun k => .accepted false ⟨none, .atOnce, .value (r (k + 1)), none, .abandoned⟩, none⟩
    let d : Detector := .scripted [.truncated .tokenLimit ""]
    (d.judge 0 (r 0)).diagnosis.isTruncated = true ∧ ¬ (t.run d).outcome.IsCancelled ∧
      IsLeast {k | t.StopsAt d 5 r k} 3 ∧ t.Answers r 3 ∧
        ∃ result, EndsAt d 5 r 3 (t.run d) result ∧ result.phase = .stalled := by
  intro texts r first t d
  have htruncated : (d.judge 0 (r 0)).diagnosis.isTruncated = true := rfl
  have hundisturbed := isUndisturbed_of_values (t := t) rfl fun k => ⟨false, _, r (k + 1), rfl, rfl⟩
  have hcancelled := not_isCancelled_run hundisturbed d
  have hanswers : t.Answers r 3 := fun k _ => ⟨false, _, rfl, Work.endsAs_of_atOnce rfl⟩
  have hcomplete (k : Nat) : isCompleteAt d r k = false := by
    cases k <;> rfl
  have hleast : IsLeast {k | t.StopsAt d 5 r k} 3 := by
    refine ⟨.inr (.inr ⟨by decide, by decide, by decide, 0, by decide, by decide⟩), fun k hstops => ?_⟩
    by_contra hlt
    have hcases : k = 0 ∨ k = 1 ∨ k = 2 := by omega
    rcases hstops with rfl | ⟨_, hfound⟩ | ⟨_, hempty, hshort, _⟩
    · omega
    · rw [hcomplete] at hfound
      cases hfound
    · rcases hcases with rfl | rfl | rfl
      · omega
      · exact hempty rfl
      · exact absurd hshort (by decide)
  obtain ⟨_, result, hends, _⟩ :=
    (run_stops_at_first rfl rfl rfl htruncated (fun _ => by decide) hcancelled).2.1 3 hleast hanswers
  exact ⟨htruncated, hcancelled, hleast, hanswers, result, hends, hends.phase⟩

end Turn

end Rejoin
