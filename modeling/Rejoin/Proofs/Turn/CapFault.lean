import Rejoin.Proofs.Turn.Ending
import Rejoin.Proofs.Turn.Text

/-!
Turns for which reaching the cap is a fault, beside the same turns for which it is none. The two go the
same way. They part where the turn ends with as many continuations as its cap allows, and nothing else
counts there: the fault comes also when the last of them was judged complete.
-/

namespace Rejoin.Turn

variable {t : Turn} {d : Detector} {s next : State} {M judged : Nat}

/-- The turn for which reaching the cap is a fault, or is none. -/
def failing (t : Turn) (fails : Bool) : Turn := { t with policy := { t.policy with failsAtCap := fails } }

section Alike

/-- Two ends of a turn, without the fault of the cap and with it. They differ only if the first is a
    result that has reached the cap: then the second is the fault, with the stitched texts of all
    responses. -/
structure Hardens (cap : Number) (plain strict : Report) : Prop where
  requests : strict.state.requests = plain.state.requests
  now : strict.state.now = plain.state.now
  trace : strict.state.trace = plain.state.trace
  below : (∀ r, plain.outcome = .result r → r.reachedMax = false) → strict = plain
  reached : ∀ r, plain.outcome = .result r → r.reachedMax = true →
    strict.outcome = .failed (.fault (.capReached cap r.count (stitched r.responses) r.responses))

/-- Turns that are not finished do not ask whether reaching the cap is a fault. -/
theorem Hardens.refl (cap : Number) {report : Report}
    (hbelow : ∀ r, report.outcome = .result r → r.reachedMax = false) : Hardens cap report report := by
  refine ⟨rfl, rfl, rfl, fun _ => rfl, fun r hr hreached => ?_⟩
  rw [hbelow r hr] at hreached
  cases hreached

/-- The same for turns on their way: they are in the same state, or both have ended. -/
inductive Progress.Hardens (cap : Number) : Progress → Progress → Prop where
  | pending (s : State) : Hardens cap (.pending s) (.pending s)
  | ended {plain strict : Report} (h : Turn.Hardens cap plain strict) :
      Hardens cap (.ended plain) (.ended strict)

theorem Progress.Hardens.refl (cap : Number) {p : Progress}
    (hp : ∀ report, p = .ended report → ∀ r, report.outcome ≠ .result r) : p.Hardens cap p := by
  cases p with
  | pending s => exact .pending s
  | ended report => exact .ended (.refl cap fun r hr => absurd hr (hp report rfl r))

theorem hardens_finish [Json.Limits] (t : Turn) (s : State) (phase : Phase) :
    Hardens t.policy.maxContinuations ((t.failing false).finish s phase)
      ((t.failing true).finish s phase) := by
  have hreached (fails : Bool) : (t.failing fails).hasReachedMax s = t.hasReachedMax s := rfl
  have hrepaired (fails : Bool) : Recovered.ofText (t.failing fails).policy =
    Recovered.ofText t.policy := rfl
  have hfails (fails : Bool) : (t.failing fails).policy.failsAtCap = fails := rfl
  have hcap (fails : Bool) :
    (t.failing fails).policy.maxContinuations = t.policy.maxContinuations := rfl
  unfold finish
  simp only [hreached, hrepaired, hfails, hcap, Bool.and_false, Bool.and_true]
  cases t.hasReachedMax s with
  | false =>
    refine .refl _ fun r hr => ?_
    cases hr
    rfl
  | true =>
    refine ⟨rfl, rfl, rfl, ?_, ?_⟩
    · intro hbelow
      cases hbelow _ rfl
    · intro r hr _
      cases hr
      rw [combine_fragments]
      rfl

theorem hardens_request (t : Turn) (s : State) :
    Progress.Hardens t.policy.maxContinuations ((t.failing false).request s)
      ((t.failing true).request s) := by
  have hsame : (t.failing true).request s = (t.failing false).request s := rfl
  rw [hsame]
  refine .refl _ fun report hended => ?_
  have hp := requested_request (t.failing false) s
  rw [hended] at hp
  exact hp.outcome_ne_result

theorem hardens_cancel (cap : Number) (s : State) (f : Fault) :
    Hardens cap (cancel s f) (cancel s f) :=
  .refl cap fun r hr => nomatch (show Outcome.failed _ = .result r from hr)

theorem hardens_goOn (t : Turn) (s : State) (w : Option Waited) :
    Progress.Hardens t.policy.maxContinuations ((t.failing false).goOn s w)
      ((t.failing true).goOn s w) := by
  have hremark (fails : Bool) (s : State) : (t.failing fails).remark s = t.remark s := rfl
  cases w with
  | none => exact .ended (.refl _ fun r hr => nomatch (show Outcome.waitsForEver = .result r from hr))
  | some w =>
    obtain ⟨fault, at_⟩ := w
    cases fault with
    | some fault => exact .ended (hardens_cancel _ _ fault)
    | none =>
      rw [goOn, goOn, hremark, hremark]
      exact hardens_request t _

variable [Json.Limits]

theorem hardens_round (t : Turn) (s : State) :
    Progress.Hardens t.policy.maxContinuations ((t.failing false).round s)
      ((t.failing true).round s) := by
  have hcap (fails : Bool) : (t.failing fails).cap = t.cap := rfl
  have hstalled (fails : Bool) (s : State) : (t.failing fails).isStalled s = t.isStalled s := rfl
  have hpause (fails : Bool) (s : State) : (t.failing fails).pause s = t.pause s := rfl
  have hmin (fails : Bool) : (t.failing fails).policy.minProgress = t.policy.minProgress := rfl
  unfold round
  simp only [hcap, hstalled, hpause, hmin]
  split
  · exact .ended (hardens_finish t s .continuing)
  split
  · exact .ended (hardens_cancel _ _ _)
  split
  · exact .ended (hardens_finish t _ .stalled)
  · exact hardens_goOn t s _

theorem hardens_resume (t : Turn) (s : State) (v : Verdict) :
    Progress.Hardens t.policy.maxContinuations ((t.failing false).resume s v)
      ((t.failing true).resume s v) := by
  unfold resume
  dsimp only
  split
  · exact .ended (.refl _ fun r hr => by cases hr; rfl)
  · exact hardens_round t _
  · exact .ended (hardens_finish t _ .done)
  · exact hardens_round t _

/-- Both turns are carried on alike. -/
theorem hardens_drive {plain strict : Progress}
    (h : plain.Hardens t.policy.maxContinuations strict) (d : Detector) (judged left : Nat) :
    Hardens t.policy.maxContinuations ((t.failing false).drive d judged left plain)
      ((t.failing true).drive d judged left strict) := by
  induction left generalizing judged plain strict with
  | zero =>
    cases h with
    | pending s => exact hardens_finish t s .continuing
    | ended h => exact h
  | succ left ih =>
    cases h with
    | pending s => exact ih (hardens_resume t s _) (judged + 1)
    | ended h => exact h

end Alike

section Results

/-- What the detector, which has made some judgements before a turn, says of the response that the
    turn received last: whether it is truncated. -/
def Result.isTruncated (d : Detector) (judged : Nat) (r : Result) : Bool :=
  (d.judge (judged + r.count) r.responses.getLast?.join).diagnosis.isTruncated

/-- What a result tells of the cap of its turn. -/
structure Result.Tells (d : Detector) (judged M : Nat) (r : Result) : Prop where
  le : r.count ≤ M
  phase : r.phase =
    if r.isTruncated d judged = false then .done
    else if r.count = M then .maxReached
    else .stalled
  reachedMax : r.reachedMax = true ↔ r.count = M ∧ (0 < r.count ∨ r.isTruncated d judged = true)

/-- Why a turn is finished, by what the detector says of its latest response. -/
inductive Finished (truncated : Bool) (count M : Nat) : Phase → Prop where
  | done (hcomplete : truncated = false) (hcount : 0 < count) : Finished truncated count M .done
  | capped (htruncated : truncated = true) (hcount : count = M) :
      Finished truncated count M .continuing
  | stalled (htruncated : truncated = true) (hcount : count < M) :
      Finished truncated count M .stalled

variable [Json.Limits]

theorem tells_finish (hM : t.policy.maxContinuations = .int M) (hthrow : t.policy.failsAtCap = false)
    (hcount : s.count ≤ M) {phase : Phase}
    (hphase : Finished (d.judge (judged + s.count) s.latest).diagnosis.isTruncated s.count M phase)
    {r : Result} (hresult : (t.finish s phase).outcome = .result r) : r.Tells d judged M := by
  obtain ⟨result, hsettled⟩ := exists_settled_finish hthrow s phase
  obtain rfl : result = r := by
    have hsame := hsettled.outcome.symm.trans hresult
    cases hsame
    rfl
  have hlast : result.isTruncated d judged =
      (d.judge (judged + s.count) s.latest).diagnosis.isTruncated := by
    rw [Result.isTruncated, hsettled.count, hsettled.responses]
    rfl
  have hcapped : M ≤ s.count ↔ s.count = M := by omega
  rw [← hlast] at hphase
  have hend := hsettled.phase
  have hreached := hsettled.reachedMax
  simp only [hasReachedMax_of_int hM s, hcapped] at hend hreached
  refine ⟨hsettled.count ▸ hcount, ?_, ?_⟩
  · rw [hend, hsettled.count]
    cases hphase with
    | done hcomplete => simp [hcomplete]
    | capped htruncated hM => simp [htruncated, hM]
    | stalled htruncated hlt => simp [htruncated, Nat.ne_of_lt hlt]
  · rw [hreached, hsettled.count, decide_eq_true_eq, iff_self_and]
    intro hM
    cases hphase with
    | done _ hpos => exact .inl hpos
    | capped htruncated => exact .inr htruncated
    | stalled htruncated => exact .inr htruncated

/-- A turn that ends with a result at a judgement tells what the judgement was. -/
theorem tells_resume (hM : t.policy.maxContinuations = .int M) (hthrow : t.policy.failsAtCap = false)
    (hcount : s.count ≤ M) {report : Report} {r : Result}
    (hended : t.resume s (d.judge (judged + s.count) s.latest) = .ended report)
    (hresult : report.outcome = .result r) : r.Tells d judged M := by
  have hcap := cap_of_int hM
  have hresumed := resumed_resume t s (d.judge (judged + s.count) s.latest)
  rw [hended] at hresumed
  cases hresumed with
  | complete hzero hcomplete =>
    cases hresult
    have hlast : (Result.ofComplete s.latest).isTruncated d judged = false := by
      rw [← hcomplete, hzero]
      rfl
    refine ⟨Nat.zero_le M, ?_, ?_⟩
    · rw [if_pos hlast]
      rfl
    · rw [hlast]
      simp [Result.ofComplete]
  | @done next hpos hcomplete hnext =>
    rw [← hnext.count_eq] at hpos hcount
    refine tells_finish hM hthrow hcount (.done ?_ hpos) hresult
    rwa [hnext.count_eq, State.latest, hnext.responses]
  | @rounded middle _ htruncated hmiddle hp =>
    have hlatest : (d.judge (judged + middle.count) middle.latest).diagnosis.isTruncated = true := by
      rwa [hmiddle.count_eq, State.latest, hmiddle.responses]
    rw [← hmiddle.count_eq] at hcount
    cases hp with
    | capped hcapped =>
      exact tells_finish hM hthrow hcount (.capped hlatest (by omega)) hresult
    | cancelled | endless => cases hresult
    | @stalled next hlt _ hnext =>
      rw [← hnext.count_eq] at hcount hlt
      refine tells_finish hM hthrow hcount (.stalled ?_ (by omega)) hresult
      rwa [hnext.count_eq, State.latest, hnext.responses]
    | requested _ _ _ hp => exact absurd hresult (hp.outcome_ne_result r)

theorem tells_runFrom (hM : t.policy.maxContinuations = .int M) (hthrow : t.policy.failsAtCap = false)
    {now : Instant} {r : Result} (hresult : (t.runFrom d judged now).outcome = .result r) :
    r.Tells d judged M := by
  have hcap := cap_of_int hM
  refine (ends_runFrom t d judged now).of_step
    (P := fun n s => n = judged + s.count ∧ s.responses ≠ [] ∧ s.count ≤ M)
    (Q := fun report => ∀ r, report.outcome = .result r → r.Tells d judged M) ?_ ?_ ?_ r hresult
  · rintro n s next ⟨rfl, hs, hcount⟩ hnext
    have hlt := lt_cap_of_pending hnext
    obtain ⟨hresponses, hnextCount⟩ := count_of_pending_resume hs hnext
    exact ⟨by omega, hresponses, by omega⟩
  · rintro n s report ⟨rfl, _, hcount⟩ hended r hresult
    exact tells_resume hM hthrow hcount hended hresult
  · exact ⟨rfl, List.cons_ne_nil _ _, Nat.zero_le M⟩

end Results

/-- A turn for which reaching the cap is a fault goes the way of the same turn for which it is none. It
ends in the same way too, unless that one has a result that has reached the cap: then it ends with the
fault, which has the cap, the count, the stitched texts and all responses. A result has reached the cap
if as many continuations as it allows were received, whether the last of them is still truncated or is
complete. -/
theorem runFrom_failing [Json.Limits] (t : Turn) (d : Detector) (judged : Nat) (now : Instant) :
    let plain := (t.failing false).runFrom d judged now
    Hardens t.policy.maxContinuations plain ((t.failing true).runFrom d judged now) ∧
    ∀ M : Nat, t.policy.maxContinuations = .int M → ∀ r, plain.outcome = .result r →
      r.Tells d judged M ∧
        (r.reachedMax = true ↔
          r.phase = .maxReached ∨ r.phase = .done ∧ 0 < r.count ∧ r.count = M) := by
  intro plain
  refine ⟨hardens_drive (.pending (.start t now)) d judged (t.cap + 1), fun M hM r hresult => ?_⟩
  have htells : r.Tells d judged M := tells_runFrom (t := t.failing false) hM rfl hresult
  refine ⟨htells, ?_⟩
  rw [htells.reachedMax, htells.phase]
  cases r.isTruncated d judged with
  | false => simp [and_comm]
  | true =>
    by_cases hcapped : r.count = M <;> simp [hcapped]

/-- A turn that may ask for one continuation, and is answered. -/
def oneContinuation : Turn where
  policy := { Policy.default with maxContinuations := .int 1 }
  messages := []
  initial := .chat (.ofText ['a'] none)
  sender _ :=
    .accepted false ⟨none, .atOnce, .value (some (.chat (.ofText ['b'] none))), none, .abandoned⟩
  signal := none

/-- The responses that the turn receives. -/
def oneContinuation.received (k : Nat) : Option Response :=
  some (.chat (.ofText (if k = 0 then ['a'] else ['b']) none))

theorem stitched_oneContinuation :
    stitched ((List.range (1 + 1)).map oneContinuation.received) = ['a', ' ', 'b'] := by
  decide

theorem exists_endsAt_oneContinuation [Json.Limits] (htruncated :
    (d.judge 0 (some oneContinuation.initial)).diagnosis.isTruncated = true) :
    ∃ r, EndsAt d 1 oneContinuation.received 1 ((oneContinuation.failing false).run d) r := by
  have hundisturbed := isUndisturbed_of_values (t := oneContinuation.failing false) rfl
    fun _ => ⟨false, _, _, rfl, rfl⟩
  have hruns : (oneContinuation.failing false).Runs d 1 oneContinuation.received :=
    ⟨rfl, rfl, htruncated, fun hlt => absurd hlt (Nat.lt_irrefl 1), not_isCancelled_run hundisturbed d⟩
  have hgoing : ∀ i < 1, ¬ (oneContinuation.failing false).StopsAt d 1 oneContinuation.received i := by
    rintro i hi (hcap | ⟨hpos, _⟩ | ⟨hpos, _⟩) <;> omega
  obtain ⟨s, hs⟩ := hruns.exists_reaches hgoing fun k hk => by
    obtain rfl : k = 0 := by omega
    exact ⟨false, _, rfl, Work.endsAs_of_atOnce rfl⟩
  obtain ⟨report, r, hended, hends⟩ := hruns.exists_endsAt rfl (.inl rfl) hs
  obtain ⟨rfl, _⟩ := hs.run_eq_of_ended hended
  exact ⟨r, hends⟩

/-- The one continuation is truncated as well: the fault takes the place of the result. -/
theorem runFrom_failing_of_truncated :
    let d : Detector := .scripted [.truncated .tokenLimit ""]
    ∃ r, ((oneContinuation.failing false).runFrom d 0 0).outcome = .result r ∧
      r.phase = .maxReached ∧ r.Tells d 0 1 ∧
      ((oneContinuation.failing true).runFrom d 0 0).outcome =
        .failed (.fault (.capReached (.int 1) 1 ['a', ' ', 'b'] r.responses)) := by
  intro d
  obtain ⟨r, hends⟩ := exists_endsAt_oneContinuation (d := d) rfl
  obtain ⟨hhardens, hresult⟩ := runFrom_failing oneContinuation d 0 0
  obtain ⟨htells, hreached⟩ := hresult 1 rfl r hends.outcome
  have hphase : r.phase = .maxReached := hends.phase
  have hstrict := hhardens.reached r hends.outcome (hreached.2 (.inl hphase))
  rw [hends.count, hends.responses, stitched_oneContinuation] at hstrict
  refine ⟨r, hends.outcome, hphase, htells, ?_⟩
  rw [hends.responses]
  exact hstrict

/-- The one continuation is complete, and so is the result: the fault takes its place all the same. -/
theorem run_failing_of_complete :
    let d : Detector := .scripted [.truncated .tokenLimit "", .complete]
    ∃ r, ((oneContinuation.failing false).run d).outcome = .result r ∧ r.phase = .done ∧
      r.isTruncated d 0 = false ∧
      ((oneContinuation.failing true).run d).outcome =
        .failed (.fault (.capReached (.int 1) 1 ['a', ' ', 'b'] r.responses)) := by
  intro d
  obtain ⟨r, hends⟩ := exists_endsAt_oneContinuation (d := d) rfl
  have hhardens := hardens_drive (t := oneContinuation) (.pending (.start oneContinuation 0)) d 0
    (oneContinuation.cap + 1)
  have hstrict := hhardens.reached r hends.outcome (by rw [hends.reachedMax]; rfl)
  rw [hends.count, hends.responses, stitched_oneContinuation] at hstrict
  refine ⟨r, hends.outcome, hends.phase, ?_, ?_⟩
  · rw [Result.isTruncated, hends.count, hends.responses]
    rfl
  · rw [hends.responses]
    exact hstrict

end Rejoin.Turn
