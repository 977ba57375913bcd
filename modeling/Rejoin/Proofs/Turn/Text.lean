import Rejoin.Proofs.Stitch.Pieces
import Rejoin.Proofs.Turn.Recovery
import Rejoin.Proofs.Turn.Stopping

/-!
What becomes of the texts that a turn receives. A turn whose first response is truncated has a result
only by being finished, and then its text is the stitched texts of all its responses, repaired. So
nothing that was received is missing from the text, unless the repair says that it dropped something.
-/

namespace Rejoin

open Text

namespace Turn

variable {t : Turn} {s : State}

/-- The stitched texts of some responses. -/
def stitched (responses : List (Option Response)) : List Char :=
  Stitch.combine (responses.map fun r => some (Response.textOf r))

theorem stitched_eq (responses : List (Option Response)) :
    stitched responses = (responses.map Response.textOf).foldl Stitch.join [] := by
  rw [← Stitch.combine_map_some, List.map_map]
  rfl

theorem combine_fragments (s : State) :
    Stitch.combine (s.fragments.map some) = stitched s.responses := by
  rw [stitched_eq, State.fragments, Stitch.combine_map_some, Stitch.foldl_join_filter]

section Results

variable [Json.Limits]

/-- A turn that is finished with a result has the repaired text of all its responses. -/
theorem result_finish {phase : Phase} {result : Result}
    (hresult : (t.finish s phase).outcome = .result result) :
    result.responses = s.responses ∧
      result.text = (Recovered.ofText t.policy (stitched s.responses)).text ∧
      result.repair = (Recovered.ofText t.policy (stitched s.responses)).repair := by
  unfold finish at hresult
  rw [combine_fragments] at hresult
  dsimp only at hresult
  split at hresult
  · cases hresult
  · cases hresult
    refine ⟨?_, rfl, rfl⟩
    dsimp only
    split <;> rfl

/-- Whether a turn can have a result only by being finished: it has asked for something, or it has
    ended so. -/
def Progress.Finishes (t : Turn) : Progress → Prop
  | .pending s => 0 < s.count
  | .ended report =>
    ∀ result, report.outcome = .result result → ∃ s phase, report = t.finish s phase

theorem finishes_finish (t : Turn) (s : State) (phase : Phase) :
    (Progress.ended (t.finish s phase)).Finishes t :=
  fun _ _ => ⟨s, phase, rfl⟩

theorem Resumed.finishes {v : Verdict} {p : Progress} (hs : s.responses ≠ [])
    (htruncated : s.count = 0 → v.diagnosis.isTruncated = true) (hp : Resumed t s v p) :
    p.Finishes t := by
  cases p with
  | pending next =>
    obtain ⟨answer, hresponses⟩ := hp.of_pending
    have hpos := List.length_pos_iff.2 hs
    simp only [Progress.Finishes, State.count, hresponses, List.length_append,
      List.length_singleton]
    omega
  | ended report =>
    intro result hresult
    obtain ⟨hcount, hcomplete, _⟩ | ⟨next, phase, _, hfinish⟩ := hp.of_result hresult
    · rw [htruncated hcount] at hcomplete
      cases hcomplete
    · exact ⟨next, phase, hfinish⟩

/-- A turn that has asked for something has a result only by being finished. -/
theorem finishes_drive {d : Detector} {p : Progress} (hp : p.Finishes t)
    (judged left : Nat) :
    (Progress.ended (t.drive d judged left p)).Finishes t := by
  refine drive_of_step (fun s v hcount => ?_) (fun s _ => finishes_finish t s .continuing) hp
    judged left
  have hresponses : s.responses ≠ [] := by
    rintro hnil
    rw [Progress.Finishes, State.count, hnil] at hcount
    cases hcount
  exact (resumed_resume t s v).finishes hresponses fun hzero => absurd hzero (Nat.ne_of_gt hcount)

/-- Nothing is lost silently: if a turn whose first response is truncated has a result, its text is
that of all its responses, stitched and repaired as the policy says. If the repair does not say that
it drops something, the text has all of it but blanks at either end, with nothing behind but blanks,
closers or a closing fence, and the text of every response is in it. If it does say so, the text is a
document, and what is kept is a part from the start. -/
theorem runFrom_keeps_text {d : Detector} {judged : Nat} {now : Instant}
    {result : Result}
    (htruncated : (d.judge judged (some t.initial)).diagnosis.isTruncated = true)
    (hresult : (t.runFrom d judged now).outcome = .result result) :
    result.text = (Recovered.ofText t.policy (stitched result.responses)).text ∧
    result.repair = (Recovered.ofText t.policy (stitched result.responses)).repair ∧
    Recovered.Keeps (stitched result.responses) result.text result.repair ∧
    (result.isLossy = false →
      ∀ r ∈ result.responses, trim (Response.textOf r) <:+: result.text) := by
  have hfinishes : (Progress.ended (t.runFrom d judged now)).Finishes t := by
    have hfirst := (resumed_resume t (.start t now) (d.judge judged (some t.initial))).finishes
      (List.cons_ne_nil _ _) fun _ => htruncated
    exact finishes_drive hfirst (judged + 1) t.cap
  obtain ⟨s, phase, hfinish⟩ := hfinishes result hresult
  rw [hfinish] at hresult
  obtain ⟨hresponses, htext, hrepair⟩ := result_finish hresult
  rw [← hresponses] at htext hrepair
  have hkeeps := Recovered.keeps_ofText t.policy (stitched result.responses)
  rw [← htext, ← hrepair] at hkeeps
  refine ⟨htext, hrepair, hkeeps, fun hlossless r hr => ?_⟩
  obtain ⟨before, after, _, _, hsplit⟩ := hkeeps.lossless hlossless
  have hfragment : Response.textOf r <:+: stitched result.responses := by
    rw [stitched_eq]
    exact Stitch.infix_foldl_join (List.mem_map_of_mem hr) []
  rw [hsplit]
  exact (trim_infix_trim hfragment).trans (List.infix_append before _ after)

end Results

/-- A list that comes in two pieces and is closed at its end. -/
theorem runFrom_keeps_list :
    let first : Response := .chat (.ofText ['[', '1', ','] none)
    let answer : Response := .chat (.ofText ['2'] none)
    let t : Turn :=
      ⟨.default, [], first,
        fun _ => .accepted false ⟨none, .atOnce, .value (some answer), none, .abandoned⟩, none⟩
    let d : Detector := .scripted [.truncated .tokenLimit "", .complete]
    (d.judge 0 (some t.initial)).diagnosis.isTruncated = true ∧
      ∃ result, (t.runFrom d 0 0).outcome = .result result ∧
        result.responses = [some first, some answer] ∧ result.text = ['[', '1', ',', '2', ']'] ∧
        result.isLossy = false ∧ Recovered.Keeps ['[', '1', ',', '2'] result.text result.repair ∧
        ∀ r ∈ result.responses, trim (Response.textOf r) <:+: result.text := by
  intro first answer t d
  have htruncated : (d.judge 0 (some t.initial)).diagnosis.isTruncated = true := rfl
  let r : Nat → Option Response := fun k => if k = 0 then some first else some answer
  have hundisturbed := isUndisturbed_of_values (t := t) rfl fun _ => ⟨false, _, some answer, rfl, rfl⟩
  have hruns : t.Runs d 5 r :=
    ⟨rfl, rfl, htruncated, fun _ => by decide, not_isCancelled_run hundisturbed d⟩
  have hgoing : ∀ i < 1, ¬ t.StopsAt d 5 r i := by
    rintro i hi (hcap | ⟨hpos, _⟩ | ⟨hpos, _⟩) <;> omega
  obtain ⟨s, hs⟩ := hruns.exists_reaches hgoing (fun k _ =>
    ⟨false, _, rfl, Work.endsAs_of_atOnce rfl⟩)
  obtain ⟨report, result, hended, hends⟩ :=
    hruns.exists_endsAt rfl (.inr (.inl ⟨Nat.le_refl 1, rfl⟩)) hs
  obtain ⟨rfl, _⟩ := hs.run_eq_of_ended hended
  have hresponses : result.responses = [some first, some answer] := hends.responses
  obtain ⟨htext, hrepair, hkeeps, hparts⟩ := runFrom_keeps_text htruncated hends.outcome
  rw [hresponses] at htext hrepair hkeeps
  have hlossless : result.isLossy = false := by
    rw [Result.isLossy, hrepair]
    decide
  refine ⟨htruncated, result, hends.outcome, hresponses, ?_, hlossless, hkeeps, hparts hlossless⟩
  rw [htext]
  decide

end Turn

end Rejoin
