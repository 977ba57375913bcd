import Rejoin.Proofs.Turn.Text

/-!
The final response of a turn. A response that is rebuilt with a text has that text and keeps its stop
code, in whatever way it is rebuilt; only the empty text needs care, since a response without text of
its own shows that of its messages. But the final text is empty only if no response had any. So the
final response of a turn agrees with the rest of the result.
-/

namespace Rejoin

open Text

namespace Response

variable {r : Response} {last : Option Response} {text : List Char}

theorem text_eq_nil_iff : r.text = [] ↔ r.ownText = [] ∧ ∀ content ∈ r.contents, content = [] := by
  rw [Response.text]
  split
  · next hown =>
    rw [List.isEmpty_iff] at hown
    cases hfound : r.contents.find? (!·.isEmpty) with
    | none => simpa [hown] using hfound
    | some content =>
      have hcontent := List.find?_some hfound
      have hmem := List.mem_of_find?_eq_some hfound
      simp only [Bool.not_eq_true', List.isEmpty_eq_false_iff] at hcontent
      simp only [Option.getD_some, hcontent, hown, true_and, false_iff]
      exact fun hall => hcontent (hall content hmem)
  · next hown =>
    rw [List.isEmpty_iff] at hown
    simp [hown]

theorem text_of_ownText (hown : r.ownText = text)
    (hcontents : text = [] → ∀ content ∈ r.contents, content = []) : r.text = text := by
  by_cases hempty : text = []
  · rw [text_eq_nil_iff.2 ⟨hown.trans hempty, hcontents hempty⟩, hempty]
  · rw [Response.text, hown, if_neg (by rwa [List.isEmpty_iff])]

theorem text_chat {c : ChatResponse} (hmessages : c.messages = [.assistant text]) :
    (chat c).text = text := by
  apply text_of_ownText
  · rw [ownText, ChatResponse.text, hmessages]
    exact List.append_nil text
  · rintro rfl content hcontent
    rw [contents, hmessages] at hcontent
    exact List.mem_singleton.1 hcontent

/-- A response that is rebuilt has the text it was given, unless that is empty and the messages of the
    response are not. -/
theorem textOf_rebuild (hempty : text = [] → textOf last = []) :
    textOf (some (rebuild last text)) = text := by
  rw [rebuild]
  split
  · next r hr =>
    obtain ⟨given, rfl, hgiven⟩ := Option.bind_eq_some_iff.1 hr
    rw [withText?.eq_def] at hgiven
    cases given with
    | chat c =>
      cases hgiven
      exact text_chat rfl
    | adapter a =>
      obtain ⟨_, hcopy⟩ := Option.ite_none_right_eq_some.1 hgiven
      cases hcopy
      -- the messages of an adapter stay; they are empty if the adapter had no text before
      refine text_of_ownText String.toList_ofList fun htext => ?_
      exact (text_eq_nil_iff.1 (hempty htext)).2
  · exact text_chat rfl

theorem trim_code {code : List Char} (hcode : codeOf? last = some code) :
    trim code = code ∧ code ≠ [] := by
  obtain ⟨r, _, hr⟩ := Option.bind_eq_some_iff.1 hcode
  obtain ⟨f, _, hf⟩ := Option.bind_eq_some_iff.1 hr
  obtain ⟨hne, htrim⟩ := Option.ite_none_left_eq_some.1 hf
  cases htrim
  exact ⟨trim_trim _, fun hnil => hne (List.isEmpty_iff.2 hnil)⟩

/-- A response that is rebuilt keeps its stop code. -/
theorem codeOf?_rebuild (last : Option Response) (text : List Char) :
    codeOf? (some (rebuild last text)) = codeOf? last := by
  rw [rebuild]
  split
  · next r hr =>
    obtain ⟨given, rfl, hgiven⟩ := Option.bind_eq_some_iff.1 hr
    cases given with
    | chat c =>
      cases hgiven
      rfl
    | adapter a =>
      obtain ⟨_, hcopy⟩ := Option.ite_none_right_eq_some.1 hgiven
      cases hcopy
      rfl
  · cases hcode : codeOf? last with
    | none => rfl
    | some code =>
      obtain ⟨htrim, hne⟩ := trim_code hcode
      change (if (trim (String.ofList code).toList).isEmpty then none
        else some (trim (String.ofList code).toList)) = some code
      rw [String.toList_ofList, htrim, if_neg (by rwa [List.isEmpty_iff])]

end Response

/-- No repair makes a text empty. -/
theorem Recovered.eq_nil_of_text_eq_nil [Json.Limits] {p : Policy} {t : List Char}
    (htext : (ofText p t).text = []) : t = [] := by
  obtain hkept | ⟨r, hr, hchanged, hcontent, _⟩ := ofText_cases p t
  · rw [hkept] at htext
    exact htext
  rw [hcontent] at htext
  obtain rfl | rfl := hr
  · have hvalid : Json.isValid (Repair.json (some t)).content = true := by
      apply Repair.isValid_content_json
      intro hfailed
      rw [Repair.isChanged, hfailed] at hchanged
      cases hchanged
    rw [htext] at hvalid
    cases hvalid
  · obtain ⟨_, hfences⟩ := Repair.fences_of_isChanged hchanged
    rw [hfences, Repair.content, Repair.closeFence] at htext
    exact absurd (List.append_eq_nil_iff.1 htext).2 (List.cons_ne_nil _ _)

namespace Turn

variable {t : Turn} {s : State} {result : Result} {last : Option Response}

/-- What the final response of a result has in common with the rest of it: it has the final text, and
    the stop code of the response received last; and if that is a chat response, so is the final one,
    with all but its messages as they were. -/
structure Result.Agrees (result : Result) (last : Option Response) : Prop where
  received : result.responses.getLast? = some last
  text : Response.textOf result.final = result.text
  code : Response.codeOf? result.final = Response.codeOf? last
  chat : ∀ c, last = some (.chat c) → ∃ messages, result.final = some (.chat { c with messages })

theorem agrees_ofComplete (r : Option Response) : (Result.ofComplete r).Agrees r := by
  refine ⟨rfl, rfl, rfl, ?_⟩
  rintro c rfl
  exact ⟨c.messages, rfl⟩

section Results

variable [Json.Limits]

theorem final_finish {phase : Phase}
    (hresult : (t.finish s phase).outcome = .result result) :
    result.final = some (Response.rebuild s.latest result.text) := by
  unfold finish at hresult
  dsimp only at hresult
  split at hresult
  · cases hresult
  · cases hresult
    dsimp only
    split <;> rfl

theorem agrees_finish {phase : Phase} (hlast : s.responses.getLast? = some last)
    (hresult : (t.finish s phase).outcome = .result result) : result.Agrees last := by
  obtain ⟨hresponses, htext, _⟩ := result_finish hresult
  have hfinal := final_finish hresult
  have hlatest : s.latest = last := by
    rw [State.latest, hlast]
    rfl
  rw [hlatest] at hfinal
  refine ⟨by rw [hresponses, hlast], ?_, ?_, ?_⟩
  · rw [hfinal]
    apply Response.textOf_rebuild
    intro hempty
    rw [htext] at hempty
    have hstitched := Recovered.eq_nil_of_text_eq_nil hempty
    rw [stitched_eq] at hstitched
    have hinside := Stitch.infix_foldl_join
      (List.mem_map_of_mem (f := Response.textOf) (List.mem_of_getLast? hlast)) []
    rw [hstitched] at hinside
    exact List.eq_nil_of_infix_nil hinside
  · rw [hfinal, Response.codeOf?_rebuild]
  · rintro c rfl
    exact ⟨_, hfinal⟩

/-- What is kept on the way of a turn, and holds of its result. -/
def Progress.Agrees : Progress → Prop
  | .pending s => s.responses ≠ []
  | .ended report => ∀ result, report.outcome = .result result → ∃ last, result.Agrees last

theorem agrees_finish_of_ne_nil (hs : s.responses ≠ []) (phase : Phase) :
    (Progress.ended (t.finish s phase)).Agrees :=
  fun _ hresult => ⟨_, agrees_finish (List.getLast?_eq_some_getLast hs) hresult⟩

theorem Resumed.agrees {v : Verdict} {p : Progress} (hs : s.responses ≠ [])
    (hp : Resumed t s v p) : p.Agrees := by
  cases p with
  | pending next =>
    obtain ⟨answer, hresponses⟩ := hp.of_pending
    rw [Progress.Agrees, hresponses]
    exact List.concat_ne_nil answer s.responses
  | ended report =>
    intro result hresult
    obtain ⟨_, _, rfl⟩ | ⟨next, phase, hresponses, rfl⟩ := hp.of_result hresult
    · exact ⟨_, agrees_ofComplete _⟩
    · rw [← hresponses] at hs
      exact agrees_finish_of_ne_nil hs phase result hresult

theorem agrees_runFrom (t : Turn) (d : Detector) (judged : Nat) (now : Instant) :
    (Progress.ended (t.runFrom d judged now)).Agrees := by
  have hstart : (Progress.pending (.start t now)).Agrees := List.cons_ne_nil _ _
  exact drive_of_step (fun s v hs => (resumed_resume t s v).agrees hs)
    (fun s hs => agrees_finish_of_ne_nil hs .continuing) hstart judged (t.cap + 1)

/-- The final response agrees with the rest of the result, however a turn comes to have one and
whatever its responses are: its text is the final text, its stop code is that of the response received
last, and of a chat response everything but the messages is carried over. If the first response is
complete, it is itself the final one, nothing was asked for, and the cap is not reached even if there
are no continuations to ask for. -/
theorem runFrom_final_agrees (t : Turn) (d : Detector) (judged : Nat)
    (now : Instant) :
    (∀ result, (t.runFrom d judged now).outcome = .result result → ∃ last, result.Agrees last) ∧
    ((d.judge judged (some t.initial)).diagnosis.isTruncated = false →
      ∃ result, (t.runFrom d judged now).outcome = .result result ∧
        result.final = some t.initial ∧ result.rebuilt = false ∧
        result.responses = [some t.initial] ∧ result.count = 0 ∧ result.reachedMax = false) := by
  refine ⟨agrees_runFrom t d judged now, fun hcomplete => ?_⟩
  have hended : ∃ s, t.resume (.start t now) (d.judge judged (some t.initial)) =
      .ended ⟨.result (.ofComplete (some t.initial)), s⟩ := by
    unfold resume
    dsimp only
    rw [hcomplete]
    exact ⟨_, rfl⟩
  obtain ⟨s, hended⟩ := hended
  have hrun : t.runFrom d judged now = ⟨.result (.ofComplete (some t.initial)), s⟩ := by
    change t.drive d (judged + 1) t.cap (t.resume (.start t now) (d.judge judged (some t.initial))) = _
    rw [hended]
    cases t.cap <;> rfl
  rw [hrun]
  exact ⟨_, rfl, rfl, rfl, rfl, rfl, rfl⟩

end Results

/-- A turn whose continuation is missing, with a first response that rebuilds itself; and the same turn
under a cap of nought, if its first response is found complete. -/
theorem runFrom_final_agrees_without_answer :
    let first : Response := .adapter ⟨.text "ab", none, [.text "cd"], true⟩
    let turn (cap : Nat) : Turn :=
      ⟨{ Policy.default with maxContinuations := .int cap }, [], first,
        fun _ => .accepted false ⟨none, .atOnce, .value none, none, .abandoned⟩, none⟩
    (∃ result last, ((turn 1).runFrom (.scripted [.truncated .tokenLimit ""]) 0 0).outcome =
      .result result ∧ result.count = 1 ∧ result.reachedMax = true ∧ result.Agrees last) ∧
    ((Detector.scripted [.complete]).judge 0 (some first)).diagnosis.isTruncated = false ∧
    ∃ result, ((turn 0).runFrom (.scripted [.complete]) 0 0).outcome = .result result ∧
      result.final = some first ∧ result.rebuilt = false ∧ result.responses = [some first] ∧
      result.count = 0 ∧ result.reachedMax = false := by
  intro first turn
  refine ⟨?_, rfl, (runFrom_final_agrees (turn 0) (.scripted [.complete]) 0 0).2 rfl⟩
  have hends : (match ((turn 1).runFrom (.scripted [.truncated .tokenLimit ""]) 0 0).outcome with
      | .result result => decide (result.count = 1) && result.reachedMax
      | _ => false) = true := by decide +kernel
  cases hresult : ((turn 1).runFrom (.scripted [.truncated .tokenLimit ""]) 0 0).outcome with
  | result result =>
    rw [hresult] at hends
    obtain ⟨hcount, hmax⟩ := (Bool.and_eq_true _ _).mp hends
    obtain ⟨last, hlast⟩ := (runFrom_final_agrees (turn 1) _ 0 0).1 result hresult
    exact ⟨result, last, rfl, of_decide_eq_true hcount, hmax, hlast⟩
  | failed | abandoned | waitsForEver =>
    rw [hresult] at hends
    cases hends

end Turn

end Rejoin
