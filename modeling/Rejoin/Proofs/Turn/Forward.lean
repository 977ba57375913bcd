import Rejoin.Proofs.Turn.Signal

/-!
A turn goes forward. Whatever its signal does, no step goes back in time or takes back a request: a
request is sent at the instant at which the round has come to it, once and with the messages that ask
for the next continuation, and all that follows comes later.
-/

namespace Rejoin.Turn

variable {t : Turn} {d : Detector} {s : State} {p q r : Progress}

/-- The instant that a turn has come to. -/
def Progress.now : Progress → Instant
  | .pending s => s.now
  | .ended report => report.state.now

/-- The requests that a turn sent so far. -/
def Progress.requests : Progress → List Request
  | .pending s => s.requests
  | .ended report => report.state.requests

/-- Whether a turn can have come from one point to another. -/
structure Progress.Precedes (p q : Progress) : Prop where
  now : p.now ≤ q.now
  requests : p.requests <+: q.requests

theorem Progress.Precedes.refl (p : Progress) : p.Precedes p := ⟨le_refl _, List.prefix_rfl⟩

theorem Progress.Precedes.trans (h : p.Precedes q) (hnext : q.Precedes r) : p.Precedes r :=
  ⟨h.now.trans hnext.now, h.requests.trans hnext.requests⟩

/-- What is reported on the way changes neither the time nor the requests. -/
theorem Progress.Precedes.of_eq {next : State} (h : (pending next).Precedes p)
    (hnow : next.now = s.now) (hrequests : next.requests = s.requests) :
    (pending s).Precedes p := by
  have hsame : (pending s).Precedes (pending next) :=
    ⟨le_of_eq hnow.symm, [], (List.append_nil _).trans hrequests.symm⟩
  exact hsame.trans h

section Ends

variable (s)

theorem now_finish [Json.Limits] (t : Turn) (phase : Phase) :
    (t.finish s phase).state.now = s.now := by
  unfold finish
  dsimp only
  split <;> split <;> rfl

theorem now_fail (f : Failure) : (fail s f).state.now = s.now := by
  unfold fail
  split
  · split <;> rfl
  · rfl

theorem requests_fail (f : Failure) : (fail s f).state.requests = s.requests := by
  unfold fail
  split
  · split <;> rfl
  · rfl

theorem requests_remark (t : Turn) : (t.remark s).requests = s.requests :=
  (sameExchange_remark t s).requests

theorem now_receive (a : Awaited (Option Response)) : (receive s (some a)).now = a.at_ := by
  unfold receive
  dsimp only
  split
  · rfl
  · exact now_fail _ _
  · rfl

theorem requests_receive (a : Option (Awaited (Option Response))) :
    (receive s a).requests = s.requests := by
  unfold receive
  split
  · dsimp only
    split
    · rfl
    · exact requests_fail _ _
    · rfl
  · rfl

/-- An answer comes no earlier than its request was sent. -/
theorem le_now_receive {a : Option (Awaited (Option Response))}
    (ha : ∀ x, a = some x → s.now ≤ x.at_) : s.now ≤ (receive s a).now := by
  cases a with
  | none => exact le_refl _
  | some a =>
    rw [now_receive]
    exact ha a rfl

theorem precedes_finish [Json.Limits] (t : Turn) (phase : Phase) :
    (Progress.pending s).Precedes (.ended (t.finish s phase)) := by
  refine ⟨le_of_eq (now_finish s t phase).symm, ?_⟩
  exact ⟨[], (List.append_nil _).trans (requests_finish t s phase).symm⟩

end Ends

/-- Every request asks for the continuation of the latest response, at once. -/
theorem requests_request (t : Turn) (s : State) :
    (t.request s).requests =
      s.requests ++ [⟨s.now, requestFor t.policy t.messages s.latest⟩] := by
  unfold request
  dsimp only
  split
  · exact requests_fail _ _
  · exact requests_receive _ _

theorem precedes_request (t : Turn) (s : State) :
    (Progress.pending s).Precedes (t.request s) := by
  refine ⟨?_, requests_request t s ▸ List.prefix_append _ _⟩
  unfold request
  dsimp only
  split
  · exact le_of_eq (now_fail (t.sent s _) _).symm
  · exact le_now_receive (t.sent s _) fun a ha => Race.le_at_of_await ha

theorem le_pauseEnd {e : Instant} (hend : t.pauseEnd s = some e) : s.now ≤ e := by
  rw [pauseEnd] at hend
  split at hend
  · exact (Number.le_of_after? hend).1
  · cases hend
    exact le_refl _

theorem le_until_pause {w : Waited} (hpause : t.pause s = some w) : s.now ≤ w.until_ := by
  unfold pause at hpause
  split at hpause
  · exact le_until_wait (fun e he => le_pauseEnd he) hpause
  · cases hpause
    exact le_refl _

/-- A wait that ends no earlier than it starts takes a turn forward. -/
theorem precedes_goOn {w : Option Waited} (hw : ∀ x, w = some x → s.now ≤ x.until_) :
    (Progress.pending s).Precedes (t.goOn s w) := by
  cases w with
  | none => exact ⟨le_refl _, List.prefix_rfl⟩
  | some w =>
    obtain ⟨fault, at_⟩ := w
    have hstart : s.now ≤ at_ := hw _ rfl
    cases fault with
    | some fault => exact ⟨hstart, List.prefix_rfl⟩
    | none =>
      refine Progress.Precedes.trans ⟨?_, [], ?_⟩ (precedes_request t (t.remark { s with now := at_ }))
      · change s.now ≤ (t.remark _).now
        rw [now_remark]
        exact hstart
      · exact (List.append_nil _).trans (requests_remark { s with now := at_ } t).symm

variable [Json.Limits]

theorem precedes_round (t : Turn) (s : State) : (Progress.pending s).Precedes (t.round s) := by
  unfold round
  split
  · exact precedes_finish s t _
  split
  · exact ⟨le_refl _, List.prefix_rfl⟩
  split
  · exact (precedes_finish _ t _).of_eq rfl rfl
  · exact precedes_goOn fun w hpause => le_until_pause hpause

theorem precedes_resume (t : Turn) (s : State) (v : Verdict) :
    (Progress.pending s).Precedes (t.resume s v) := by
  unfold resume
  dsimp only
  split
  · exact ⟨le_refl _, List.prefix_rfl⟩
  · exact (precedes_round t _).of_eq rfl rfl
  · exact (precedes_finish _ t _).of_eq rfl rfl
  · exact (precedes_round t _).of_eq rfl rfl

theorem precedes_drive (t : Turn) (d : Detector) (judged left : Nat) (p : Progress) :
    p.Precedes (.ended (t.drive d judged left p)) :=
  drive_of_step (P := p.Precedes) (fun s v hs => hs.trans (precedes_resume t s v))
    (fun s hs => hs.trans (precedes_finish s t .continuing)) (.refl p) judged left

/-- A turn carried on keeps the requests that it sent. -/
theorem prefix_requests_drive (t : Turn) (d : Detector) (judged left : Nat) (p : Progress) :
    p.requests <+: (t.drive d judged left p).state.requests :=
  (precedes_drive t d judged left p).requests

end Rejoin.Turn
