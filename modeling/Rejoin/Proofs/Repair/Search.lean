import Mathlib.Order.Bounds.Defs
import Rejoin.Proofs.Json.Document
import Rejoin.Proofs.Json.Leading

/-!
The cut of a JSON text, as a plain search would find it: every prefix is closed anew, from the
longest to the shortest, until one closes to a document. The repair finds the same cut with less
work: a leading value decides at once, and otherwise one pass of the scan finds the closing texts of
all prefixes before they are tried from the right.
-/

namespace Rejoin

open Structure Text

namespace Json

/-- The text cut behind a position, and closed. -/
def cutBehind (t : List Char) (i : Nat) : List Char := close (t.take (i + 1))

/-- The entry of a position among the closing texts, if an element may end there. -/
def closingAt? (t : List Char) (i : Nat) : Option (Nat × List Char) :=
  if decide (0 < i) && t[i]?.any endsElement then some (i, closing (t.take (i + 1))) else none

/-- One pass of the scan finds the closing text of each prefix. -/
theorem filterMap_trail (done rest : List Char) :
    (((Scan.trail .json (Scan.ofText .json done) rest).zip rest).zipIdx done.length).filterMap
        (fun ((scan, c), i) => if 0 < i && endsElement c then some (i, scan.suffix) else none) =
      (List.range' done.length rest.length).filterMap (closingAt? (done ++ rest)) := by
  induction rest generalizing done with
  | nil => rfl
  | cons c rest ih =>
    have hscan : (Scan.ofText .json done).step .json c = Scan.ofText .json (done ++ [c]) := by
      rw [Scan.ofText, Scan.ofText, Scan.run_append, Scan.run_cons, Scan.run_nil]
    have htake : (done ++ c :: rest).take (done.length + 1) = done ++ [c] := by
      rw [List.append_cons, List.take_left' (by simp)]
    have hentry : closingAt? (done ++ c :: rest) done.length =
        if 0 < done.length && endsElement c then
          some (done.length, (Scan.ofText .json (done ++ [c])).suffix)
        else none := by
      rw [closingAt?, htake, List.getElem?_append_right (Nat.le_refl _)]
      simp only [Nat.sub_self, List.getElem?_cons_zero, Option.any_some, closing]
    have hrest := ih (done ++ [c])
    rw [List.length_append, List.length_singleton, ← List.append_cons] at hrest
    rw [Scan.trail, List.zip_cons_cons, List.zipIdx_cons, List.length_cons, List.range'_succ,
      List.filterMap_cons, List.filterMap_cons, hscan, hentry, hrest]

theorem closings_eq (t : List Char) : closings t = (List.range t.length).filterMap (closingAt? t) := by
  rw [List.range_eq_range']
  exact filterMap_trail [] t

/-- The states of one scan hold the closing text of every prefix. -/
theorem suffix_trail {t : List Char} {i : Nat} (hi : i < t.length) :
    (Scan.trail .json (.start .json) t)[i]?.map Scan.suffix = some (closing (t.take (i + 1))) := by
  rw [Scan.getElem?_trail hi]
  rfl

variable [Limits]

/-- Whether the text can be cut behind a position: an element may end there, the text up to there
    closes to a document, and the position is not the first. -/
def isCut (t : List Char) (i : Nat) : Bool :=
  decide (0 < i) && t[i]?.any endsElement && isValid (close (t.take (i + 1)))

/-- The last position below a bound behind which the text can be cut. -/
def lastCutBelow? (t : List Char) : Nat → Option Nat
  | 0 => none
  | n + 1 => if isCut t n then some n else lastCutBelow? t n

/-- The last position behind which the text can be cut. -/
def lastCut? (t : List Char) : Option Nat := lastCutBelow? t t.length

theorem lastCutBelow?_eq_some_iff {t : List Char} {n i : Nat} :
    lastCutBelow? t n = some i ↔ IsGreatest {j | j < n ∧ isCut t j = true} i := by
  induction n with
  | zero => exact ⟨nofun, fun h => absurd h.1.1 (Nat.not_lt_zero i)⟩
  | succ n ih =>
    rw [lastCutBelow?]
    split
    · next hcut =>
      constructor
      · intro h
        cases h
        exact ⟨⟨Nat.lt_succ_self _, hcut⟩, fun j hj => Nat.le_of_lt_succ hj.1⟩
      · intro hgreatest
        have hle : n ≤ i := hgreatest.2 ⟨Nat.lt_succ_self n, hcut⟩
        have hlt : i < n + 1 := hgreatest.1.1
        rw [show n = i by omega]
    · next hcut =>
      rw [ih]
      have hsame : {j | j < n + 1 ∧ isCut t j = true} = {j | j < n ∧ isCut t j = true} := by
        ext j
        constructor
        · rintro ⟨hlt, hj⟩
          refine ⟨Nat.lt_of_le_of_ne (Nat.le_of_lt_succ hlt) ?_, hj⟩
          rintro rfl
          exact hcut hj
        · rintro ⟨hlt, hj⟩
          exact ⟨Nat.lt_succ_of_lt hlt, hj⟩
      rw [hsame]

theorem lt_length_of_isCut {t : List Char} {i : Nat} (hcut : isCut t i = true) : i < t.length := by
  simp only [isCut, Bool.and_eq_true, Option.any_eq_true] at hcut
  obtain ⟨⟨_, c, hc, _⟩, _⟩ := hcut
  exact (List.getElem?_eq_some_iff.1 hc).1

/-- The search from the right finds the greatest position behind which the text can be cut. -/
theorem lastCut?_eq_some_iff {t : List Char} {i : Nat} :
    lastCut? t = some i ↔ IsGreatest {j | isCut t j = true} i := by
  rw [lastCut?, lastCutBelow?_eq_some_iff]
  have hsame : {j | j < t.length ∧ isCut t j = true} = {j | isCut t j = true} := by
    ext j
    exact ⟨fun h => h.2, fun h => ⟨lt_length_of_isCut h, h⟩⟩
  rw [hsame]

/-- The reader reads every text up to a cut. -/
theorem exists_run_of_isCut {t : List Char} {i : Nat} (hcut : isCut t i = true) :
    ∃ r, Reader.start.run (t.take (i + 1)) = some r := by
  simp only [isCut, Bool.and_eq_true] at hcut
  have hvalid := hcut.2
  rw [close, isValid_append, Option.any_eq_true] at hvalid
  obtain ⟨r, hrun, _⟩ := hvalid
  exact ⟨r, hrun⟩

/-- Trying the closing texts from the right finds the last position behind which the text can be cut. -/
theorem lastClosing?_eq (t : List Char) :
    lastClosing? t = (lastCut? t).map fun i => (i, closing (t.take (i + 1))) := by
  rw [lastClosing?, closings_eq, lastCut?]
  induction t.length with
  | zero => rfl
  | succ n ih =>
    rw [List.range_succ, List.filterMap_append, List.reverse_append, List.find?_append, ih,
      lastCutBelow?]
    rw [isCut, close]
    by_cases hends : (decide (0 < n) && t[n]?.any endsElement) = true
    · have hentry : closingAt? t n = some (n, closing (t.take (n + 1))) := if_pos hends
      rw [List.filterMap_cons_some hentry, hends, Bool.true_and]
      cases hvalid : isValid (t.take (n + 1) ++ closing (t.take (n + 1))) <;> simp [hvalid]
    · have hentry : closingAt? t n = none := if_neg hends
      rw [List.filterMap_cons_none hentry, Bool.eq_false_iff.2 hends, Bool.false_and]
      rfl

/-- Behind a leading value there is nothing left to search: the value itself is the longest prefix
    that closes. -/
theorem lastCut?_of_leadingValueEnd? {t : List Char} {n : Nat}
    (hstart : t.head?.any startsElement = true) (hend : leadingValueEnd? t = some n) :
    lastCut? t = some (n - 1) := by
  obtain ⟨hlong, hread, hends⟩ := leadingValueEnd?_eq_some hstart hend
  have hn : n - 1 + 1 = n := by omega
  rw [lastCut?_eq_some_iff]
  constructor
  · have hpos : 0 < n - 1 := by omega
    change isCut t (n - 1) = true
    simp only [isCut, Bool.and_eq_true, decide_eq_true_eq]
    refine ⟨⟨hpos, hends⟩, ?_⟩
    rw [hn, close, closing_eq_nil_of_run hread, List.append_nil, isValid, Reader.acceptsRest, hread]
    rfl
  · -- behind the value only blanks are read, and a cut is behind a character that is none
    intro i hcut
    by_contra hgreater
    obtain ⟨r, hrun⟩ := exists_run_of_isCut hcut
    have hsplit : t.take (i + 1) = t.take n ++ (t.take (i + 1)).drop n := by
      have htake : (t.take (i + 1)).take n = t.take n := by
        rw [List.take_take, Nat.min_eq_left (by omega)]
      rw [← htake, List.take_append_drop]
    rw [hsplit, Reader.run_append, hread, Option.bind_some] at hrun
    have hblank := Reader.all_isBlank_of_run_finished hrun
    change isCut t i = true at hcut
    simp only [isCut, Bool.and_eq_true, Option.any_eq_true] at hcut
    obtain ⟨⟨_, c, hc, hends⟩, _⟩ := hcut
    have hmember : c ∈ (t.take (i + 1)).drop n := by
      apply List.mem_of_getElem? (i := i - n)
      rw [List.getElem?_drop, Nat.add_sub_cancel' (by omega), List.getElem?_take_of_lt (by omega), hc]
    have hcblank := List.all_eq_true.1 hblank c hmember
    simp only [endsElement, Bool.or_eq_true, decide_eq_true_eq] at hends
    rcases hends with (rfl | rfl) | rfl <;> cases hcblank

/-- Cutting back finds what the search from the right finds. -/
theorem content_cutBack? {t : List Char} (hstart : t.head?.any startsElement = true) :
    (cutBack? t).map Cut.content = (lastCut? t).map (cutBehind t) := by
  rw [cutBack?]
  cases hend : leadingValueEnd? t with
  | some n =>
    obtain ⟨hlong, hread, _⟩ := leadingValueEnd?_eq_some hstart hend
    have hn : n - 1 + 1 = n := by omega
    rw [lastCut?_of_leadingValueEnd? hstart hend]
    simp only [Option.map_some, Cut.content, cutBehind, close, hn, closing_eq_nil_of_run hread]
  | none =>
    dsimp only
    rw [lastClosing?_eq, Option.map_map, Option.map_map]
    rfl

/-- A cut goes through the text, and adds what closes the part that it keeps. -/
theorem cutBack?_eq_some {t : List Char} {cut : Cut} (hstart : t.head?.any startsElement = true)
    (hcut : cutBack? t = some cut) :
    cut.kept ++ cut.dropped = t ∧ cut.closing = closing cut.kept := by
  rw [cutBack?] at hcut
  cases hend : leadingValueEnd? t with
  | some n =>
    obtain ⟨_, hread, _⟩ := leadingValueEnd?_eq_some hstart hend
    rw [hend] at hcut
    cases hcut
    exact ⟨List.take_append_drop n t, (closing_eq_nil_of_run hread).symm⟩
  | none =>
    rw [hend] at hcut
    dsimp only at hcut
    rw [lastClosing?_eq, Option.map_map, Option.map_eq_some_iff] at hcut
    obtain ⟨i, _, rfl⟩ := hcut
    exact ⟨List.take_append_drop (i + 1) t, rfl⟩

end Json

namespace Repair

theorem close_ne_iff {t : List Char} :
    decide (Json.close t ≠ t) = !(Json.closing t).isEmpty := by
  rw [Json.close]
  cases Json.closing t <;> simp

variable [Json.Limits]

/-- The repair of a text as a plain search does it: how it ends, and with which text. A text is
    completed if that makes it a document, and otherwise every prefix is tried, from the right. -/
def plain (t : List Char) : Status × List Char :=
  let trimmed := trim t
  if trimmed = [] then (.failed, [])
  else if Json.isValid t then (.notNeeded, t)
  else if !trimmed.head?.any Json.startsElement then (.failed, [])
  else if Json.close trimmed ≠ trimmed && Json.isValid (Json.close trimmed) then
    (.recovered, Json.close trimmed)
  else match Json.lastCut? trimmed with
    | some i => (.partially, Json.cutBehind trimmed i)
    | none => (.failed, [])

/-- The outcomes of the repair of JSON, each with what was found out about the text. -/
theorem json_cases (t : List Char) :
    (∃ f, json (some t) = .failed f) ∨ json (some t) = .notNeeded t ∨
      (Json.isValid (Json.close (trim t)) = true ∧
        json (some t) = .closed (trim t) (Json.closing (trim t))) ∨
      ∃ cut, Json.isValid t = false ∧ (trim t).head?.any Json.startsElement = true ∧
        (Json.closing (trim t) ≠ [] → Json.isValid (Json.close (trim t)) = false) ∧
        Json.cutBack? (trim t) = some cut ∧ json (some t) = .cutBack cut := by
  rw [json]
  cases trim t with
  | nil => exact .inl ⟨_, rfl⟩
  | cons first rest =>
    dsimp only
    split
    · exact .inr (.inl rfl)
    next hvalid =>
    rw [Bool.not_eq_true] at hvalid
    split
    · exact .inl ⟨_, rfl⟩
    next hstart =>
    rw [Bool.not_eq_true', Bool.not_eq_false] at hstart
    split
    · next hclosed =>
      rw [Bool.and_eq_true] at hclosed
      exact .inr (.inr (.inl ⟨hclosed.2, rfl⟩))
    next hopen =>
    rw [Bool.and_eq_true, not_and, Bool.not_eq_true', List.isEmpty_eq_false_iff,
      Bool.not_eq_true] at hopen
    split
    · next cut hcut => exact .inr (.inr (.inr ⟨cut, hvalid, hstart, hopen, hcut, rfl⟩))
    · exact .inl ⟨_, rfl⟩

/-- A text is cut if it is no document, starts as an element does, and is not completed by what closes
    it. -/
theorem json_eq_cutBack {t : List Char} {cut : Cut} (hcut : json (some t) = .cutBack cut) :
    Json.isValid t = false ∧ (trim t).head?.any Json.startsElement = true ∧
      (Json.closing (trim t) ≠ [] → Json.isValid (Json.close (trim t)) = false) ∧
      Json.cutBack? (trim t) = some cut := by
  obtain ⟨_, hjson⟩ | hjson | ⟨_, hjson⟩ | ⟨_, hnot, hstart, hopen, hback, hjson⟩ := json_cases t <;>
    rw [hjson] at hcut <;> cases hcut
  exact ⟨hnot, hstart, hopen, hback⟩

/-- The repair ends as the plain search does, with the same text. -/
theorem status_content_json (t : List Char) :
    ((json (some t)).status, (json (some t)).content) = plain t := by
  rw [json, plain]
  cases htrim : trim t with
  | nil => rfl
  | cons first rest =>
    dsimp only
    rw [if_neg (List.cons_ne_nil first rest), List.head?_cons, Option.any_some, close_ne_iff,
      ← Json.close]
    split
    · rfl
    split
    · rfl
    next hstart =>
    rw [Bool.not_eq_true', Bool.not_eq_false] at hstart
    split
    · rfl
    have hcut := Json.content_cutBack? (t := first :: rest) hstart
    cases hback : Json.cutBack? (first :: rest) with
    | none =>
      rw [hback, Option.map_none, eq_comm, Option.map_eq_none_iff] at hcut
      rw [hcut]
      rfl
    | some cut =>
      rw [hback, Option.map_some, eq_comm, Option.map_eq_some_iff] at hcut
      obtain ⟨i, hi, hcontent⟩ := hcut
      rw [hi]
      dsimp only
      rw [hcontent]
      rfl

/-- Whatever the plain search ends with, if it does not fail, is a document. -/
theorem isValid_plain {t : List Char} (hstatus : (plain t).1 ≠ .failed) :
    Json.isValid (plain t).2 = true := by
  unfold plain at hstatus ⊢
  dsimp only at hstatus ⊢
  split
  · next hblank => exact absurd (by rw [if_pos hblank]) hstatus
  next hblank =>
  rw [if_neg hblank] at hstatus
  split
  · next hvalid => exact hvalid
  next hvalid =>
  rw [if_neg hvalid] at hstatus
  split
  · next hstart => exact absurd (by rw [if_pos hstart]) hstatus
  next hstart =>
  rw [if_neg hstart] at hstatus
  split
  · next hclosed => exact (Bool.and_eq_true_iff.1 hclosed).2
  next hclosed =>
  rw [if_neg hclosed] at hstatus
  cases hcut : Json.lastCut? (trim t) with
  | none =>
    rw [hcut] at hstatus
    exact absurd rfl hstatus
  | some i =>
    have hlast : Json.isCut (trim t) i = true := (Json.lastCut?_eq_some_iff.1 hcut).1
    exact (Bool.and_eq_true_iff.1 hlast).2

theorem isValid_content_json {t : List Char} (hstatus : (json (some t)).status ≠ .failed) :
    Json.isValid (json (some t)).content = true := by
  have hplain := status_content_json t
  have hend : (json (some t)).status = (plain t).1 := congrArg Prod.fst hplain
  have htext : (json (some t)).content = (plain t).2 := congrArg Prod.snd hplain
  rw [hend] at hstatus
  rw [htext]
  exact isValid_plain hstatus

/-- A document needs no repair. -/
theorem json_of_isValid {t : List Char} (hvalid : Json.isValid t = true) :
    json (some t) = .notNeeded t := by
  rw [json]
  cases htrim : trim t with
  | nil => exact absurd htrim (Json.trim_ne_nil_of_isValid hvalid)
  | cons first rest => exact if_pos hvalid

/-- The repair of a JSON text is that of a plain search which closes every prefix anew, from the
longest to the shortest, and takes the first that closes to a document. Neither the shortcut behind a
leading value nor the closing texts kept from one scan can change the answer. What a repair ends with
is a document unless the repair fails, and as a document it needs no further repair. -/
theorem json_eq_plain_search (t : List Char) :
    ((json (some t)).status, (json (some t)).content) = plain t ∧
    (∀ i, Json.lastCut? (trim t) = some i ↔ IsGreatest {j | Json.isCut (trim t) j = true} i) ∧
    ((trim t).head?.any Json.startsElement = true →
      (Json.cutBack? (trim t)).map Cut.content =
          (Json.lastCut? (trim t)).map (Json.cutBehind (trim t)) ∧
        ∀ n, Json.leadingValueEnd? (trim t) = some n →
          Json.lastCut? (trim t) = some (n - 1) ∧
            Json.cutBehind (trim t) (n - 1) = (trim t).take n) ∧
    (∀ i, i < (trim t).length →
      (Scan.trail .json (.start .json) (trim t))[i]?.map Scan.suffix =
        some (Json.closing ((trim t).take (i + 1)))) ∧
    ((json (some t)).status ≠ .failed →
      Json.isValid (json (some t)).content = true ∧
        json (some (json (some t)).content) = .notNeeded (json (some t)).content) := by
  have hplain := status_content_json t
  refine ⟨hplain, fun i => Json.lastCut?_eq_some_iff, fun hstart => ⟨?_, ?_⟩, ?_, ?_⟩
  · exact Json.content_cutBack? hstart
  · intro n hend
    obtain ⟨hlong, hread, _⟩ := Json.leadingValueEnd?_eq_some hstart hend
    have hn : n - 1 + 1 = n := by omega
    refine ⟨Json.lastCut?_of_leadingValueEnd? hstart hend, ?_⟩
    rw [Json.cutBehind, hn, Json.close, Json.closing_eq_nil_of_run hread, List.append_nil]
  · exact fun i hi => Json.suffix_trail hi
  · intro hstatus
    have hvalid := isValid_content_json hstatus
    exact ⟨hvalid, json_of_isValid hvalid⟩

end Repair

end Rejoin
