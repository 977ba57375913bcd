import Rejoin.Proofs.Json.Reading
import Rejoin.Proofs.Repair.Search

/-!
What a repair keeps. A text that breaks off behind a complete element is a place where it can be
cut, whatever comes behind it, and the repair cuts at the last such place. So nothing that was
complete is lost.
-/

namespace Rejoin

open Text

namespace Json

theorem isVisible_of_startsElement {c : Char} (hc : startsElement c = true) : isVisible c = true := by
  simp only [startsElement, Bool.or_eq_true, decide_eq_true_eq] at hc
  rcases hc with (rfl | rfl) | rfl <;> rfl

theorem isVisible_of_endsElement {c : Char} (hc : endsElement c = true) : isVisible c = true := by
  simp only [endsElement, Bool.or_eq_true, decide_eq_true_eq] at hc
  rcases hc with (rfl | rfl) | rfl <;> rfl

variable [Limits]

/-- Where a text can be cut, the last cut is there or later. -/
theorem exists_le_lastCutBelow? {t : List Char} {n i : Nat} (hi : i < n) (hcut : isCut t i = true) :
    ∃ j, i ≤ j ∧ lastCutBelow? t n = some j := by
  induction n with
  | zero => cases hi
  | succ n ih =>
    by_cases hlast : isCut t n = true
    · exact ⟨n, Nat.le_of_lt_succ hi, if_pos hlast⟩
    · have hne : i ≠ n := by
        rintro rfl
        exact hlast hcut
      obtain ⟨j, hle, hj⟩ := ih (by omega)
      exact ⟨j, hle, (if_neg hlast).trans hj⟩

theorem exists_le_lastCut? {t : List Char} {i : Nat} (hcut : isCut t i = true) :
    ∃ j, i ≤ j ∧ lastCut? t = some j :=
  exists_le_lastCutBelow? (lt_length_of_isCut hcut) hcut

/-- Behind an open text is a place to cut, whatever comes next. -/
theorem isCut_append {p : List Char} (hp : IsOpenText Limits.depth p) (u : List Char) :
    isCut (p ++ u) (p.length - 1) = true := by
  have hvalid := isValid_close_of_isOpenText hp
  obtain ⟨first, middle, last, rfl, _, hends⟩ := hp.exists_ends
  have hlength : (first :: (middle ++ [last])).length - 1 = middle.length + 1 := by
    simp
  have htake : (first :: (middle ++ [last]) ++ u).take (middle.length + 1 + 1) =
      first :: (middle ++ [last]) := by
    rw [List.take_append_of_le_length (by simp), List.take_of_length_le (by simp)]
  have hget : (first :: (middle ++ [last]) ++ u)[middle.length + 1]? = some last := by
    rw [List.getElem?_append_left (by simp)]
    simp
  rw [isCut, hlength, htake, hget, hvalid, Option.any_some, hends]
  simp

/-- Trimming a text that starts with an open one leaves that one as it is. -/
theorem trim_append_of_isOpenText {n : Nat} {p : List Char} (hp : IsOpenText n p) (w : List Char) :
    trim (p ++ w) = p ++ trimRight w := by
  obtain ⟨first, middle, last, rfl, hstarts, hends⟩ := hp.exists_ends
  have hlast : (first :: (middle ++ [last])).getLast? = some last := by
    rw [← List.cons_append, List.getLast?_concat]
  exact trim_append rfl hlast (not_isBlank_of_isVisible (isVisible_of_startsElement hstarts))
    (not_isBlank_of_isVisible (isVisible_of_endsElement hends)) w

end Json

namespace Repair

/-- The plain search keeps an open text that the text starts with. -/
theorem prefix_plain [Json.Limits] {p : List Char} (hp : Json.IsOpenText Json.Limits.depth p)
    (w : List Char) :
    (plain (p ++ w)).1 ≠ .failed ∧ p <+: (plain (p ++ w)).2 := by
  obtain ⟨j, hle, hj⟩ := Json.exists_le_lastCut? (Json.isCut_append hp (trimRight w))
  have htrim := Json.trim_append_of_isOpenText hp w
  obtain ⟨first, middle, last, hends, hstarts, _⟩ := hp.exists_ends
  have hblank : p ++ trimRight w ≠ [] := by
    rw [hends]
    exact List.cons_ne_nil _ _
  have hhead : (p ++ trimRight w).head?.any Json.startsElement = true := by
    rw [hends]
    exact hstarts
  -- the text is a document as it stands, or closes to one, or is cut behind `p` or later
  rw [plain, htrim, if_neg hblank]
  split
  · exact ⟨(by decide : Status.notNeeded ≠ .failed), List.prefix_append p w⟩
  rw [hhead, Bool.not_true, if_neg Bool.false_ne_true]
  split
  · refine ⟨(by decide : Status.recovered ≠ .failed), ?_⟩
    rw [Json.close, List.append_assoc]
    exact List.prefix_append p _
  rw [hj]
  refine ⟨(by decide : Status.partially ≠ .failed), ?_⟩
  have htake : p <+: (p ++ trimRight w).take (j + 1) := by
    rw [List.prefix_take_iff]
    exact ⟨List.prefix_append p _, by omega⟩
  exact htake.trans (List.prefix_append _ _)

/-- A repair keeps every element that is complete. Whatever follows a text that ends with a complete
string, array or object, in containers that are still open and whose earlier items are complete, the
repair does not fail, and it ends with a document that starts with all of that text. -/
theorem prefix_content_json [Json.Limits] {p : List Char}
    (hp : Json.IsOpenText Json.Limits.depth p) (w : List Char) :
    (json (some (p ++ w))).status ≠ .failed ∧ p <+: (json (some (p ++ w))).content ∧
      Json.isValid (json (some (p ++ w))).content = true := by
  obtain ⟨hstatus, hprefix⟩ := prefix_plain hp w
  have hplain := status_content_json (p ++ w)
  have hsame : (json (some (p ++ w))).status = (plain (p ++ w)).1 := congrArg Prod.fst hplain
  have hcontent : (json (some (p ++ w))).content = (plain (p ++ w)).2 := congrArg Prod.snd hplain
  rw [← hsame] at hstatus
  rw [← hcontent] at hprefix
  exact ⟨hstatus, hprefix, isValid_content_json hstatus⟩

/-- Nothing is lost of a list in a member, whatever closes or opens behind it. -/
theorem prefix_content_json_of_member :
    let p := ['{', '"', 'a', '"', ':', '[', '1', ',', '"', 'x', '"']
    let w := ['}', ']', ',', '"']
    Json.IsOpenText Json.Limits.depth p ∧ (json (some (p ++ w))).status ≠ .failed ∧
      p <+: (json (some (p ++ w))).content ∧
        Json.isValid (json (some (p ++ w))).content = true := by
  intro p w
  have hwhole : Json.IsWholePart ['1'] := .digits rfl (by decide) rfl
  have hnumber : Json.IsNumber ([] ++ (['1'] ++ ([] ++ []))) :=
    .mk (.inl rfl) hwhole .absent .absent fun _ _ => by decide
  have hkey : Json.IsString ['"', 'a', '"'] :=
    .mk (.plain (by decide) (by decide) (by decide) .quote)
  have hstring : Json.IsString ['"', 'x', '"'] :=
    .mk (.plain (by decide) (by decide) (by decide) .quote)
  have hlead : Json.IsLead .object ([] ++ (['"', 'a', '"'] ++ ([] ++ ':' :: []))) :=
    .member rfl hkey rfl rfl
  have hnone : Json.IsLead .array [] := .element rfl
  have hitems : Json.IsItemsBefore .array 988 ([] ++ (['1'] ++ ([] ++ ',' :: []))) :=
    .cons hnone (.number hnumber) rfl .nil
  have hlist : Json.IsOpenText 989 ('[' :: (['1', ','] ++ ([] ++ ['"', 'x', '"']))) :=
    .inside .array hitems hnone (.element (.string hstring))
  have hp : Json.IsOpenText Json.Limits.depth p := .inside .object .nil hlead hlist
  exact ⟨hp, prefix_content_json hp w⟩

end Repair

end Rejoin
