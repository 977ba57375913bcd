import Rejoin.Proofs.Json.Move
import Rejoin.Proofs.Structure.Step

/-!
The reader and the bracket scan, side by side on one text. As long as the reader goes on, the scan
has exactly the reader's containers open, and both agree on what is inside a string and what is
escaped. This holds in every dialect that follows JSON text, that of prose among them: its further
quotation marks and brackets stand only inside the strings of such a text.
-/

namespace Rejoin

namespace Structure

open Json

/-- A dialect that can follow JSON text: double quotation marks delimit its strings, it follows the
    brackets of JSON containers, and characters that are no marks mean nothing to it. -/
class Dialect.ReadsJson (d : Dialect) : Prop where
  quotation : d.quotes.contains '"' = true
  opener (k : Container) : d.quotes.contains k.opener = false ∧ d.opens? k.opener = some k.bracket
  closer (k : Container) : d.quotes.contains k.closer = false ∧ d.opens? k.closer = none ∧
    d.closes? k.closer = some k.bracket
  plain {c : Char} (hmark : isMark c = false) : d.quotes.contains c = false ∧
    d.opens? c = none ∧ d.closes? c = none

instance : Dialect.json.ReadsJson where
  quotation := rfl
  opener k := by cases k <;> exact ⟨rfl, rfl⟩
  closer k := by cases k <;> exact ⟨rfl, rfl, rfl⟩
  plain {c} hmark := by
    have hne (m : Char) (hm : isMark m = true) : c ≠ m := ne_of_not_mark hmark hm
    simp [Dialect.json, Dialect.opens?, Dialect.closes?, Bracket.opener, Bracket.closer,
      hne '"' rfl, (hne '{' rfl).symm, (hne '}' rfl).symm, (hne '[' rfl).symm, (hne ']' rfl).symm]

instance : Dialect.prose.ReadsJson where
  quotation := rfl
  opener k := by cases k <;> exact ⟨rfl, rfl⟩
  closer k := by cases k <;> exact ⟨rfl, rfl, rfl⟩
  plain {c} hmark := by
    have hne (m : Char) (hm : isMark m = true) : c ≠ m := ne_of_not_mark hmark hm
    simp [Dialect.prose, Dialect.opens?, Dialect.closes?, Bracket.opener, Bracket.closer,
      hne '"' rfl, hne '\'' rfl, (hne '{' rfl).symm, (hne '}' rfl).symm, (hne '[' rfl).symm,
      (hne ']' rfl).symm, (hne '(' rfl).symm, (hne ')' rfl).symm]

namespace Scan

variable {d : Dialect} [d.ReadsJson] {s : Scan} {c : Char}

/-- Outside strings the scan passes over characters that are no marks. -/
theorem step_of_not_mark (hescaped : s.escaped = false) (hquote : s.quote = none)
    (hmark : isMark c = false) : s.step d c = s := by
  obtain ⟨hquotes, hopens, hcloses⟩ := Dialect.ReadsJson.plain (d := d) hmark
  rw [step_outside hescaped hquote (ne_of_not_mark hmark rfl), hquotes, hopens, hcloses,
    if_neg Bool.false_ne_true]

theorem step_quotation (hescaped : s.escaped = false) (hquote : s.quote = none) :
    s.step d '"' = { s with quote := some '"' } := by
  rw [step_outside hescaped hquote (by decide), if_pos Dialect.ReadsJson.quotation]

theorem step_opener (hescaped : s.escaped = false) (hquote : s.quote = none) (k : Container) :
    s.step d k.opener = s.opening k.bracket := by
  obtain ⟨hquotes, hopens⟩ := Dialect.ReadsJson.opener (d := d) k
  rw [step_outside hescaped hquote (by cases k <;> decide), hquotes, hopens,
    if_neg Bool.false_ne_true]

theorem step_closer (hescaped : s.escaped = false) (hquote : s.quote = none) (k : Container) :
    s.step d k.closer = s.closing k.bracket := by
  obtain ⟨hquotes, hopens, hcloses⟩ := Dialect.ReadsJson.closer (d := d) k
  rw [step_outside hescaped hquote (by cases k <;> decide), hquotes, hopens, hcloses,
    if_neg Bool.false_ne_true]

end Scan

end Structure

namespace Json

open Structure

namespace Reader

/-- The scan of a text knows of a reader's state: the containers that are open, whether a string is
    open, and whether the next character is escaped. -/
structure Agrees (r : Reader) (s : Scan) : Prop where
  fits : r.Fits
  pending : s.pending = r.frames.map Container.bracket
  quote : s.quote = if r.mode.isString then some '"' else none
  escaped : s.escaped = r.mode.isEscaped

variable {d : Dialect} [d.ReadsJson] {r next : Reader} {s : Scan} {c : Char}

/-- Between strings the scan has no string open, and nothing is escaped. -/
theorem Agrees.outside (hagree : Agrees r s) (hout : r.mode.isString = false) :
    s.escaped = false ∧ s.quote = none := by
  refine ⟨hagree.escaped.trans (Mode.isEscaped_of_not_isString hout), hagree.quote.trans ?_⟩
  rw [hout]
  rfl

private theorem agrees_of_outside (hfits : r.Fits) (hout : r.mode.isString = false)
    (hpending : s.pending = r.frames.map Container.bracket) (hquote : s.quote = none)
    (hescaped : s.escaped = false) : Agrees r s := by
  refine ⟨hfits, hpending, hquote.trans ?_, hescaped.trans ?_⟩
  · rw [hout]
    rfl
  · exact (Mode.isEscaped_of_not_isString hout).symm

/-- Inside a string the scan has a string open. -/
theorem Agrees.inside {isKey : Bool} {part : StringPart} (hagree : Agrees r s)
    (hmode : r.mode = .string isKey part) : s.quote = some '"' := by
  rw [hagree.quote, hmode]
  rfl

private theorem agrees_of_inside {isKey : Bool} {part : StringPart} (hfits : r.Fits)
    (hmode : r.mode = .string isKey part)
    (hpending : s.pending = r.frames.map Container.bracket) (hquote : s.quote = some '"')
    (hescaped : s.escaped = (Mode.string isKey part).isEscaped) : Agrees r s := by
  refine ⟨hfits, hpending, hquote.trans ?_, hescaped.trans ?_⟩ <;> rw [hmode]
  rfl

/-- The scan follows every move of the reader. -/
theorem Agrees.move (hagree : Agrees r s) (hmove : Move r c next) :
    Agrees next (s.step d c) := by
  have hfits := hagree.fits.move hmove
  cases hmove with
  | token hout hmark hframes hnext _ =>
    obtain ⟨hescaped, hquote⟩ := hagree.outside hout
    rw [Scan.step_of_not_mark hescaped hquote hmark]
    exact agrees_of_outside hfits hnext (hagree.pending.trans (by rw [hframes])) hquote hescaped
  | enter k hout hchar hnext =>
    obtain ⟨hescaped, hquote⟩ := hagree.outside hout
    subst hchar hnext
    rw [Scan.step_opener hescaped hquote]
    refine agrees_of_outside hfits (by cases k <;> rfl) ?_ hquote hescaped
    simp only [Scan.opening, hagree.pending, List.map_cons]
  | leave k hout hchar hframes hnext =>
    obtain ⟨hescaped, hquote⟩ := hagree.outside hout
    subst hchar
    rw [Scan.step_closer hescaped hquote]
    refine agrees_of_outside hfits (by rw [hnext]; rfl) ?_ hquote hescaped
    simp only [Scan.closing, hagree.pending, hframes, List.map_cons, List.head?_cons, if_true,
      List.tail_cons]
  | quote isKey hout hchar hnext _ =>
    obtain ⟨hescaped, hquote⟩ := hagree.outside hout
    subst hchar hnext
    rw [Scan.step_quotation hescaped hquote]
    exact agrees_of_inside hfits rfl hagree.pending rfl hescaped
  | unquote isKey hmode hchar hnext =>
    have hescaped : s.escaped = false := by
      rw [hagree.escaped, hmode]
      rfl
    subst hchar hnext
    rw [Scan.step_of_quote hescaped (hagree.inside hmode) (by decide), if_pos rfl]
    exact agrees_of_outside hfits (by cases isKey <;> rfl) hagree.pending rfl hescaped
  | backslash isKey hmode hchar hnext =>
    have hescaped : s.escaped = false := by
      rw [hagree.escaped, hmode]
      rfl
    subst hchar hnext
    rw [Scan.step_backslash hescaped]
    exact agrees_of_inside hfits rfl hagree.pending (hagree.inside hmode) rfl
  | escaped isKey part hmode hpart hnext =>
    have hescaped : s.escaped = true := by
      rw [hagree.escaped, hmode]
      rfl
    subst hnext
    rw [Scan.step_of_escaped hescaped]
    exact agrees_of_inside hfits rfl hagree.pending (hagree.inside hmode)
      (Mode.isEscaped_string hpart).symm
  | literal isKey before after hmode hbefore hquote hslash hafter hnext =>
    have hescaped : s.escaped = false := by
      rw [hagree.escaped, hmode]
      exact Mode.isEscaped_string hbefore
    subst hnext
    rw [Scan.step_of_quote hescaped (hagree.inside hmode) hslash, if_neg hquote]
    exact agrees_of_inside hfits rfl hagree.pending (hagree.inside hmode)
      (hescaped.trans (Mode.isEscaped_string hafter).symm)

theorem agrees_start {d : Dialect} : Agrees start (Scan.start d) := ⟨trivial, rfl, rfl, rfl⟩

/-- What a text that the reader reads closes is always the innermost bracket. -/
theorem Agrees.head?_of_closes {b : Bracket} (hagree : Agrees r s) (hmove : Move r c next)
    (hcloses : s.Closes d c b) : s.pending.head? = some b := by
  have hnot {isKey : Bool} {part : StringPart} {p : Prop} (hmode : r.mode = .string isKey part) :
      p := by
    have hinside := hagree.inside hmode
    rw [hcloses.quote] at hinside
    cases hinside
  cases hmove with
  | token _ hmark =>
    have hnone := (Dialect.ReadsJson.plain (d := d) hmark).2.2
    rw [hcloses.closes] at hnone
    cases hnone
  | enter k _ hchar =>
    have hsome := (Dialect.ReadsJson.opener (d := d) k).2
    rw [← hchar, hcloses.opens] at hsome
    cases hsome
  | leave k _ hchar hframes =>
    have hbracket := (Dialect.ReadsJson.closer (d := d) k).2.2
    rw [← hchar, hcloses.closes] at hbracket
    cases hbracket
    rw [hagree.pending, hframes, List.map_cons, List.head?_cons]
  | quote _ _ hchar =>
    have hquotes := hcloses.quotes
    rw [hchar, Dialect.ReadsJson.quotation] at hquotes
    cases hquotes
  | unquote _ hmode | backslash _ hmode | escaped _ _ hmode | literal _ _ _ hmode => exact hnot hmode

/-- The closing text of the scan is the end of the reader's string, if it is in one, and the closers
    of the reader's containers. -/
theorem Agrees.suffix_eq (hagree : Agrees r s) :
    s.suffix = (if r.mode.isString then ['"'] else []) ++ r.frames.map Container.closer := by
  rw [s.suffix_eq, hagree.quote, hagree.pending, List.map_map]
  cases r.mode.isString <;> rfl

variable [Limits]

theorem Agrees.step (hagree : Agrees r s) (hstep : r.step c = some next) :
    Agrees next (s.step d c) :=
  hagree.move (move_of_step hagree.fits hstep)

/-- The scan follows the reader over every text that the reader reads. -/
theorem Agrees.run {t : List Char} (hagree : Agrees r s) (hrun : r.run t = some next) :
    Agrees next (s.run d t) := by
  induction t generalizing r s with
  | nil =>
    cases hrun
    exact hagree
  | cons c rest ih =>
    obtain ⟨middle, hstep, hrest⟩ := Option.bind_eq_some_iff.1 hrun
    exact ih (hagree.step hstep) hrest

/-- The tally of the scan counts the open brackets all the way. -/
theorem Agrees.tallies_run {t : List Char} (hagree : Agrees r s) (hs : s.Tallies d)
    (hrun : r.run t = some next) : (s.run d t).Tallies d := by
  induction t generalizing r s with
  | nil => exact hs
  | cons c rest ih =>
    obtain ⟨middle, hstep, hrest⟩ := Option.bind_eq_some_iff.1 hrun
    have hmove := move_of_step hagree.fits hstep
    exact ih (hagree.move hmove) (hs.step fun _ => hagree.head?_of_closes hmove) hrest

/-- The tally of a text that the reader reads is the number of the reader's containers, kind by
    kind. -/
theorem tally_of_run {t : List Char} (hrun : start.run t = some r) :
    (Scan.ofText d t).tally =
      d.brackets.map fun b => (b, ((r.frames.map Container.bracket).count b : Int)) := by
  rw [← (agrees_start.run (d := d) hrun).pending]
  exact agrees_start.tallies_run (Scan.tallies_start d) hrun

end Reader

end Json

end Rejoin
