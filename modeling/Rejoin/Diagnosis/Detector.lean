import Rejoin.Diagnosis.Options
import Rejoin.Diagnosis.StopCode
import Rejoin.Structure.Fence
import Rejoin.Structure.Scan

/-!
The detector of truncation. It looks for three signs in turn, and the first that it finds decides:
the stop code; the structure of the text, that is, brackets or a code block left open; and, in long
texts, an ending that is no ending of a sentence, a list marker or a code block.
-/

namespace Rejoin

open Structure Text

namespace Diagnosis

/-- How a number of unclosed brackets of one kind is reported. -/
def unclosedText : Bracket × Int → String
  | (.brace, n) => toString n ++ " unclosed '\x7b' brace(s)"
  | (.square, n) => toString n ++ " unclosed '[' bracket(s)"
  | (.round, n) => toString n ++ " unclosed '(' parenthesis(es)"

/-- The diagnosis from the structure of a text: brackets that are open count before a code block. -/
def ofStructure? (t : List Char) : Option Diagnosis :=
  let unclosed := (Scan.ofText .prose t).tally.unclosed
  if !unclosed.isEmpty then
    some (.truncated .unbalancedStructure (String.intercalate ", " (unclosed.map unclosedText)))
  else if (FenceScan.ofText t).inside then
    some (.truncated .incompleteCodeBlock "1 unclosed code block(s) detected")
  else none

/-- Whether a text ends the way texts end: with nothing but blanks, with a code block, or with a
    character that ends a sentence or introduces a list or heading. -/
def endsProperly (o : DetectorOptions) (t : List Char) : Bool :=
  match (trimRight t).getLast? with
  | none => true
  | some last => Fence.endsWithFence t || o.terminators.contains last || o.markers.contains last

/-- The diagnosis from the way a text ends. -/
def ofEnding? (o : DetectorOptions) (t : List Char) : Option Diagnosis :=
  if o.minLength ≤ t.length && !endsProperly o t then
    some (.truncated .midSentence "Response appears to end mid-sentence")
  else none

/-- The diagnosis from a text alone. An empty text tells nothing. -/
def ofText (o : DetectorOptions) (t : List Char) : Diagnosis :=
  if t.isEmpty then .complete
  else
    let structural := if o.structural then ofStructure? t else none
    let heuristic := if o.heuristic then ofEnding? o t else none
    (structural.or heuristic).getD .complete

/-- The diagnosis of a response from its stop code and its text. A missing response is complete. -/
def ofResponse (o : DetectorOptions) (r : Option Response) : Diagnosis :=
  ((Response.codeOf? r).bind ofStopCode?).getD (ofText o (Response.textOf r))

end Diagnosis

/-- What a detector answers: its diagnosis, and what it reports on the way. -/
structure Verdict where
  diagnosis : Diagnosis
  records : List Log.Record

/-- A detector: it judges a response, and may take into account how many it has judged before. -/
structure Detector where
  judge : Nat → Option Response → Verdict

namespace Detector

/-- The detector with the given options. It judges each response by itself. -/
def withOptions (o : DetectorOptions) : Detector where
  judge _ r :=
    let d := Diagnosis.ofResponse o r
    ⟨d, d.records⟩

/-- The detector that gives fixed answers in turn, the last one again and again, whatever it is
    shown. Without answers it finds everything complete. -/
def scripted (answers : List Diagnosis) : Detector where
  judge n _ := ⟨(answers[n]?.or answers.getLast?).getD .complete, []⟩

/-- Whether the judgement depends on the response alone. -/
def IsStateless (d : Detector) : Prop := ∀ m n r, d.judge m r = d.judge n r

theorem isStateless_withOptions (o : DetectorOptions) : (withOptions o).IsStateless :=
  fun _ _ _ => rfl

end Detector

end Rejoin
