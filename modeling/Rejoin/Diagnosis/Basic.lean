import Rejoin.Log.Record
import Rejoin.Message

/-!
Diagnoses: whether a response is complete, why it is not, and in what words.
-/

namespace Rejoin

/-- Why a response counts as truncated. The first five after `none` come from its stop code, the
    next two from the structure of its text, and the last from how it ends. -/
inductive Reason where
  | none
  | tokenLimit
  | contentFiltered
  | recitation
  | refusal
  | contextWindowExceeded
  | unbalancedStructure
  | incompleteCodeBlock
  | midSentence
  deriving DecidableEq, Repr

namespace Reason

/-- The name of a reason. -/
def name : Reason → String
  | none => "none"
  | tokenLimit => "token_limit"
  | contentFiltered => "content_filtered"
  | recitation => "recitation"
  | refusal => "refusal"
  | contextWindowExceeded => "context_window_exceeded"
  | unbalancedStructure => "unbalanced_structure"
  | incompleteCodeBlock => "incomplete_code_block"
  | midSentence => "mid_sentence"

/-- The reason with a given name. -/
def ofName (given : String) : Except UnknownName Reason :=
  lookupName "TruncationReason"
    [none, tokenLimit, contentFiltered, recitation, refusal, contextWindowExceeded,
      unbalancedStructure, incompleteCodeBlock, midSentence] name given

end Reason

/-- The outcome of examining a response. -/
structure Diagnosis where
  isTruncated : Bool
  reason : Reason
  details : String
  deriving DecidableEq, Repr

namespace Diagnosis

/-- Nothing suggests that the response is incomplete. -/
def complete : Diagnosis := ⟨false, .none, ""⟩

/-- The response is incomplete for a reason. -/
def truncated (reason : Reason) (details : String) : Diagnosis := ⟨true, reason, details⟩

/-- What is reported of a diagnosis: which kind of sign it was made from. -/
def records (d : Diagnosis) : List Log.Record :=
  if d.isTruncated then
    let sign := match d.reason with
      | .unbalancedStructure | .incompleteCodeBlock => "Structural truncation: "
      | .midSentence => "Heuristic truncation: "
      | _ => "Finish reason indicates truncation: "
    [⟨.debug, .diagnosis, sign ++ d.details⟩]
  else []

end Diagnosis

end Rejoin
