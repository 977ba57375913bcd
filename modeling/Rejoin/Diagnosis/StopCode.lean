import Rejoin.Diagnosis.Basic
import Rejoin.Text.LetterCase

/-!
Stop codes. A provider that says it stopped early is believed, whatever the text looks like. The
codes are known in any case; a code that is not in the table says nothing.
-/

namespace Rejoin.Diagnosis

/-- The diagnosis for a stop code written in lower case, given the code as the provider wrote it. -/
def ofKnownCode? (name code : String) : Option Diagnosis :=
  match name with
  | "length" =>
    some (.truncated .tokenLimit
      "Response was truncated due to token limit (finish_reason: length)")
  | "content_filter" => some (.truncated .contentFiltered "Response was blocked by content filter")
  | "max_tokens" =>
    some (.truncated .tokenLimit
      ("Response was truncated due to token limit (stop_reason: " ++ code ++ ")"))
  | "model_context_window_exceeded" =>
    some (.truncated .contextWindowExceeded
      "Response was truncated due to context window limit exceeded")
  | "safety" =>
    some (.truncated .contentFiltered
      ("Response was blocked by safety/content filter (stop_reason: " ++ code ++ ")"))
  | "recitation" =>
    some (.truncated .recitation
      "Response was stopped due to potential recitation/copyright concerns")
  | "refusal" =>
    some (.truncated .refusal "Model refused to generate response due to safety concerns")
  | _ => none

/-- The diagnosis for a stop code, if the code is one that means truncation. -/
def ofStopCode? (code : List Char) : Option Diagnosis :=
  ofKnownCode? (String.ofList (Text.lower code)) (String.ofList code)

end Rejoin.Diagnosis
