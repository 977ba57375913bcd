import Rejoin.Log.Level
import Rejoin.Response

/-!
Faults: the conditions that the library reports as errors. There are three, besides the general one
that callers may build their own on: a setting that cannot be used, a turn that was cancelled, and a
turn that reached its cap when the caller wants to be told so. What is fixed for a kind (its
category, its severity, whether it can be recovered from, its hint) is a function of the kind.
-/

namespace Rejoin

/-- The kinds of fault, with what belongs to each: the setting and its value, if there is one; the
    number of continuations that were received; or that number with the cap, the text so far and the
    responses it came from. -/
inductive FaultKind where
  | general
  | configuration (key : Option String) (value : Value)
  | cancelled (count : Int)
  | capReached (cap : Number) (count : Int) (text : List Char) (responses : List (Option Response))
  deriving Repr

/-- How loudly a fault should be reported. -/
inductive Severity where
  | info
  | warning
  | error
  deriving DecidableEq, Repr

namespace Severity

/-- The name of a severity. -/
def name : Severity → String
  | info => "info"
  | warning => "warning"
  | error => "error"

/-- The log level of a severity. -/
def level : Severity → Log.Level
  | info => .info
  | warning => .warning
  | error => .error

end Severity

/-- What lies behind a fault: a document that cannot be read, values that were refused, or a failure
    of the caller's own kind. -/
inductive Cause where
  | unreadable
  | refused
  | other (kind : String)
  deriving DecidableEq, Repr

/-- A fault: its kind, what happened, details of the caller, and optionally a hint, a reference and
    a cause. -/
structure Fault where
  kind : FaultKind
  message : String
  extra : List (String × Value) := []
  givenHint : Option String := none
  givenReference : Option String := none
  cause : Option Cause := none
  deriving Repr

/-- A text that was given, if it is not empty. -/
def given? (s : Option String) : Option String := s.filter (!·.isEmpty)

namespace Fault

/-- The category of a fault. -/
def category (f : Fault) : String :=
  match f.kind with
  | .general => "unknown"
  | .configuration .. => "config_invalid"
  | .cancelled _ => "cancelled"
  | .capReached .. => "continuation_limit"

/-- How loudly a fault should be reported. -/
def severity (f : Fault) : Severity :=
  match f.kind with
  | .general | .configuration .. => .error
  | .cancelled _ => .info
  | .capReached .. => .warning

/-- Whether a caller can go on after a fault. -/
def isRecoverable (f : Fault) : Bool :=
  match f.kind with
  | .general | .capReached .. => true
  | .configuration .. | .cancelled _ => false

/-- The hint for faults of a kind. -/
def defaultHint? (f : Fault) : Option String :=
  match f.kind with
  | .general | .cancelled _ => none
  | .configuration .. => some "Use a non-negative value for counts, lengths and durations."
  | .capReached .. =>
    some ("Raise max_continuations, increase the model's max tokens, " ++
      "or disable throw_on_max_continuations to accept a partial response.")

/-- What a caller may do about a fault: the hint it was given, or else that of its kind. -/
def hint? (f : Fault) : Option String := (given? f.givenHint).or f.defaultHint?

/-- The details that belong to a kind of fault. -/
def ownDetails (f : Fault) : List (String × Value) :=
  match f.kind with
  | .general => []
  | .configuration key value =>
    ("config_key", key.elim .null .text) ::
      (match value with
      | .null => []
      | v => [("value", v)])
  | .cancelled count => [("continuation_count", .int count)]
  | .capReached cap count text _ =>
    [("max_continuations", .number cap), ("continuation_count", .int count),
      ("accumulated_length", .int text.length)]

/-- All details of a fault; those of its kind replace the caller's of the same name. -/
def details (f : Fault) : List (String × Value) :=
  f.ownDetails.foldl (fun entries e => setEntry entries e.1 e.2) f.extra

/-- The length of the reference that a fault gets when it was given none. -/
def generatedReferenceLength : Nat := 8

/-- The reference by which a fault can be found again, if it was given one. -/
def reference? (f : Fault) : Option String := given? f.givenReference

/-- The fault as a message with its reference and its hint. -/
def report (f : Fault) (reference : String) : String :=
  let line := f.message ++ " (ref " ++ reference ++ ")"
  match f.hint? with
  | some hint => line ++ "\nHint: " ++ hint
  | none => line

/-- The name of the kind of fault. -/
def kindName (f : Fault) : String :=
  match f.kind with
  | .general => "StitchError"
  | .configuration .. => "ConfigurationError"
  | .cancelled _ => "ContinuationCancelledError"
  | .capReached .. => "MaxContinuationsReachedError"

/-- The fault as data for structured reports. -/
def toRecord (f : Fault) (reference : String) : List (String × Value) :=
  [("type", .text f.kindName), ("message", .text f.message), ("category", .text f.category),
    ("severity", .text f.severity.name), ("recoverable", .bool f.isRecoverable),
    ("correlation_id", .text reference), ("recovery_hint", f.hint?.elim .null .text),
    ("details", .record f.details)]

/-- A setting that must not be negative and is. -/
def negative (setting : String) (value : Number) : Fault where
  kind := .configuration (some setting) (.number value)
  message := setting ++ " must be non-negative, got " ++ value.text

/-- A turn that was cancelled before any continuation was received. -/
def cancelled (message : String) : Fault where
  kind := .cancelled 0
  message

/-- What a turn cancelled without a word of its own says. -/
def cancelledMessage : String := "Continuation cancelled"

/-- The fault of a cancelled turn, with the number of continuations that it received. -/
def cancelledAfter (f : Fault) (count : Nat) : Fault :=
  { f with kind := .cancelled count, extra := setEntry f.extra "state" (.text "cancelled") }

/-- A turn that reached its cap. -/
def capReached (cap : Number) (count : Nat) (text : List Char)
    (responses : List (Option Response)) : Fault where
  kind := .capReached cap count text responses
  message := "Response truncated and max continuations (" ++ cap.text ++ ") reached"

end Fault

/-- What can go wrong in the caller's own work: a fault of the library raised there, or a failure of
    a foreign kind, which has a name and a text. -/
inductive Failure where
  | fault (f : Fault)
  | foreign (kind text : String)
  deriving Repr

namespace Failure

/-- The failure of a given kind with a given message. A failed look-up has its key for a message,
    and shows it quoted. -/
def ofKind (kind message : String) : Failure :=
  match kind with
  | "StitchError" => .fault { kind := .general, message }
  | "ConfigurationError" => .fault { kind := .configuration none .null, message }
  | "ContinuationCancelledError" => .fault (.cancelled message)
  | "KeyError" => .foreign kind (Text.quotedString message)
  | _ => .foreign kind message

/-- The failure as a line of text. A fault shows the place where its reference goes. -/
def text : Failure → String
  | .fault f => f.report (f.reference?.getD "<id>")
  | .foreign _ text => text

end Failure

/-- Calls that can mean nothing, whatever the state of the library. -/
inductive Misuse where
  | noResponse
  | noSender
  | noFragments
  | notABracket (c : Char)
  | settingNotNamed
  | unknownSetting (owner setting : String)
  | name (u : UnknownName)
  deriving DecidableEq, Repr

/-- What is wrong with a call. -/
def Misuse.message : Misuse → String
  | noResponse => "initial_response must not be None"
  | noSender => "send_next must not be None"
  | noFragments => "fragments must be an iterable of strings, not None"
  | notABracket c => Text.quotedString (String.singleton c)
  | settingNotNamed => "keywords must be strings"
  | unknownSetting owner setting =>
    owner ++ ".__init__() got an unexpected keyword argument " ++ Text.quotedString setting
  | name u => u.message

/-- Why a call gives no value: a fault, a call that can mean nothing, or a failure of a foreign kind in
    something that the call relies on, with its name and its text. -/
inductive CallFailure where
  | fault (f : Fault)
  | misuse (m : Misuse)
  | foreign (kind text : String)
  deriving Repr

end Rejoin
