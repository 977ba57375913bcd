import Rejoin.Message
import Rejoin.Text.Blank
import Rejoin.Value

/-!
Responses of a model, and the two things the library needs of one: its text and the code with which
the provider says why it stopped. A response is either a chat response or comes from an adapter of
the caller, which may lack parts or give them in odd shapes. A missing response has no text and no
code.
-/

namespace Rejoin

/-- The stop codes that providers share. -/
inductive FinishReason where
  | stop
  | length
  | contentFilter
  | toolCalls
  deriving DecidableEq, Repr

namespace FinishReason

/-- The code of a finish reason. -/
def code : FinishReason → String
  | stop => "stop"
  | length => "length"
  | contentFilter => "content_filter"
  | toolCalls => "tool_calls"

/-- The finish reason with a given code. -/
def ofCode (given : String) : Except UnknownName FinishReason :=
  lookupName "FinishReason" [stop, length, contentFilter, toolCalls] code given

end FinishReason

/-- Why a response ended, as the provider says: a shared reason, or a value of its own. -/
inductive Finish where
  | shared (reason : FinishReason)
  | own (v : Value)
  deriving Repr

/-- The code of a finish, as it was given. -/
def Finish.code : Finish → String
  | shared reason => reason.code
  | own v => v.plain

/-- How many tokens a response took. -/
structure Usage where
  prompt : Int
  completion : Int
  total : Int
  deriving DecidableEq, Repr

/-- A response with everything the provider said about it. The extra data is carried along. -/
structure ChatResponse where
  messages : List Message
  finish : Option Finish
  model : Option String
  usage : Option Usage
  extra : List (String × Value)
  deriving Repr

namespace ChatResponse

/-- A response that consists of one text. -/
def ofText (text : List Char) (finish : Option Finish) : ChatResponse :=
  ⟨[.assistant text], finish, none, none, []⟩

/-- What the model said: the contents of its messages, one after the other. -/
def text (r : ChatResponse) : List Char :=
  (r.messages.filter (·.role = .assistant)).flatMap (·.content)

/-- The response with its messages replaced by one text; all else is kept. -/
def withText (r : ChatResponse) (text : List Char) : ChatResponse :=
  { r with messages := [.assistant text] }

end ChatResponse

/-- A response behind an adapter of the caller: what it gives as its text and as its code, the
    contents of its messages, and whether it can make a copy of itself with another text. -/
structure Adapter where
  text : Value
  code : Option Finish
  contents : List Value
  rebuilds : Bool
  deriving Repr

/-- A response of either kind. -/
inductive Response where
  | chat (r : ChatResponse)
  | adapter (a : Adapter)
  deriving Repr

/-- The text that a value holds: empty unless the value is a text. -/
def Value.textOrEmpty : Value → List Char
  | .text s => s.toList
  | _ => []

namespace Response

/-- The text a response gives by itself, before its messages are searched. -/
def ownText : Response → List Char
  | chat r => r.text
  | adapter a => a.text.textOrEmpty

/-- The contents of the messages of a response. -/
def contents : Response → List (List Char)
  | chat r => r.messages.map (·.content)
  | adapter a => a.contents.map Value.textOrEmpty

/-- Why the response ended, if it says. -/
def finish? : Response → Option Finish
  | chat r => r.finish
  | adapter a => a.code

/-- The text of a response: its own, or else the first of its messages that is not empty. -/
def text (r : Response) : List Char :=
  if r.ownText.isEmpty then (r.contents.find? (!·.isEmpty)).getD [] else r.ownText

/-- The stop code of a response, without the blanks around it; a blank code is none. -/
def code? (r : Response) : Option (List Char) :=
  r.finish?.bind fun f =>
    let code := Text.trim f.code.toList
    if code.isEmpty then none else some code

/-- The text of a response that may be missing. -/
def textOf (r : Option Response) : List Char := r.elim [] text

/-- The stop code of a response that may be missing. -/
def codeOf? (r : Option Response) : Option (List Char) := r.bind code?

/-- The response with another text, if it can make such a copy of itself. -/
def withText? (r : Response) (text : List Char) : Option Response :=
  match r with
  | chat c => some (.chat (c.withText text))
  | adapter a =>
    if a.rebuilds then some (.adapter { a with text := .text (String.ofList text) }) else none

/-- A copy of the last response that holds a text. A response that cannot make one is replaced by a
    chat response that keeps its stop code. -/
def rebuild (last : Option Response) (text : List Char) : Response :=
  match last.bind (·.withText? text) with
  | some r => r
  | none =>
    .chat (.ofText text ((codeOf? last).map fun code => .own (.text (String.ofList code))))

end Response

end Rejoin
