import Rejoin.Text.Quoted

/-!
Messages of a conversation, and the names by which their roles are written. A name that stands for
nothing is an error of the caller, which tells what kind of name was expected.
-/

namespace Rejoin

/-- A name that was expected to be one of a fixed set and is not: the name, and what the set is
    called. -/
structure UnknownName where
  given : String
  expected : String
  deriving DecidableEq, Repr

/-- What is wrong with the name. -/
def UnknownName.message (u : UnknownName) : String :=
  Text.quotedString u.given ++ " is not a valid " ++ u.expected

/-- The value that a name stands for, in a list of values with their names. -/
def lookupName {α : Type} (expected : String) (all : List α) (nameOf : α → String)
    (given : String) : Except UnknownName α :=
  match all.find? (nameOf · = given) with
  | some a => .ok a
  | none => .error ⟨given, expected⟩

/-- Who says a message. -/
inductive Role where
  | system
  | user
  | assistant
  | tool
  deriving DecidableEq, Repr

namespace Role

/-- The name of a role. -/
def name : Role → String
  | system => "system"
  | user => "user"
  | assistant => "assistant"
  | tool => "tool"

/-- The role with a given name. -/
def ofName (given : String) : Except UnknownName Role :=
  lookupName "ChatRole" [system, user, assistant, tool] name given

end Role

/-- A message of a conversation; the name tells speakers of one role apart. -/
structure Message where
  role : Role
  content : List Char
  name : Option String
  deriving DecidableEq, Repr

namespace Message

/-- A message of the user. -/
def user (content : List Char) : Message := ⟨.user, content, none⟩

/-- A message of the model. -/
def assistant (content : List Char) : Message := ⟨.assistant, content, none⟩

/-- A message that sets the scene. -/
def system (content : List Char) : Message := ⟨.system, content, none⟩

end Message

end Rejoin
