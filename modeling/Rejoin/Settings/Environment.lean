import Rejoin.Settings.Basic

/-!
Where settings find the values of their fields: under names that are handed over, and in what surrounds
the program, which are its environment variables and a file that lists more of them. A variable is named
after a field, behind a prefix. The environment is stronger than the file.
-/

namespace Rejoin.Settings

open Text

/-- The start of the names of all variables. -/
def environmentPrefix : String := "LLMSTITCH_"

/-- A name in lower case. -/
def foldName (name : String) : String := String.ofList (lower name.toList)

/-- The value of the last entry whose name is the given one in any case. -/
def lastNamed? {α : Type} (name : String) (entries : List (String × α)) : Option α :=
  (entries.reverse.find? fun e => foldName e.1 = name).map (·.2)

/-- The name of the variable of a field, in lower case. -/
def variableName (f : Field) : String := foldName (environmentPrefix ++ f.name)

/-- What surrounds a program: its environment variables, and those that a file lists. -/
structure Environment where
  exported : List (String × String)
  listed : List (String × Option (List Char))

/-- A text that is given for a field. -/
def givenText (t : List Char) : Yaml.Node := .scalar (.text t)

/-- The values that the surroundings of a program give. -/
def Environment.values (e : Environment) : Values :=
  let set : Values := fun f => (lastNamed? (variableName f) e.exported).map (givenText ·.toList)
  let listed : Values := fun f => ((lastNamed? (variableName f) e.listed).join).map givenText
  set.backedBy listed

/-- The values that are given by name. A field is named in any case; of several spellings the first
    one counts. -/
def namedValues (entries : List (String × Yaml.Node)) : Values := fun f =>
  (entries.find? fun e => foldName e.1 = f.name).map (·.2)

end Rejoin.Settings
