import Rejoin.Fault
import Rejoin.Log.Record
import Rejoin.Settings.Basic

/-!
Loading settings from a file and from what surrounds the program. The file is one mapping, whose entries
are fields or sections; the entries of a section count as if they stood in its place. A file without
content is an empty mapping.

Loading relies on means that are not its own: a reader of documents, and a builder that makes settings
from named values and from the surroundings. The settings that the surroundings give by themselves are
built first, so that what is wrong there is told first. Their values are then written over the entries
of the file, and the settings are built from both.
-/

namespace Rejoin.Settings

open Yaml

/-- Why a text was not read as a document: it is malformed, or the reader failed in a way of its own. -/
inductive Unread where
  | malformed
  | failed (kind text : String)
  deriving DecidableEq, Repr

/-- Why no settings were built: some values were refused, each at a place that is a path of names, or the
    builder failed in a way of its own. -/
inductive Unbuilt where
  | refused (places : List (List String))
  | failed (kind text : String)
  deriving DecidableEq, Repr

/-- What loading relies on: a reader of documents, a builder of settings from named values and from the
    surroundings, and a way to write down the values that settings were given. -/
structure Means (E : Type) where
  read : List Char → Except Unread Node
  build : List (String × Node) → E → Except Unbuilt Settings
  dump : Settings → List (String × Node)

/-- The names of the sections of a file. -/
def sections : List String := ["continuation", "detection"]

/-- A file: its path, and its text, if it exists. -/
structure File where
  path : String
  content : Option (List Char)

/-- The setting that faults of a file are told of. -/
def fileSetting : Option String := some "settings_file"

/-- The fault of a file that does not exist. -/
def missing (path : String) : Fault where
  kind := .configuration fileSetting .null
  message := "Settings file not found: " ++ path
  givenHint := some "Check the path passed to load_settings()."

/-- The fault of a file that is no document. -/
def malformed (path : String) : Fault where
  kind := .configuration fileSetting .null
  message := "Settings file is not valid YAML: " ++ path
  givenHint := some "Fix the YAML syntax in the settings file."
  cause := some .unreadable

/-- The fault of a file whose document is no mapping. -/
def notMapping (path : String) : Fault where
  kind := .configuration fileSetting .null
  message := "Settings file must contain a mapping at the top level: " ++ path

/-- The fault of a section that is no mapping. -/
def sectionNotMapping (name : String) : Fault where
  kind := .configuration (some name) .null
  message := "Section '" ++ name ++ "' must be a mapping"

/-- The fault of values that are refused, told by their places. -/
def refusedValues (places : List (List String)) : Fault :=
  let invalid := places.map (String.intercalate ".")
  { kind := .configuration invalid.head? .null
    message := "Invalid llmstitch settings: " ++ String.intercalate ", " invalid
    cause := some .refused }

/-- An entry of a file. -/
abbrev Entry := Scalar × Node

/-- The section that a key names. -/
def section? : Scalar → Option String
  | .text t => sections.find? (· = String.ofList t)
  | _ => none

/-- The entries that an entry stands for: those of its section, or itself. -/
def expand (e : Entry) : Except Fault (List Entry) :=
  match section? e.1 with
  | none => .ok [e]
  | some name =>
    match e.2 with
    | .mapping entries => .ok entries
    | _ => .error (sectionNotMapping name)

/-- The entries of a file with its sections opened. A key that appears twice has its last value, in
    the place where it appeared first. -/
def flatten (entries : List Entry) : Except Fault (List Entry) := do
  let parts ← entries.mapM expand
  return parts.flatten.foldl (fun known e => Node.insert known e.1 e.2) []

/-- The entries of a document. -/
def ofDocument (path : String) (n : Node) : Except Fault (List Entry) :=
  if n.isNothing then .ok []
  else match n with
    | .mapping entries => flatten entries
    | _ => .error (notMapping path)

/-- A value under a name, as an entry. -/
def asEntry (v : String × Node) : Entry := (.text v.1.toList, v.2)

/-- Entries with values written over them. -/
def writeOver (entries : List Entry) (values : List (String × Node)) : List Entry :=
  (values.map asEntry).foldl (fun known e => Node.insert known e.1 e.2) entries

/-- The name of an entry and its value; a key that is no text is no name. -/
def named? (e : Entry) : Option (String × Node) :=
  match e.1 with
  | .text t => some (String.ofList t, e.2)
  | _ => none

/-- Settings that were loaded, and what is reported of that. -/
structure Loaded where
  settings : Settings
  records : List Log.Record

namespace Means

variable {E : Type} (means : Means E)

/-- The entries of a file. -/
def entriesOf (file : File) : Except CallFailure (List Entry) :=
  match file.content with
  | none => .error (.fault (missing file.path))
  | some t =>
    match means.read t with
    | .error .malformed => .error (.fault (malformed file.path))
    | .error (.failed kind text) => .error (.foreign kind text)
    | .ok n => (ofDocument file.path n).mapError .fault

/-- The settings that named values and the surroundings stand for. -/
def ofNamed (values : List (String × Node)) (e : E) : Except CallFailure Settings :=
  match means.build values e with
  | .error (.refused places) => .error (.fault (refusedValues places))
  | .error (.failed kind text) => .error (.foreign kind text)
  | .ok s => .ok s

/-- The settings from the entries of a file and the surroundings. Values can only be handed over by
    name, which is the first thing that is looked at. -/
def ofEntries (entries : List Entry) (e : E) : Except CallFailure Settings := do
  let surroundings ← means.ofNamed [] e
  match (writeOver entries (means.dump surroundings)).mapM named? with
  | none => .error (.misuse .settingNotNamed)
  | some values => means.ofNamed values e

/-- Loads settings from a file, if one is named, and from the surroundings. -/
def load (file : Option File) (e : E) : Except CallFailure Loaded :=
  match file with
  | none => do
    let s ← means.ofNamed [] e
    return ⟨s, []⟩
  | some file => do
    let entries ← means.entriesOf file
    let s ← means.ofEntries entries e
    return ⟨s, [⟨.debug, .settings, "Loaded settings from " ++ file.path⟩]⟩

end Means

end Rejoin.Settings
