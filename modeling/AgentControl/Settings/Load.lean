import AgentControl.Disk
import AgentControl.Settings.Check
import AgentControl.Settings.Overrides
import AgentControl.Yaml.Meaning

/-! # Loading settings

Console settings come from a file, with overrides written over what it says and defaults for the
rest. A file that is missing says nothing.
-/

namespace AgentControl

open Value (Entries)

/-- What may go wrong before the settings are checked. A path is kept as messages show it. -/
inductive LoadFault where
  | noHome
  | notYaml (path : String)
  | isDirectory (path : String)
  | nameTooLong (path : String)
  | undecodable (fault : Utf8.Fault)
  | malformed (path : String)
  | scalar (fault : Yaml.Fault)
  | notMapping (path : String)
deriving DecidableEq, Repr

/-- The text of a fault in bytes: which they are, where and why. -/
def Utf8.Fault.text (f : Utf8.Fault) : String :=
  "'utf-8' codec can't decode " ++
    (if f.length = 1 then
      "byte 0x" ++ String.ofList (hex 2 f.byte.toNat) ++ " in position " ++ toString f.start
    else "bytes in position " ++ toString f.start ++ "-" ++ toString (f.start + f.length - 1)) ++
    ": " ++ f.reason.text

def LoadFault.message : LoadFault → String
  | noHome => "Could not determine home directory."
  | notYaml path => "Settings file must be YAML (.yaml or .yml): " ++ path
  | isDirectory path => "[Errno 21] Is a directory: " ++ quoted path
  | nameTooLong path => "[Errno 36] File name too long: " ++ quoted path
  | undecodable fault => fault.text
  | malformed path => "Invalid YAML in config file " ++ path ++ ": " ++ Yaml.Fault.malformed.message
  | scalar fault => fault.message
  | notMapping path => "Config file must contain a mapping at top level: " ++ path

namespace Settings

/-- Makes every line end a line feed. -/
def uniformLines : List Char → List Char
  | [] => []
  | '\r' :: '\n' :: cs => '\n' :: uniformLines cs
  | '\r' :: cs => '\n' :: uniformLines cs
  | c :: cs => c :: uniformLines cs

def isYamlSuffix (cs : List Char) : Bool :=
  let suffix := cs.map Decimal.lowerAscii
  suffix == ".yaml".toList || suffix == ".yml".toList

/-- A value under a top-level key. Collections may hold themselves, and a message shows one
from where it is checked; so what a section holds, and each member of a list of names, is
laid out by itself. -/
def laidOut (doc : Yaml.Document) (key : Value) (d : Yaml.Datum) : Value :=
  match key, doc.object? d with
  | .str "theme", some (.dict es) | .str "logging", some (.dict es) =>
      .dict (Yaml.Document.settled (es.map fun (k, v) => (k, doc.value v)))
  | .str "widgets", some (.list items) => .list (items.map doc.value)
  | _, _ => doc.value d

/-- The mapping at the root of a document; an empty document holds an empty one. -/
def entries? (doc : Yaml.Document) : Option Entries :=
  match doc.root, doc.object? doc.root with
  | .plain .null, _ => some []
  | _, some (.dict es) => some (Yaml.Document.settled (es.map fun (k, d) => (k, laidOut doc k d)))
  | _, _ => none

/-- The mapping that the bytes of a file hold. -/
def ofBytes (path : String) (bytes : List UInt8) : Except LoadFault Entries :=
  match Utf8.decode bytes with
  | .error fault => .error (.undecodable fault)
  | .ok cs =>
      match Yaml.document (uniformLines cs) with
      | .error .malformed => .error (.malformed path)
      | .error fault => .error (.scalar fault)
      | .ok doc =>
          match entries? doc with
          | some entries => .ok entries
          | none => .error (.notMapping path)

/-- The mapping that a settings file holds. -/
def ofFile (disk : Disk) (name : String) : Except LoadFault Entries :=
  match (Path.ofText name).expand with
  | none => .error .noHome
  | some path =>
      let shown := path.text disk.home
      let checked (k : Except LoadFault Entries) : Except LoadFault Entries :=
        if isYamlSuffix path.suffix then k else .error (.notYaml shown)
      match disk.locate path with
      | .missing | .underFile => .ok []
      | .nameTooLong => .error (.nameTooLong shown)
      | .directory _ => checked (.error (.isDirectory shown))
      | .file _ f => checked (ofBytes shown f.content)

/-- The file that is read where none is named. -/
def defaultFile : String := "~/.agent-console/config.yaml"

/-- Why settings could not be loaded. -/
inductive Fault where
  | unread (fault : LoadFault)
  | invalid (file : String) (report : Report)

def Fault.message : Fault → String
  | unread fault => fault.message
  | invalid file report => "Configuration validation failed for " ++ file ++ ": " ++ report.text

/-- The settings of a file under overrides. No name, like an empty one, stands
for the usual file. -/
def load (disk : Disk) (name : Option String) (overrides : Overrides) :
    Except Fault ConsoleSettings :=
  let file := match name with
    | none | some "" => defaultFile
    | some name => name
  match ofFile disk file with
  | .error fault => .error (.unread fault)
  | .ok entries =>
      match (ConsoleSettings.ofEntries (overrides.apply entries)).report .console with
      | .ok settings => .ok settings
      | .error report => .error (.invalid file report)

end Settings
end AgentControl
