import AgentControl.CommandLine.Options
import AgentControl.Disk

/-! # Requests

What a command line asks for: the schema, a check of an agent configuration, or the console. Files
that are named have to be there.
-/

namespace AgentControl.CommandLine

inductive Command where
  | schema
  | validate (path : String)
  | ui (theme : Option String) (widgets : List String)
deriving DecidableEq, Repr

structure Request where
  config : Option String
  verbose : Bool
  command : Command
deriving DecidableEq, Repr

/-- What a misused command is called, and how it is used. -/
structure Usage where
  command : String
  line : String
deriving DecidableEq, Repr

/-- Why there is no request: the words were misused, or ask how to use them. -/
inductive NoRequest where
  | misused (usage : Usage) (misuse : Misuse)
  | help (usage : Usage) (asked : Bool)
deriving DecidableEq, Repr

namespace Usage

def group : Usage := ⟨"cli", "cli [OPTIONS] COMMAND [ARGS]..."⟩

def schema : Usage := ⟨"cli schema", "cli schema [OPTIONS]"⟩

def validate : Usage := ⟨"cli validate", "cli validate [OPTIONS] PATH"⟩

def ui : Usage := ⟨"cli ui", "cli ui [OPTIONS]"⟩

end Usage

def helpOption : OptionSpec := ⟨"--help", none, false⟩

def groupGrammar : Grammar :=
  ⟨[⟨"--config", none, true⟩, ⟨"--verbose", some 'v', false⟩, helpOption], false⟩

def plainGrammar : Grammar := ⟨[helpOption], true⟩

def uiGrammar : Grammar :=
  ⟨[⟨"--theme", some 't', true⟩, ⟨"--widget", some 'w', true⟩, helpOption], true⟩

/-- What a path leads to as it is written: one that ends in a slash or in a dot
leads into a directory. -/
def spotOf (disk : Disk) (path : String) : Spot :=
  if path.isEmpty then .missing
  else
    let spot := disk.locate (Path.ofText path)
    let last := ((Text.splitOn '/' path.toList).getLast?).getD []
    match spot with
    | .file _ _ => if last == [] || last == ['.'] then .underFile else spot
    | _ => spot

/-- A path that has to lead to something, and to no directory if `fileOnly`. -/
def checkPath (disk : Disk) (param kind path : String) (fileOnly : Bool) : Except Misuse Unit :=
  match spotOf disk path with
  | .directory _ => if fileOnly then .error (.badPath param kind path "is a directory") else .ok ()
  | .file _ _ => .ok ()
  | _ => .error (.badPath param kind path "does not exist")

def orMisused {α : Type} (usage : Usage) (r : Except Misuse α) : Except NoRequest α :=
  r.mapError (.misused usage)

/-- Takes the words of a command apart, unless they ask for help. -/
def parseFor (usage : Usage) (s : Grammar) (words : List String) : Except NoRequest Parsed := do
  let p ← orMisused usage (s.parse words)
  if p.has "--help" then .error (.help usage true) else return p

/-- No words may be left over. -/
def noMore (usage : Usage) (words : List String) : Except NoRequest Unit :=
  if words.isEmpty then .ok () else .error (.misused usage (.extraArguments words))

def schemaCommand (words : List String) : Except NoRequest Command := do
  let p ← parseFor .schema plainGrammar words
  noMore .schema p.words
  return .schema

def validateCommand (disk : Disk) (words : List String) : Except NoRequest Command := do
  let p ← parseFor .validate plainGrammar words
  match p.words with
  | [] => .error (.misused .validate (.missingArgument "PATH"))
  | path :: rest => do
      orMisused .validate (checkPath disk "PATH" "File" path true)
      noMore .validate rest
      return .validate path

def uiCommand (words : List String) : Except NoRequest Command := do
  let p ← parseFor .ui uiGrammar words
  noMore .ui p.words
  return .ui (p.last? "--theme") (p.all "--widget")

/-- The common options, and the words behind them. -/
def commonOf (disk : Disk) (words : List String) : Except NoRequest Parsed := do
  let p ← parseFor .group groupGrammar words
  match p.last? "--config" with
  | some path => orMisused .group (checkPath disk "--config" "Path" path false)
  | none => pure ()
  return p

/-- The command that the words behind the common options name. One that is unknown may be meant as
one of these options. -/
def commandOf (disk : Disk) : List String → Except NoRequest Command
  | [] => .error (.misused .group .missingCommand)
  | name :: words =>
      if name = "schema" then schemaCommand words
      else if name = "validate" then validateCommand disk words
      else if name = "ui" then uiCommand words
      else do
        let _ ← commonOf disk (name :: words)
        .error (.misused .group (.noSuchCommand name))

/-- The request that a command line makes. -/
def requestOf (disk : Disk) (words : List String) : Except NoRequest Request := do
  if words.isEmpty then .error (.help .group false)
  let p ← commonOf disk words
  let command ← commandOf disk p.words
  return ⟨p.last? "--config", p.has "--verbose", command⟩

end AgentControl.CommandLine
