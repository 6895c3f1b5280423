import AgentControl.CommandLine.Request
import AgentControl.Configuration.Schema
import AgentControl.Console.Launch
import AgentControl.Log.System
import AgentControl.Settings.Load

/-! # Running a command line

What a command prints, logs and returns. The console itself is left to a function that says how it
ends, so that all up to its start can be told without a terminal.
-/

namespace AgentControl.CommandLine

/-- What ends a command that is neither done nor refused. -/
inductive Crash where
  | load (fault : LoadFault)
  | disk (fault : DiskFault)
  | overlong (e : Decimal.Overlong)
deriving DecidableEq, Repr

def Crash.message : Crash → String
  | load fault => fault.message
  | disk fault => fault.message
  | overlong e => e.message

/-- What a run leaves behind; `started` is the console when it was handed over,
with the logging then. -/
structure Outcome where
  exitCode : Nat
  stdout : String
  stderr : String
  logs : LogSystem
  started : Option (Console × LogSystem) := none
  crash : Option Crash := none

/-- The surroundings of a run: the time of day, and how a console that is started ends. -/
structure Surroundings where
  time : String
  runConsole : Console → Logged Console

namespace Outcome

def done (logs : LogSystem) (stdout : String) : Outcome :=
  ⟨0, stdout, logs.screen, logs, none, none⟩

/-- A command that is refused says why. -/
def refused (logs : LogSystem) (message : String) : Outcome :=
  ⟨1, "", logs.screen ++ "Error: " ++ message ++ "\n", logs, none, none⟩

def crashed (logs : LogSystem) (crash : Crash) : Outcome :=
  ⟨1, "", logs.screen, logs, none, some crash⟩

end Outcome

def usageLine (u : Usage) : String := "Usage: " ++ u.line ++ "\n"

/-- What is printed on misuse. -/
def misuseText (u : Usage) (m : Misuse) : String :=
  (if m.standsAlone then "" else usageLine u ++ "Try '" ++ u.command ++ " --help' for help.\n\n") ++
    "Error: " ++ m.message ++ "\n"

def schemaText : String := Schema.wireDocument.print (some 2)

def validateLogger : String := "agent_console.cli.schema"

/-- One line for each thing that is wrong with a configuration file. -/
def invalidText (path : String) (e : ConfigurationError) : String :=
  Text.join "\n" ((path ++ ": invalid agent configuration") ::
    e.errors.map fun (place, message) =>
      "  " ++ (if place.isEmpty then "<root>" else place) ++ ": " ++ message)

/-- Prints a configuration as it is written anew, and its summary. -/
def approve (logs : LogSystem) (c : Configuration) : Outcome :=
  let text := c.toJson (some 2) ++ "\n"
  match c.summary with
  | .ok line => .done logs (text ++ "OK: " ++ line ++ "\n")
  | .error e => { Outcome.crashed logs (.overlong e) with stdout := text }

/-- Checks a configuration file and prints it as it is written anew. -/
def runValidate (time : String) (logs : LogSystem) (path : String) : Outcome :=
  let p := Path.ofText path
  let shown := p.text logs.disk.home
  let logs := logs.log time (.debug validateLogger ("Validating agent configuration " ++ shown))
  match logs.disk.locate p with
  | .file _ f =>
      match Configuration.fromJson f.content with
      | .ok c => approve logs c
      | .error e => .refused logs (invalidText shown e)
  | _ => .crashed logs (.disk (.noDirectory shown))

/-- The settings that the options of the console stand for. -/
def overridesOf (theme : Option String) (widgets : List String) : Overrides :=
  (match theme with
    | none | some "" => []
    | some name => [("theme.preset", .str name)]) ++
  (if widgets.isEmpty then [] else [("widgets", .list (widgets.map .str))])

/-- Whether a fault in a settings file is one of its content, which a command reports. -/
def isReported : LoadFault → Bool
  | .notYaml _ | .malformed _ | .notMapping _ | .undecodable _ => true
  | .scalar fault => fault.kind == .value
  | .noHome | .isDirectory _ | .nameTooLong _ => false

/-- Sets the console up from its settings, logs to its file and hands it over. -/
def launch (env : Surroundings) (logs : LogSystem) (settings : ConsoleSettings) : Outcome :=
  let failed (logs : LogSystem) (e : StartupError) : Outcome :=
    .refused logs ("Console failed to start: " ++ e.message)
  match Console.ofSettings settings with
  | (.error e, records) => failed (logs.logAll env.time records) e
  | (.ok console, records) =>
      let logs := logs.logAll env.time records
      let started := some (console, logs)
      let (ended, more) := env.runConsole console
      let logs := logs.logAll env.time more
      match ended.startupError with
      | some e => { failed logs e with started }
      | none => { Outcome.done logs "" with started }

def runConsole (env : Surroundings) (logs : LogSystem) (verbose : Bool) (config : Option String)
    (overrides : Overrides) : Outcome :=
  match Settings.load logs.disk config overrides with
  | .error (.unread fault) =>
      if isReported fault then .refused logs fault.message else .crashed logs (.load fault)
  | .error fault => .refused logs fault.message
  | .ok settings =>
      match logs.setup settings.logging verbose with
      | (logs, some fault) => .crashed logs (.disk fault)
      | (logs, none) => launch env logs settings

/-- Carries a request out. -/
def perform (env : Surroundings) (logs : LogSystem) (r : Request) : Outcome :=
  match r.command with
  | .schema => .done (logs.setupScreen r.verbose) (schemaText ++ "\n")
  | .validate path => runValidate env.time (logs.setupScreen r.verbose) path
  | .ui theme widgets => runConsole env logs r.verbose r.config (overridesOf theme widgets)

/-- Runs a command line on a disk. -/
def run (env : Surroundings) (disk : Disk) (words : List String) : Outcome :=
  let logs : LogSystem := { disk }
  match requestOf disk words with
  | .ok r => perform env logs r
  | .error (.misused usage misuse) => ⟨2, "", misuseText usage misuse, logs, none, none⟩
  | .error (.help usage asked) =>
      if asked then .done logs (usageLine usage) else ⟨2, "", usageLine usage, logs, none, none⟩

end AgentControl.CommandLine
