import AgentControl.Console.Selector
import AgentControl.Console.StartupError
import AgentControl.Console.Themes
import AgentControl.Console.Widget
import AgentControl.Log.Record
import AgentControl.Value.Shown

/-! # The console

What is set up before the console starts: a theme, widgets under names, and the one place that the
root widget is mounted into. A request that is refused changes nothing. Starting puts the theme in
effect and mounts the root, or fails where the document has no such place.
-/

namespace AgentControl

open Value (Entries)

structure Console where
  preset : Option Theme := none
  themes : List Theme := Theme.builtIn
  widgets : List (String × WidgetKind) := []
  mountTarget : Option String := none
  mountCount : Nat := 0
  startupError : Option StartupError := none
  activeTheme : String := "textual-dark"
deriving DecidableEq

/-- A new state with what was logged on the way to it. -/
abbrev Logged (α : Type) := α × List LogRecord

namespace Console

def logger : String := "agent_console.tui.app"

/-- The text of an option's key. -/
def keyText : Value → Except Decimal.Overlong String
  | .str s => .ok s
  | .level l => .ok l.name
  | v => v.shown

/-- The first key that is not the one recognised. -/
def strangeKey? (known : String) (entries : Entries) : Option Value :=
  (entries.find? fun (k, _) => k.text? != some known).map (·.1)

/-- The error about an option that is not recognised, behind the name of its section. -/
def unsupportedKey (section_ : String) (key : Value) : StartupError :=
  match keyText key with
  | .ok key => .unsupported (section_ ++ key)
  | .error e => .overlong e

/-- The theme that options ask for; they may ask for none. -/
def themeOf (options : Entries) : Except StartupError (Option Theme) :=
  match strangeKey? "theme" options with
  | some key => .error (unsupportedKey "" key)
  | none =>
      match Value.lookup "theme" options with
      | none => .ok none
      | some (.dict section_) =>
          match strangeKey? "preset" section_ with
          | some key => .error (unsupportedKey "theme." key)
          | none =>
              match Value.lookup "preset" section_ with
              | none | some .null => .ok none
              | some (.theme t) => .ok (some t)
              | some _ => .error (.unsupportedOption "theme.preset" "expected a Theme")
      | some _ => .error (.unsupportedOption "theme" "expected a mapping")

/-- Adds a theme, in place of one of the same name. -/
def addTheme (t : Theme) (themes : List Theme) : List Theme :=
  if themes.any (·.name == t.name) then themes.map fun u => if u.name = t.name then t else u
  else themes ++ [t]

/-- An anchor without the number signs in front. -/
def targetOf (anchor : String) : String := String.ofList (anchor.toList.dropWhile (· == '#'))

/-! ## Setting up -/

/-- Steps on a console. What is done and logged before one of them fails stays. -/
abbrev Setup := ExceptT StartupError (StateM (Logged Console))

namespace Setup

def console : Setup Console := return (← get).1

def edit (f : Console → Console) : Setup Unit := modify fun (s, records) => (f s, records)

def log (record : LogRecord) : Setup Unit := modify fun (s, records) => (s, records ++ [record])

end Setup

open Setup

/-- What steps come to, with the console and the records that they leave. -/
def attempt {α : Type} (s : Console) (steps : Setup α) : Except StartupError α × Logged Console :=
  steps.run.run (s, [])

def useTheme (options : Entries) : Setup Unit := do
  match ← MonadExcept.ofExcept (themeOf options) with
  | none => return
  | some t =>
      edit fun s => { s with themes := addTheme t s.themes }
      edit fun s => { s with preset := some t }
      log (.debug logger ("Theme preset '" ++ t.name ++ "' registered"))

/-- Registers a kind of widget under a name that is still free. -/
def register (name : String) (kind : WidgetKind) : Setup Unit := do
  if ((← console).widgets.lookup name).isSome then throw (.alreadyRegistered name)
  edit fun s => { s with widgets := s.widgets ++ [(name, kind)] }
  log (.debug logger ("Widget '" ++ name ++ "' registered as " ++ kind.className))

/-- Makes a widget of the kind registered under a name. -/
def create (name : String) (arguments : WidgetArguments) : Setup Widget := do
  match (← console).widgets.lookup name with
  | none => throw (.notRegistered name)
  | some kind => return ⟨kind, arguments⟩

/-- Asks for the root to be mounted, which can be done once. -/
def mountRoot (anchor : String) : Setup Unit := do
  match (← console).mountTarget with
  | some target => throw (.alreadyMounted target)
  | none => edit fun s => { s with mountTarget := some (targetOf anchor) }

inductive Call where
  | useTheme (options : Entries)
  | register (name : String) (kind : WidgetKind)
  | create (name : String) (arguments : WidgetArguments)
  | mountRoot (anchor : String)

inductive Answer where
  | done
  | made (widget : Widget)

def perform : Call → Setup Answer
  | .useTheme options => do useTheme options; return .done
  | .register name kind => do register name kind; return .done
  | .create name arguments => return .made (← create name arguments)
  | .mountRoot anchor => do mountRoot anchor; return .done

/-- The console after calls, the refused ones among them. -/
def after (s : Console) (calls : List Call) : Console :=
  calls.foldl (fun s call => (s.attempt (perform call)).2.1) s

/-! ## Starting -/

/-- What a start leaves on the screen. -/
structure Screen where
  theme : String
  roots : Nat
  returnCode : Option Nat
deriving DecidableEq, Repr

/-- How a start ends: on the screen, or at a target that is no selector. -/
inductive Start where
  | shown (screen : Screen)
  | noSelector (query : String)
deriving DecidableEq, Repr

def noSelectorMessage (query : String) : String :=
  "Unable to parse " ++ quoted query ++ " as a query; check for syntax errors"

/-- Puts the theme in effect. -/
def withTheme (s : Console) : Console :=
  { s with activeTheme := (s.preset.map (·.name)).getD s.activeTheme }

def mountMessage (target : String) : String := "Root widget mounted at '#" ++ target ++ "'"

def failMessage (e : StartupError) : String := "Console startup failed: " ++ e.message

/-- Starts the console: the theme takes effect, and the root is mounted where it was asked for. -/
def run (s : Console) : Logged (Console × Start) :=
  let s := s.withTheme
  match s.mountTarget with
  | none => ((s, .shown ⟨s.activeTheme, s.mountCount, none⟩), [])
  | some target =>
      let query := "#" ++ target
      match Selector.parse? query with
      | none => ((s, .noSelector query), [])
      | some alternatives =>
          if Selector.hasAnchor alternatives then
            let s := { s with mountCount := s.mountCount + 1 }
            ((s, .shown ⟨s.activeTheme, s.mountCount, none⟩), [.info logger (mountMessage target)])
          else
            let e := StartupError.anchorMissing target
            (({ s with startupError := some e }, .shown ⟨s.activeTheme, 0, some 1⟩),
              [.error logger (failMessage e)])

end Console
end AgentControl
