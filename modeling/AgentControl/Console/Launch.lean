import AgentControl.Console.Basic
import AgentControl.Settings.Basic

/-! # Launching

From settings to a console that is ready to start: its theme is looked up, its widgets are
registered in their order, and the root is to be mounted into the document's anchor. The first name
that stands for nothing ends it.
-/

namespace AgentControl

/-- The theme of a name, the console's own before the toolkit's. -/
def Theme.resolve (name : String) : Except StartupError Theme :=
  match Theme.named? name with
  | some t => .ok t
  | none => .error (.noTheme name Theme.names)

namespace Console

/-- Registers widgets of the catalog in order, up to the first that cannot be. -/
def registerAll : List String → Setup Unit
  | [] => return
  | name :: rest => do
      match WidgetKind.named? name with
      | none => throw (.noWidget name (WidgetKind.catalog.map (·.1)))
      | some kind => register name kind
      registerAll rest

/-- Sets a console up as settings describe it. -/
def follow (settings : ConsoleSettings) : Setup Unit := do
  let t ← MonadExcept.ofExcept (Theme.resolve settings.theme.preset)
  useTheme [(.str "theme", .dict [(.str "preset", .theme t)])]
  registerAll settings.widgets
  mountRoot Selector.anchor

/-- The console that settings describe, with what was logged while it was set up. -/
def ofSettings (settings : ConsoleSettings) : Except StartupError Console × List LogRecord :=
  let (result, console, records) := ({} : Console).attempt (follow settings)
  (result.map fun _ => console, records)

end Console
end AgentControl
