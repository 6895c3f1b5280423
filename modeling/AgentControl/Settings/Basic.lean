import AgentControl.Value.Basic

/-! # Console settings

What the console starts with: a theme preset, the widgets it registers and where it logs. Each
setting has a default. Widget names are distinct, and the limits of the log are positive.
-/

namespace AgentControl

/-- From which records on the console logs. -/
inductive Severity where
  | debug
  | info
  | warning
  | error
deriving DecidableEq, Repr

namespace Severity

def all : List Severity := [debug, info, warning, error]

def name : Severity → String
  | debug => "debug"
  | info => "info"
  | warning => "warning"
  | error => "error"

def ofName? (s : String) : Option Severity := all.find? fun l => l.name = s

/-- The weight of a record of this severity. -/
def weight : Severity → Nat
  | debug => 10
  | info => 20
  | warning => 30
  | error => 40

@[simp] theorem ofName?_name (l : Severity) : ofName? l.name = some l := by cases l <;> rfl

end Severity

structure ThemeSettings where
  preset : String := "aura"
deriving DecidableEq, Repr

structure LoggingSettings where
  level : Severity := .info
  file : String := "~/.agent-console/logs/console.log"
  maxSizeMb : Nat := 10
  backupCount : Nat := 5
  maxSizeMb_pos : 0 < maxSizeMb := by decide
  backupCount_pos : 0 < backupCount := by decide
deriving DecidableEq, Repr

/-- The most bytes a log file may reach. -/
def LoggingSettings.maxBytes (s : LoggingSettings) : Nat := s.maxSizeMb * 1024 * 1024

structure ConsoleSettings where
  theme : ThemeSettings := {}
  widgets : List String := ["Button", "InputText"]
  logging : LoggingSettings := {}
  widgets_nodup : widgets.Nodup := by decide
deriving DecidableEq, Repr

/-! ## Settings as plain data -/

def ThemeSettings.toValue (s : ThemeSettings) : Value := .record [("preset", .str s.preset)]

def LoggingSettings.toValue (s : LoggingSettings) : Value :=
  .record [("level", .str s.level.name), ("file", .str s.file), ("max_size_mb", .int s.maxSizeMb),
    ("backup_count", .int s.backupCount)]

def ConsoleSettings.toValue (s : ConsoleSettings) : Value :=
  .record [("theme", s.theme.toValue), ("widgets", .list (s.widgets.map .str)),
    ("logging", s.logging.toValue)]

end AgentControl
