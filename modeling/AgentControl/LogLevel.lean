/-! # Log levels

The closed, ordered ceiling on what the agent logs, from silent to most verbose.
-/

namespace AgentControl

inductive LogLevel where
  | off
  | error
  | warn
  | info
  | debug
  | trace
deriving DecidableEq, Repr, Inhabited

namespace LogLevel

def all : List LogLevel := [off, error, warn, info, debug, trace]

theorem mem_all (l : LogLevel) : l ∈ all := by cases l <;> decide

def name : LogLevel → String
  | off => "OFF"
  | error => "ERROR"
  | warn => "WARN"
  | info => "INFO"
  | debug => "DEBUG"
  | trace => "TRACE"

def rank : LogLevel → Nat
  | off => 0
  | error => 1
  | warn => 2
  | info => 3
  | debug => 4
  | trace => 5

/-- The numeric threshold of the log that lets through just this level. -/
def threshold : LogLevel → Nat
  | off => 60
  | error => 40
  | warn => 30
  | info => 20
  | debug => 10
  | trace => 5

def ofName? (s : String) : Option LogLevel := all.find? (·.name == s)

theorem rank_injective {a b : LogLevel} (h : a.rank = b.rank) : a = b := by
  cases a <;> cases b <;> simp_all [rank]

theorem name_injective {a b : LogLevel} (h : a.name = b.name) : a = b := by
  revert h; cases a <;> cases b <;> decide

@[simp] theorem ofName?_name (l : LogLevel) : ofName? l.name = some l := by
  cases l <;> decide

theorem ofName?_eq_some_iff {s : String} {l : LogLevel} : ofName? s = some l ↔ l.name = s := by
  constructor
  · intro h
    have := List.find?_some h
    simpa using this
  · rintro rfl
    exact ofName?_name l

end LogLevel
end AgentControl
