import AgentControl.LogLevel
import AgentControl.Decimal.Integer

/-! # Agent configuration

The settings an agent is asked to run with. What the fields may hold is part of their types: a port
is a TCP port, at least one worker runs, and the numbers of a pool are not negative. An unset log
level or pool leaves the choice to the agent and differs from every set one.
-/

namespace AgentControl

/-- The pool of outbound connections; a size of zero disables it. -/
structure ConnectionPool where
  checkInterval : Nat
  fillInterval : Nat
  maxPoolSize : Nat
deriving DecidableEq, Repr

namespace ConnectionPool

def enabled (p : ConnectionPool) : Bool := 0 < p.maxPoolSize

end ConnectionPool

structure Configuration where
  port : Nat
  workers : Nat
  maxLogLevel : Option LogLevel
  pool : Option ConnectionPool
  one_le_port : 1 ≤ port
  port_le : port ≤ 65535
  one_le_workers : 1 ≤ workers
deriving DecidableEq

namespace Configuration

def levelSummary (c : Configuration) : String :=
  match c.maxLogLevel with
  | none => "default"
  | some l => l.name

def poolSummary (c : Configuration) : Except Decimal.Overlong String :=
  match c.pool with
  | none => .ok "default"
  | some p =>
      if p.enabled then do
        let size ← Decimal.text p.maxPoolSize
        let check ← Decimal.text p.checkInterval
        let fill ← Decimal.text p.fillInterval
        return "max=" ++ size ++ " check=" ++ check ++ " fill=" ++ fill
      else .ok "disabled"

/-- One line for people to read. There is none where an integer that belongs into it is too long. -/
def summary (c : Configuration) : Except Decimal.Overlong String := do
  let pool ← c.poolSummary
  let port ← Decimal.text c.port
  let workers ← Decimal.text c.workers
  return "port=" ++ port ++ " workers=" ++ workers ++ " log=" ++ c.levelSummary ++ " pool=" ++ pool

end Configuration
end AgentControl
