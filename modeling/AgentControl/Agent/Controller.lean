import AgentControl.Configuration.Wire
import AgentControl.Log.Record

/-! # Agent control

A controller that starts no process: it keeps the configuration it was last given, knows whether it
counts as running, and logs what it is asked for.
-/

namespace AgentControl

structure Controller where
  running : Bool := false
  last : Option Configuration := none
deriving DecidableEq

namespace Controller

def logger : String := "agent_console.tui.controller"

def restarting : LogRecord :=
  .info logger "Agent already running, restarting with new configuration"

def received (c : Configuration) : LogRecord :=
  .info logger ("Received agent configuration: " ++ c.toJson none)

def idle : LogRecord := .debug logger "Stop requested but agent is not running"

def stopping : LogRecord := .info logger "Stopping agent"

/-- Starts the agent, or restarts it. -/
def start (s : Controller) (c : Configuration) : Controller × List LogRecord :=
  (⟨true, some c⟩, (if s.running then [restarting] else []) ++ [received c])

/-- Stops the agent, if it runs. -/
def stop (s : Controller) : Controller × List LogRecord :=
  if s.running then ({ s with running := false }, [stopping]) else (s, [idle])

end Controller
end AgentControl
