import AgentControl.Agent.Form
import AgentControl.Configuration.Session
import AgentControl.LogLevel.Sorting
import AgentControl.Main
import AgentControl.Proofs.Agent.InStep
import AgentControl.Proofs.Configuration.Assignment
import AgentControl.Proofs.Console.Start
import AgentControl.Proofs.Console.Launch
import AgentControl.Proofs.Settings.Reading
import AgentControl.Proofs.Settings.Overrides
import AgentControl.Proofs.Settings.Precedence
import AgentControl.Proofs.Settings.Failure
import AgentControl.Proofs.CommandLine.Launch
import AgentControl.Proofs.Settings.LastWrite
import AgentControl.Proofs.Settings.Reordering
import AgentControl.Proofs.Schema.Satisfaction
import AgentControl.Proofs.Configuration.Published
import AgentControl.Proofs.Json.Size
import AgentControl.Proofs.Configuration.Normal
import AgentControl.Proofs.CommandLine.Validate
import AgentControl.Proofs.Decimal.Numeral
import AgentControl.Proofs.Agent.Reading
import AgentControl.Proofs.Agent.Replay
import AgentControl.Proofs.Configuration.Canonical
import AgentControl.Proofs.Settings.Normal
import AgentControl.Proofs.LogLevel.Ranking
import AgentControl.Proofs.Configuration.Summary
import AgentControl.Proofs.Log.Handlers
import AgentControl.Proofs.Settings.Repetition
