import AgentControl.Configuration.Check
import AgentControl.Json.Printer
import AgentControl.Json.Reader

/-! # The wire form of a configuration

A configuration as it travels to the agent: an object with the wire names in the order of the
fields, in which unset fields do not occur, and its JSON text. Decoding takes the wire form back and
says of everything that is wrong where it stands.
-/

namespace AgentControl

def ConnectionPool.toWire (p : ConnectionPool) : Json :=
  .object [(FieldName.checkInterval.wire, .int p.checkInterval),
    (FieldName.fillInterval.wire, .int p.fillInterval),
    (FieldName.maxPoolSize.wire, .int p.maxPoolSize)]

namespace Configuration

/-- The members that are there only when they are set. -/
def setMembers (c : Configuration) : List (String × Json) :=
  (match c.maxLogLevel with
    | none => []
    | some l => [(FieldName.maxLogLevel.wire, .str l.name)]) ++
  (match c.pool with
    | none => []
    | some p => [(FieldName.pool.wire, p.toWire)])

def toWire (c : Configuration) : Json :=
  .object ((FieldName.port.wire, .int c.port) :: (FieldName.workers.wire, .int c.workers) ::
    c.setMembers)

/-- The wire form as text, on one line or with an indent. -/
def toJson (c : Configuration) (indent : Option Nat) : String := c.toWire.print indent

end Configuration

/-- What is wrong with an agent configuration: each place with what is wrong there, and the issues
behind them where it was a value that was checked. -/
structure ConfigurationError where
  errors : List (String × String)
  issues : List Issue

namespace ConfigurationError

def ofIssues (issues : List Issue) : ConfigurationError :=
  ⟨issues.map fun i => (locationText i.location, i.cause.message), issues⟩

def line : String × String → String
  | (place, message) => if place.isEmpty then message else place ++ ": " ++ message

def message (e : ConfigurationError) : String :=
  "Invalid agent configuration: " ++ Text.join "; " (e.errors.map line)

end ConfigurationError

namespace Configuration

variable {α : Type}

def orError (r : Checked α) : Except ConfigurationError α :=
  match r with
  | .ok a => .ok a
  | .error is => .error (.ofIssues is)

/-- Decodes a wire mapping. -/
def fromWire (v : Value) : Except ConfigurationError Configuration := orError (check .data v)

/-- Decodes JSON text. -/
def fromJson (bytes : List UInt8) : Except ConfigurationError Configuration :=
  match Json.read bytes with
  | .ok j => orError (check .json j.toValue)
  | .error f => orError (Checked.fail (.invalidJson (f.text bytes)) (.bytes bytes))

/-- The bytes of a text. -/
def bytesOf (s : String) : List UInt8 := Utf8.encode s.toList

end Configuration
end AgentControl
