import AgentControl.Agent.Controller

/-! # The settings form

Five inputs and a choice of log level, read as an agent configuration and filled from one.
An input that holds only blanks counts as empty. The pool is sent as soon as one of its
inputs holds a number, and then all of them are needed. Filling breaks off at a number that
is too long to be shown.
-/

namespace AgentControl

inductive FormField where
  | port
  | workers
  | checkInterval
  | fillInterval
  | maxPoolSize
deriving DecidableEq, Repr

namespace FormField

def agentFields : List FormField := [port, workers]

def poolFields : List FormField := [checkInterval, fillInterval, maxPoolSize]

def all : List FormField := agentFields ++ poolFields

/-- The name of the input on the screen. -/
def id : FormField → String
  | port => "agent-server-port"
  | workers => "worker-thread-number"
  | checkInterval => "check-interval"
  | fillInterval => "fill-interval"
  | maxPoolSize => "max-pool-size"

def ofId? (s : String) : Option FormField := all.find? fun f => f.id = s

def wire : FormField → String
  | port => FieldName.port.wire
  | workers => FieldName.workers.wire
  | checkInterval => FieldName.checkInterval.wire
  | fillInterval => FieldName.fillInterval.wire
  | maxPoolSize => FieldName.maxPoolSize.wire

/-- The number that a configuration has for the input. -/
def number? (c : Configuration) : FormField → Option Nat
  | port => some c.port
  | workers => some c.workers
  | checkInterval => c.pool.map (·.checkInterval)
  | fillInterval => c.pool.map (·.fillInterval)
  | maxPoolSize => c.pool.map (·.maxPoolSize)

/-- Where an issue with the input is located. -/
def place (f : FormField) : String :=
  if poolFields.contains f then FieldName.pool.wire ++ "." ++ f.wire else f.wire

end FormField

/-- What the inputs hold and which level is chosen. -/
structure FormContent where
  text : FormField → String := fun _ => ""
  level : Option LogLevel := none

namespace FormContent

def set (s : FormContent) (f : FormField) (text : String) : FormContent :=
  { s with text := fun g => if g = f then text else s.text g }

/-- The integer in an input; none in an empty one, and a failure where something else stands. -/
def number (s : FormContent) (f : FormField) : Except Unit (Option Int) :=
  let cs := Text.trimBy Text.isBlank (s.text f).toList
  if cs.isEmpty then .ok none
  else match Decimal.parse 10 cs with
    | .ok n => .ok (some n)
    | .error _ => .error ()

/-- The entries of the inputs that hold an integer. -/
def entries (s : FormContent) (fields : List FormField) : Value.Entries :=
  fields.filterMap fun f =>
    match s.number f with
    | .ok (some n) => some (.str f.wire, .int n)
    | _ => none

/-- The inputs that hold something but no integer. -/
def unreadable (s : FormContent) (fields : List FormField) : List FormField :=
  fields.filter fun f =>
    match s.number f with
    | .ok _ => false
    | .error _ => true

def levelEntries (s : FormContent) : Value.Entries :=
  match s.level with
  | none => []
  | some l => [(.str FieldName.maxLogLevel.wire, .level l)]

def poolEntries (s : FormContent) : Value.Entries :=
  match s.entries FormField.poolFields with
  | [] => []
  | es => [(.str FieldName.pool.wire, .dict es)]

/-- The wire mapping of what the form holds. -/
def wire (s : FormContent) : Value :=
  .dict (s.entries FormField.agentFields ++ s.levelEntries ++ s.poolEntries)

/-- The configuration that the form holds. -/
def read (s : FormContent) : Except ConfigurationError Configuration :=
  match s.unreadable FormField.all with
  | [] => Configuration.fromWire s.wire
  | fields => .error ⟨fields.map fun f => (f.place, Cause.notInteger.message), []⟩

/-- The text that an input shows of a configuration. -/
def textOf (c : Configuration) (f : FormField) : Except Decimal.Overlong String :=
  match f.number? c with
  | none => .ok ""
  | some n => Decimal.text n

/-- Writes fields of a configuration into their inputs, one after the other, up to one whose
number is too long. -/
def write (s : FormContent) (c : Configuration) :
    List FormField → FormContent × Option Decimal.Overlong
  | [] => (s, none)
  | f :: fields =>
      match textOf c f with
      | .ok text => (s.set f text).write c fields
      | .error e => (s, some e)

/-- Fills the form from a configuration, over what it holds. -/
def fill (s : FormContent) (c : Configuration) : FormContent × Option Decimal.Overlong :=
  match s.write c FormField.agentFields with
  | (s, none) => { s with level := c.maxLogLevel }.write c FormField.poolFields
  | (s, some e) => (s, some e)

end FormContent

/-- A short message to the user. -/
structure Notice where
  title : String
  message : String
  isError : Bool
deriving DecidableEq, Repr

/-- The line that tells whether the agent runs, and whether it is marked so. -/
structure StatusLine where
  text : String := "Agent stopped"
  marked : Bool := false
deriving DecidableEq, Repr

/-- The form on the screen, with the controller it drives. -/
structure Form where
  content : FormContent := {}
  agentRunning : Bool := false
  status : StatusLine := {}
  controller : Controller := {}

namespace Form

/-- The form as it comes up, filled where a configuration is given. -/
def start (initial : Option Configuration) : Form :=
  match initial with
  | none => {}
  | some c => { content := (FormContent.fill {} c).1 }

/-- Notes whether the agent runs; the status line follows a change. -/
def note (s : Form) (running : Bool) : Form :=
  if running = s.agentRunning then s
  else { s with
    agentRunning := running
    status := ⟨if running then "Agent running" else "Agent stopped", running⟩ }

inductive Command where
  | set (f : FormField) (text : String)
  | choose (level : Option LogLevel)
  | read
  | start
  | stop
  | load (c : Configuration)

/-- What a command answers, notifies and logs, and what broke it off. -/
structure Answer where
  configuration : Option (Except ConfigurationError Configuration) := none
  notices : List Notice := []
  records : List LogRecord := []
  raised : Option Decimal.Overlong := none

/-- Hands what the form holds to the controller, or tells what is wrong with it. -/
def startAgent (s : Form) : Form × Answer :=
  match s.content.read with
  | .error e => (s, { notices := [⟨"Invalid configuration", e.message, true⟩] })
  | .ok c =>
      let (controller, records) := s.controller.start c
      (({ s with controller }).note true,
        match c.summary with
        | .ok line =>
            { configuration := some (.ok c), notices := [⟨"Agent started", line, false⟩], records }
        | .error e => { records, raised := some e })

def stopAgent (s : Form) : Form × Answer :=
  let (controller, records) := s.controller.stop
  (({ s with controller }).note false, { records })

def step (s : Form) : Command → Form × Answer
  | .set f text => ({ s with content := s.content.set f text }, {})
  | .choose level => ({ s with content := { s.content with level } }, {})
  | .read => (s, { configuration := some s.content.read })
  | .start => s.startAgent
  | .stop => s.stopAgent
  | .load c =>
      let (content, raised) := s.content.fill c
      ({ s with content }, { raised })

/-- The forms and answers after each command. -/
def run (s : Form) : List Command → List (Form × Answer)
  | [] => []
  | c :: cs =>
      let (t, a) := s.step c
      (t, a) :: t.run cs

end Form
end AgentControl
