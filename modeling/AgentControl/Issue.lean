import AgentControl.Value.Shown

/-! # Issues

What is wrong with a value that was to become settings: where, why, and which part of the input it
was. Several issues of one value make a report.
-/

namespace AgentControl

/-- A key of a mapping or a place in a list. -/
inductive Step where
  | key (name : String)
  | index (i : Nat)
deriving DecidableEq, Repr

/-- The way from the outside to a part of a value. -/
abbrev Location := List Step

def Step.text : Step → String
  | key name => name
  | index i => toString i

def locationText (l : Location) : String := Text.join "." (l.map Step.text)

/-- The kinds of settings that can be read from a value. -/
inductive Model where
  | configuration
  | pool
  | console
  | theme
  | logging
deriving DecidableEq, Repr

def Model.title : Model → String
  | configuration => "Configuration"
  | pool => "ConnectionPoolConfiguration"
  | console => "ConsoleSettings"
  | theme => "ThemeSettings"
  | logging => "LoggingSettings"

/-- Why a value of the right type is refused. -/
inductive Refusal where
  | portRange
  | noWorkers
  | negative
  | emptyPreset
  | notPositive
  | duplicateWidgets (names : List String)
deriving DecidableEq, Repr

def Refusal.text : Refusal → String
  | portRange => "Port must be between 1 and 65535"
  | noWorkers => "Worker thread number must be at least 1"
  | negative => "Value must not be negative"
  | emptyPreset => "Theme preset must not be empty"
  | notPositive => "Value must be positive"
  | duplicateWidgets names => "Duplicate widget names: " ++ Text.join ", " names

inductive Cause where
  | missing
  | notInteger
  | notLevel
  | notModel (model : Model)
  | notObject
  | refused (why : Refusal)
  | frozen
  | noField (name : String)
  | notString
  | notUtf8
  | notList
  | notSeverity
  | unreadableInteger
  | integerTooLong
  | fraction
  | notFinite
  | invalidJson (fault : String)
deriving DecidableEq, Repr

/-- The short name of a cause. -/
def Cause.kind : Cause → String
  | missing => "missing"
  | notInteger => "int_type"
  | notLevel => "enum"
  | notModel _ => "model_type"
  | notObject => "model_type"
  | refused _ => "value_error"
  | frozen => "frozen_instance"
  | noField _ => "no_such_attribute"
  | notString => "string_type"
  | notUtf8 => "string_unicode"
  | notList => "list_type"
  | notSeverity => "literal_error"
  | unreadableInteger => "int_parsing"
  | integerTooLong => "int_parsing_size"
  | fraction => "int_from_float"
  | notFinite => "finite_number"
  | invalidJson _ => "json_invalid"

def Cause.message : Cause → String
  | missing => "Field required"
  | notInteger => "Input should be a valid integer"
  | notLevel => "Input should be 'OFF', 'ERROR', 'WARN', 'INFO', 'DEBUG' or 'TRACE'"
  | notModel model => "Input should be a valid dictionary or instance of " ++ model.title
  | notObject => "Input should be an object"
  | refused why => "Value error, " ++ why.text
  | frozen => "Instance is frozen"
  | noField name => "Object has no attribute '" ++ name ++ "'"
  | notString => "Input should be a valid string"
  | notUtf8 => "Input should be a valid string, unable to parse raw data as a unicode string"
  | notList => "Input should be a valid list"
  | notSeverity => "Input should be 'debug', 'info', 'warning' or 'error'"
  | unreadableInteger => "Input should be a valid integer, unable to parse string as an integer"
  | integerTooLong => "Unable to parse input string as an integer, exceeded maximum size"
  | fraction => "Input should be a valid integer, got a number with a fractional part"
  | notFinite => "Input should be a finite number"
  | invalidJson fault => "Invalid JSON: " ++ fault

structure Issue where
  location : Location
  cause : Cause
  input : Value

/-- The issue as seen from one step further out. -/
def Issue.within (s : Step) (i : Issue) : Issue := { i with location := s :: i.location }

def Issue.lines (i : Issue) : List String :=
  (if i.location.isEmpty then [] else [locationText i.location]) ++
    ["  " ++ i.cause.message ++ " [type=" ++ i.cause.kind ++ ", input_value=" ++
      i.input.quotation ++ ", input_type=" ++ i.input.typeName ++ "]"]

/-- All issues of one value. -/
structure Report where
  model : Model
  issues : List Issue

def Report.text (r : Report) : String :=
  Text.join "\n"
    ((toString r.issues.length ++ " validation error" ++
      (if r.issues.length = 1 then "" else "s") ++ " for " ++ r.model.title) ::
      r.issues.flatMap Issue.lines)

/-- The outcome of a check. -/
abbrev Checked (α : Type) := Except (List Issue) α

namespace Checked

variable {α β : Type}

/-- Both outcomes, or the issues of both, the first one's first. -/
def both : Checked α → Checked β → Checked (α × β)
  | .ok a, .ok b => .ok (a, b)
  | .ok _, .error js => .error js
  | .error is, .ok _ => .error is
  | .error is, .error js => .error (is ++ js)

/-- An outcome as seen from one step further out. -/
def within (s : Step) : Checked α → Checked α
  | .ok a => .ok a
  | .error is => .error (is.map (Issue.within s))

def fail (cause : Cause) (input : Value) : Checked α := .error [⟨[], cause, input⟩]

/-- Names the model in which the issues were found. -/
def report (model : Model) : Checked α → Except Report α
  | .ok a => .ok a
  | .error is => .error ⟨model, is⟩

end Checked
end AgentControl
