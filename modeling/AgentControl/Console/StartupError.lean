import AgentControl.Decimal.Integer
import AgentControl.Text.Sorted

/-! # Startup errors

Why a console cannot be set up or started. Each is fatal: the console does not come up,
and whoever starts it shows the message. An option whose key is an integer of too many
digits cannot even be named.
-/

namespace AgentControl

inductive StartupError where
  | themeNotFound (name : String) (available : List String)
  | unsupportedOption (option reason : String)
  | unknownWidget (name : String) (available : List String)
  | notRegistered (name : String)
  | alreadyRegistered (name : String)
  | alreadyMounted (anchor : String)
  | anchorMissing (anchor : String)
  | overlong (e : Decimal.Overlong)
deriving DecidableEq, Repr

namespace StartupError

/-- Names that could have been given are listed in order. -/
def noTheme (name : String) (available : List String) : StartupError :=
  themeNotFound name (Text.sorted available)

def noWidget (name : String) (available : List String) : StartupError :=
  unknownWidget name (Text.sorted available)

/-- An option that is not recognised. -/
def unsupported (option : String) : StartupError := unsupportedOption option "unsupported option"

def message : StartupError → String
  | themeNotFound name available =>
      "Theme preset '" ++ name ++ "' not found. Available presets: " ++ Text.join ", " available
  | unsupportedOption option reason => "Option '" ++ option ++ "': " ++ reason
  | unknownWidget name available =>
      "Unknown widget '" ++ name ++ "'. Available widgets: " ++ Text.join ", " available
  | notRegistered name => "Widget '" ++ name ++ "' is not registered"
  | alreadyRegistered name => "Widget '" ++ name ++ "' is already registered"
  | alreadyMounted anchor => "Root widget is already mounted at '" ++ anchor ++ "'"
  | anchorMissing anchor => "Mount anchor '" ++ anchor ++ "' not found"
  | overlong e => e.message

end StartupError
end AgentControl
