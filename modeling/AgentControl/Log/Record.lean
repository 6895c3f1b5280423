/-! # Log records

A message with its weight and the name of the logger that it was given to.
-/

namespace AgentControl

structure LogRecord where
  logger : String
  weight : Nat
  message : String
deriving DecidableEq, Repr

namespace Weight

/-- The name of a weight; one between the usual ones goes by its number. -/
def name (weight : Nat) : String :=
  match weight with
  | 0 => "NOTSET"
  | 10 => "DEBUG"
  | 20 => "INFO"
  | 30 => "WARNING"
  | 40 => "ERROR"
  | 50 => "CRITICAL"
  | n => "Level " ++ toString n

end Weight

namespace LogRecord

def debug (logger message : String) : LogRecord := ⟨logger, 10, message⟩

def info (logger message : String) : LogRecord := ⟨logger, 20, message⟩

def error (logger message : String) : LogRecord := ⟨logger, 40, message⟩

end LogRecord
end AgentControl
