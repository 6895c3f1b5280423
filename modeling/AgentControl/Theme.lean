/-! # Themes

A theme names the colours of the console; one that is left out is chosen by the toolkit.
-/

namespace AgentControl

structure Theme where
  name : String
  dark : Bool
  primary : String
  secondary : Option String
  accent : Option String
  foreground : Option String
  background : Option String
  surface : Option String
  panel : Option String
  success : Option String
  warning : Option String
  error : Option String
deriving DecidableEq, Repr

end AgentControl
