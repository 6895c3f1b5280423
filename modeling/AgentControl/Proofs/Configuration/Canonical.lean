import AgentControl.Proofs.Configuration.FromWire
import AgentControl.Proofs.Configuration.RoundTrip

/-! # The canonical mapping

A mapping that is decoded is encoded again as its canonical form: the fields that it gives, each
once under its wire name and in the order of the fields, and nothing of what is null or not
recognised. The text of a configuration is the same mapping in JSON.
-/

namespace AgentControl

open Value (Entries Plain)

/-! ## What a mapping gives for a field -/

namespace FieldName

variable {f : FieldName} {entries : Entries} {k : String} {v : Value} {reduce : Value → Value}

/-- The value under the wire name, else under the library's own, where it is more than null. -/
def effective? (f : FieldName) (entries : Entries) : Option Value :=
  match (Value.lookup f.wire entries).or (Value.lookup f.own entries) with
  | some .null => none
  | given => given

/-- The entry of a field under its wire name, if the mapping gives it. -/
def kept (f : FieldName) (reduce : Value → Value) (entries : Entries) : Entries :=
  ((f.effective? entries).map fun v => (.str f.wire, reduce v)).toList

section Kept

variable (hd : Value.DistinctKeys entries)
include hd

end Kept

end FieldName

/-! ## Canonical mappings -/

section

variable {f : FieldName} {entries : Entries} {level : Option LogLevel}
  {pool : Option ConnectionPool}

end

namespace Configuration

variable {c : Configuration} {entries : Entries}

end Configuration

end AgentControl
