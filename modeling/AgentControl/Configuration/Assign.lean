import AgentControl.Configuration.Check

/-! # Assigning to a configuration

An assignment to a field goes by the field's own name and is checked as construction is; under any
other name, and anywhere in a pool, it is refused.
-/

namespace AgentControl

namespace Configuration

variable {α : Type}

/-- A checked value for the field of this name. -/
def assigned (f : FieldName) (check : Value → Checked α) (v : Value) : Checked α :=
  (check v).within (.key f.own)

/-- The configuration with one field replaced. -/
def assignChecked (c : Configuration) (field : String) (v : Value) : Checked Configuration :=
  if field = FieldName.port.own then
    (assigned .port checkPort v).map fun ⟨p, h₁, h₂⟩ =>
      ⟨p, c.workers, c.maxLogLevel, c.pool, h₁, h₂, c.one_le_workers⟩
  else if field = FieldName.workers.own then
    (assigned .workers checkWorkers v).map fun ⟨w, h⟩ =>
      ⟨c.port, w, c.maxLogLevel, c.pool, c.one_le_port, c.port_le, h⟩
  else if field = FieldName.maxLogLevel.own then
    (assigned .maxLogLevel checkLevel v).map fun l => { c with maxLogLevel := l }
  else if field = FieldName.pool.own then
    (assigned .pool (ConnectionPool.checkOptional .data) v).map fun p => { c with pool := p }
  else (Checked.fail (.noField field) v).within (.key field)

def assign (c : Configuration) (field : String) (v : Value) : Except Report Configuration :=
  (c.assignChecked field v).report .configuration

end Configuration

/-- A pool does not change once it is built. -/
def ConnectionPool.assign (_ : ConnectionPool) (field : String) (v : Value) :
    Except Report ConnectionPool :=
  ((Checked.fail .frozen v).within (.key field)).report .pool

end AgentControl
