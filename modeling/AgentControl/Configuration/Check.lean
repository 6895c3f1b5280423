import AgentControl.Issue

/-! # Checking agent configurations

A mapping becomes a configuration field by field. Each field goes by two names, the one on
the wire and the library's own; the wire name counts where both are given. Every field
that is wrong is reported.
-/

namespace AgentControl

open Value (Entries)

/-- Whether a value was given as data or read from JSON text. -/
inductive Origin where
  | data
  | json
deriving DecidableEq, Repr

/-- The two names of a field. -/
structure FieldName where
  wire : String
  own : String
deriving DecidableEq, Repr

namespace FieldName

def port : FieldName := ⟨"agentServerPort", "agent_server_port"⟩
def workers : FieldName := ⟨"workerThreadNumber", "worker_thread_number"⟩
def maxLogLevel : FieldName := ⟨"maxLogLevel", "max_log_level"⟩
def pool : FieldName := ⟨"connectionPoolConfiguration", "connection_pool_configuration"⟩
def checkInterval : FieldName := ⟨"checkInterval", "check_interval"⟩
def fillInterval : FieldName := ⟨"fillInterval", "fill_interval"⟩
def maxPoolSize : FieldName := ⟨"maxPoolSize", "max_pool_size"⟩

/-- The value of a field, with the name it was given under. -/
def find? (f : FieldName) (entries : Entries) : Option (String × Value) :=
  match Value.lookup f.wire entries with
  | some v => some (f.wire, v)
  | none => (Value.lookup f.own entries).map fun v => (f.own, v)

variable {α : Type}

/-- A field that must be there. -/
def required (f : FieldName) (check : Value → Checked α) (entries : Entries) : Checked α :=
  match f.find? entries with
  | some (k, v) => (check v).within (.key k)
  | none => (Checked.fail .missing (.dict entries)).within (.key f.wire)

/-- A field that may be absent or null. -/
def optional (f : FieldName) (check : Value → Checked (Option α)) (entries : Entries) :
    Checked (Option α) :=
  match f.find? entries with
  | some (k, v) => (check v).within (.key k)
  | none => .ok none

end FieldName

/-- The cause that stands for anything in place of a mapping. -/
def Origin.wrongModel : Origin → Model → Cause
  | .data, m => .notModel m
  | .json, _ => .notObject

variable {α : Type}

/-- An integer, and no other number. -/
def checkInteger (check : Int → Option α) (why : Refusal) (v : Value) : Checked α :=
  match v with
  | .int n =>
      match check n with
      | some a => .ok a
      | none => Checked.fail (.refused why) v
  | _ => Checked.fail .notInteger v

def portOf? (n : Int) : Option { p : Nat // 1 ≤ p ∧ p ≤ 65535 } :=
  if h : 1 ≤ n.toNat ∧ n.toNat ≤ 65535 then some ⟨n.toNat, h⟩ else none

def workersOf? (n : Int) : Option { w : Nat // 1 ≤ w } :=
  if h : 1 ≤ n.toNat then some ⟨n.toNat, h⟩ else none

def naturalOf? (n : Int) : Option Nat := if 0 ≤ n then some n.toNat else none

def checkPort : Value → Checked { p : Nat // 1 ≤ p ∧ p ≤ 65535 } := checkInteger portOf? .portRange

def checkWorkers : Value → Checked { w : Nat // 1 ≤ w } := checkInteger workersOf? .noWorkers

def checkNatural : Value → Checked Nat := checkInteger naturalOf? .negative

/-- A level by its name, also in bytes, or a level; null leaves it unset. -/
def checkLevel (v : Value) : Checked (Option LogLevel) :=
  let named (s : String) : Checked (Option LogLevel) :=
    match LogLevel.ofName? s with
    | some l => .ok (some l)
    | none => Checked.fail .notLevel v
  match v with
  | .null => .ok none
  | .level l => .ok (some l)
  | .str s => named s
  | .bytes bs =>
      match Utf8.decode? bs with
      | some s => named s
      | none => Checked.fail .notLevel v
  | _ => Checked.fail .notLevel v

namespace ConnectionPool

def ofEntries (entries : Entries) : Checked ConnectionPool :=
  match (FieldName.checkInterval.required checkNatural entries).both
      ((FieldName.fillInterval.required checkNatural entries).both
        (FieldName.maxPoolSize.required checkNatural entries)) with
  | .ok (check, fill, size) => .ok ⟨check, fill, size⟩
  | .error is => .error is

def check (origin : Origin) (v : Value) : Checked ConnectionPool :=
  match v with
  | .pool p => .ok p
  | .dict entries => ofEntries entries
  | _ => Checked.fail (origin.wrongModel .pool) v

def checkOptional (origin : Origin) (v : Value) : Checked (Option ConnectionPool) :=
  match v with
  | .null => .ok none
  | v => (check origin v).map some

end ConnectionPool

namespace Configuration

def ofEntries (origin : Origin) (entries : Entries) : Checked Configuration :=
  match (FieldName.port.required checkPort entries).both
      ((FieldName.workers.required checkWorkers entries).both
        ((FieldName.maxLogLevel.optional checkLevel entries).both
          (FieldName.pool.optional (ConnectionPool.checkOptional origin) entries))) with
  | .ok (port, workers, level, pool) =>
      .ok ⟨port.1, workers.1, level, pool, port.2.1, port.2.2, workers.2⟩
  | .error is => .error is

def check (origin : Origin) (v : Value) : Checked Configuration :=
  match v with
  | .configuration c => .ok c
  | .dict entries => ofEntries origin entries
  | _ => Checked.fail (origin.wrongModel .configuration) v

/-- Builds a configuration from fields under either of their names. -/
def ofFields (entries : Entries) : Except Report Configuration :=
  (ofEntries .data entries).report .configuration

end Configuration

/-- Builds a pool from fields under either of their names. -/
def ConnectionPool.ofFields (entries : Entries) : Except Report ConnectionPool :=
  (ConnectionPool.ofEntries entries).report .pool

end AgentControl
