import AgentControl.Configuration.Assign
import AgentControl.Configuration.Wire

/-! # Editing sessions

A configuration in the hands of someone who builds, decodes, assigns, reads, keeps and takes up
again. A step that fails leaves everything as it was. A kept configuration that has been taken up is
the current one itself, so assignments change both.
-/

namespace AgentControl

/-- The current configuration, those kept by name, and the name under which the
current one is kept. -/
structure Session where
  current : Option Configuration
  kept : List (String × Configuration)
  heldAs : Option String

namespace Session

def start : Session := ⟨none, [], none⟩

inductive Command where
  | construct (fields : Value.Entries)
  | fromJson (bytes : List UInt8)
  | fromWire (v : Value)
  | assign (field : String) (v : Value)
  | assignPool (field : String) (v : Value)
  | toWire
  | toJson (indent : Option Int)
  | summary
  | reparse (indent : Option Int)
  | save (slot : String)
  | equals (slot : String)
  | load (slot : String)

inductive Answer where
  | done
  | refused (r : Report)
  | undecodable (e : ConfigurationError)
  | noPool
  | negativeIndent
  | overlong (e : Decimal.Overlong)
  | wire (j : Json)
  | text (s : String)
  | flag (b : Bool)

/-- An indent, where it is not negative. -/
def indent? : Option Int → Option (Option Nat)
  | none => some none
  | some n => if 0 ≤ n then some (some n.toNat) else none

/-- Takes a new configuration as the current one. -/
def adopt (s : Session) (c : Configuration) : Session := ⟨some c, s.kept, none⟩

/-- Replaces the current configuration by what an assignment made of it, where it is kept as
well. -/
def replace (s : Session) (c : Configuration) : Session :=
  match s.heldAs with
  | none => ⟨some c, s.kept, none⟩
  | some slot => ⟨some c, s.kept.map fun e => if e.1 = slot then (e.1, c) else e, some slot⟩

def keep (s : Session) (slot : String) (c : Configuration) : Session :=
  ⟨s.current, (slot, c) :: s.kept.filter (fun e => e.1 ≠ slot),
    if s.heldAs = some slot then none else s.heldAs⟩

/-- Does with the current configuration, where there is one, what only reads it. -/
def reading (s : Session) (answer : Configuration → Answer) : Session × Answer :=
  match s.current with
  | none => (s, .done)
  | some c => (s, answer c)

def reads (c : Configuration) (indent : Option Nat) : Bool :=
  match Configuration.fromJson (Configuration.bytesOf (c.toJson indent)) with
  | .ok d => d == c
  | .error _ => false

def step (s : Session) : Command → Session × Answer
  | .construct fields =>
      match Configuration.ofFields fields with
      | .ok c => (s.adopt c, .done)
      | .error r => (s, .refused r)
  | .fromJson bytes =>
      match Configuration.fromJson bytes with
      | .ok c => (s.adopt c, .done)
      | .error e => (s, .undecodable e)
  | .fromWire v =>
      match Configuration.fromWire v with
      | .ok c => (s.adopt c, .done)
      | .error e => (s, .undecodable e)
  | .assign field v =>
      match s.current with
      | none => (s, .done)
      | some c =>
          match c.assign field v with
          | .ok c => (s.replace c, .done)
          | .error r => (s, .refused r)
  | .assignPool field v =>
      s.reading fun c =>
        match c.pool with
        | none => .noPool
        | some p =>
            match p.assign field v with
            | .ok _ => .done
            | .error r => .refused r
  | .toWire => s.reading fun c => .wire c.toWire
  | .toJson indent =>
      s.reading fun c =>
        match indent? indent with
        | some indent => .text (c.toJson indent)
        | none => .negativeIndent
  | .summary =>
      s.reading fun c =>
        match c.summary with
        | .ok line => .text line
        | .error e => .overlong e
  | .reparse indent =>
      s.reading fun c =>
        match indent? indent with
        | some indent => .flag (reads c indent)
        | none => .negativeIndent
  | .save slot =>
      match s.current with
      | none => (s, .done)
      | some c => (s.keep slot c, .done)
  | .equals slot =>
      s.reading fun c => .flag ((s.kept.lookup slot).any (· == c))
  | .load slot =>
      match s.kept.lookup slot with
      | none => (s, .done)
      | some c => (⟨some c, s.kept, some slot⟩, .done)

/-- The answers of a run, each with the session after it. -/
def run (s : Session) : List Command → List (Session × Answer)
  | [] => []
  | c :: cs =>
      let r := s.step c
      r :: run r.1 cs

end Session
end AgentControl
