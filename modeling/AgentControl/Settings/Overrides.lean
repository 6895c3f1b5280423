import AgentControl.Value.Basic
import AgentControl.Text.Blank

/-! # Overrides

Settings given one by one under dotted keys, written into a mapping in the order they were given. A
key names the sections on the way to its setting; what is no section there makes way for one.
-/

namespace AgentControl

open Value (Entries)

/-- Settings by dotted key, each key once. -/
abbrev Overrides := List (String × Value)

namespace Overrides

/-- The parts of a dotted key, empty ones included. -/
def keyPath (key : String) : List String := (Text.splitOn '.' key.toList).map String.ofList

def section? : Option Value → Entries
  | some (.dict entries) => entries
  | _ => []

/-- Writes a value at the end of a path. -/
def assign : (path : List String) → Value → Entries → Entries
  | [], _, es => es
  | [leaf], v, es => Value.put leaf v es
  | name :: next :: rest, v, es =>
      Value.put name (.dict (assign (next :: rest) v (section? (Value.lookup name es)))) es

def apply (os : Overrides) (es : Entries) : Entries :=
  os.foldl (fun es (key, v) => assign (keyPath key) v es) es

/-- Of several values under one key the last counts, at the place of the first. -/
def ofList (pairs : List (String × Value)) : Overrides :=
  pairs.foldl (fun os (key, v) =>
    if os.any (·.1 == key) then os.map fun o => if o.1 = key then (key, v) else o
    else os ++ [(key, v)]) []

end Overrides
end AgentControl
