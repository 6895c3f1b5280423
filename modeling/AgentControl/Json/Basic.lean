import AgentControl.Value.Basic

/-! # JSON

A JSON text as a tree. An object keeps its members as they were written; as a value it is a mapping
in which the last of several members of one name counts.
-/

namespace AgentControl

inductive Json where
  | null
  | bool (b : Bool)
  | int (n : Int)
  | float (x : Float)
  | str (s : String)
  | array (xs : List Json)
  | object (members : List (String × Json))
deriving Inhabited

namespace Json

mutual

def toValue : Json → Value
  | null => .null
  | bool b => .bool b
  | int n => .int n
  | float x => .float x
  | str s => .str s
  | array xs => .list (toValues xs)
  | object members => .dict (addMembers [] members)

def toValues : List Json → List Value
  | [] => []
  | x :: xs => toValue x :: toValues xs

def addMembers (entries : Value.Entries) : List (String × Json) → Value.Entries
  | [] => entries
  | (k, v) :: rest => addMembers (Value.put k (toValue v) entries) rest

end

end Json
end AgentControl
