import AgentControl.Configuration.Basic
import AgentControl.Theme
import AgentControl.Calendar
import AgentControl.Decimal.Real

/-! # Values

What settings are made of before they are checked: plain data as a file or a caller gives it, and
configurations, pools, levels and themes that have been built already. A mapping keeps its entries
in the order they were given. Inside itself a collection is a mark.
-/

namespace AgentControl

/-- The kinds of collection that may hold themselves. -/
inductive Collection where
  | list
  | tuple
  | dict
deriving DecidableEq, Repr

inductive Value where
  | null
  | bool (b : Bool)
  | int (n : Int)
  | float (x : Float)
  | str (s : String)
  | bytes (bs : List UInt8)
  | list (xs : List Value)
  | tuple (xs : List Value)
  | set (xs : List Value)
  | dict (entries : List (Value × Value))
  | date (d : Date)
  | dateTime (t : DateTime)
  | level (l : LogLevel)
  | pool (p : ConnectionPool)
  | configuration (c : Configuration)
  | theme (t : Theme)
  | backReference (kind : Collection)
deriving Inhabited

namespace Value

abbrev Entries := List (Value × Value)

/-- The text of a value that counts as text. -/
def text? : Value → Option String
  | str s => some s
  | level l => some l.name
  | _ => none

/-- The number of a value that counts as an integer in comparisons. -/
def whole? : Value → Option Int
  | bool b => some (if b then 1 else 0)
  | int n => some n
  | float x => Decimal.integral? x
  | _ => none

/-- Whether two values are the same mapping key: numbers by their size, texts by their
characters. -/
def sameKey (a b : Value) : Bool :=
  match a.whole?, b.whole? with
  | some m, some n => m == n
  | some _, none => false
  | none, some _ => false
  | none, none =>
      match a.text?, b.text? with
      | some s, some t => s == t
      | some _, none => false
      | none, some _ => false
      | none, none =>
          match a, b with
          | null, null => true
          | float x, float y => x == y || (x.isNaN && y.isNaN)
          | bytes x, bytes y => x == y
          | date x, date y => x == y
          | dateTime x, dateTime y => x.sameMoment y
          | _, _ => false

/-- The value under a text key. -/
def lookup (key : String) : Entries → Option Value
  | [] => none
  | (str k, v) :: rest => if k = key then some v else lookup key rest
  | _ :: rest => lookup key rest

/-- Puts a value under a text key: in place where the key is there, at the end otherwise. -/
def put (key : String) (v : Value) : Entries → Entries
  | [] => [(str key, v)]
  | (str k, w) :: rest => if k = key then (str k, v) :: rest else (str k, w) :: put key v rest
  | e :: rest => e :: put key v rest

/-- Puts a value under any key, which keeps the spelling it was first given in. -/
def putKey (key v : Value) : Entries → Entries
  | [] => [(key, v)]
  | (k, w) :: rest => if sameKey k key then (k, v) :: rest else (k, w) :: putKey key v rest

/-- A mapping from text keys. -/
def record (fields : List (String × Value)) : Value := dict (fields.map fun (k, v) => (str k, v))

end Value
end AgentControl
