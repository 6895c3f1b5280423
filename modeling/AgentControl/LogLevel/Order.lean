import AgentControl.Value.Basic
import AgentControl.Value.Shown

/-! # Comparing levels

An operand that is asked how it compares with another one answers or leaves the answer to that
one. A level answers by rank, to a level and to the name of one; a text answers to every text,
a level among them, by the characters. The left operand is asked first, unless a level stands
to the right of a text.
-/

namespace AgentControl

/-- An order comparison. -/
inductive Comparison where
  | lt
  | le
  | gt
  | ge
deriving DecidableEq, Repr

namespace Comparison

def symbol : Comparison → String
  | lt => "<"
  | le => "<="
  | gt => ">"
  | ge => ">="

/-- The comparison as it is read from right to left. -/
def mirror : Comparison → Comparison
  | lt => gt
  | le => ge
  | gt => lt
  | ge => le

def holds : Comparison → Ordering → Bool
  | lt, o => o == .lt
  | le, o => o != .gt
  | gt, o => o == .gt
  | ge, o => o != .lt

/-- Whether the comparison holds of two operands the first of which is `gap` above the second. -/
def holdsAt : Comparison → (gap : Int) → Bool
  | lt, gap => gap < 0
  | le, gap => gap ≤ 0
  | gt, gap => 0 < gap
  | ge, gap => 0 ≤ gap

end Comparison

/-- The order of texts by the code points of their characters. -/
def textOrder : List Char → List Char → Ordering
  | [], [] => .eq
  | [], _ :: _ => .lt
  | _ :: _, [] => .gt
  | c :: cs, d :: ds => (compare c.toNat d.toNat).then (textOrder cs ds)

/-- A comparison that the types of its operands do not admit. -/
structure Incomparable where
  comparison : Comparison
  left : String
  right : String
deriving DecidableEq, Repr

def Incomparable.message (e : Incomparable) : String :=
  "'" ++ e.comparison.symbol ++ "' not supported between instances of '" ++ e.left ++ "' and '" ++
    e.right ++ "'"

namespace LogLevel

/-- The level that a value is or names. -/
def named? : Value → Option LogLevel
  | .level l => some l
  | .str s => ofName? s
  | _ => none

/-- How far a level ranks above the one that a value is or names. -/
def gap? (l : LogLevel) (v : Value) : Option Int :=
  (named? v).map fun m => (l.rank : Int) - m.rank

/-- What a level answers, where it knows the other operand. -/
def answer? (c : Comparison) (l : LogLevel) (v : Value) : Option Bool := (l.gap? v).map c.holdsAt

end LogLevel

namespace Value

/-- What a value answers when it is asked for a comparison with another one, if it does. -/
def answer? (c : Comparison) (a b : Value) : Option Bool :=
  match a with
  | level l => l.answer? c b
  | str s => b.text?.map fun t => c.holds (textOrder s.toList t.toList)
  | a =>
      match a.whole?, b.whole? with
      | some m, some n => some (c.holds (compare m n))
      | _, _ => none

/-- Whether a level stands to the right of a text. -/
def yields : (left right : Value) → Bool
  | str _, level _ => true
  | _, _ => false

def compareBy (c : Comparison) (a b : Value) : Except Incomparable Bool :=
  let left := a.answer? c b
  let right := b.answer? c.mirror a
  match if a.yields b then right.or left else left.or right with
  | some holds => .ok holds
  | none => .error ⟨c, a.typeName, b.typeName⟩

/-- Whether two values, one of them a level, are the same text. -/
def sameText (a b : Value) : Bool :=
  match a.text?, b.text? with
  | some s, some t => s == t
  | _, _ => false

end Value
end AgentControl
