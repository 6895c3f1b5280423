import AgentControl.Decimal.Real

/-! # Integers in settings

A looser way to write an integer than in a program's data: zeros may lead, a point with
nothing but zeros may follow, and a number that is whole counts though it is no integer.
Only ASCII digits count.
-/

namespace AgentControl.Decimal.Lenient

/-- Why a text or number is no integer. -/
inductive Fault where
  | unreadable
  | tooLong
  | fraction
  | notFinite
deriving DecidableEq, Repr

/-- Drops zeros in front, and underscores between them; `previous` is the character before. Of zeros
alone, or before a point, the last character stays. -/
def dropZeros (previous : Char) : List Char → Option (List Char)
  | [] => some [previous]
  | c :: cs =>
      if c = '0' ∨ c = '_' then dropZeros c cs
      else if isAsciiDigit c then some (c :: cs)
      else if c = '.' then some (previous :: c :: cs)
      else none

/-- The text from its first digit above zero on. -/
def significant : List Char → Option (List Char)
  | [] => none
  | c :: cs =>
      if c = '0' then dropZeros c cs
      else if isAsciiDigit c then some (c :: cs)
      else none

/-- Drops a point behind which there are only zeros. -/
def dropPoint (cs : List Char) : List Char :=
  let whole := cs.takeWhile (· != '.')
  if (cs.drop (whole.length + 1)).all (· == '0') then whole else cs

/-- Drops single underscores between digits; others stay. -/
def dropSeparators (cs : List Char) : List Char :=
  let doubled := (cs.zip cs.tail).any fun (a, b) => a == '_' && b == '_'
  if cs.head? == some '_' || cs.getLast? == some '_' || doubled then cs
  else cs.filter (· != '_')

/-- Splits off one sign; a plus before a minus is no sign. -/
def signed : List Char → Option (Bool × List Char)
  | '+' :: '-' :: _ => none
  | '+' :: cs => some (false, cs)
  | '-' :: cs => some (true, cs)
  | cs => some (false, cs)

/-- The integer that a text writes. -/
def parse (text : List Char) : Except Fault Int :=
  match (signed (Text.trimBy Text.isSpace text)).bind fun (negative, cs) =>
      (significant cs).map fun cs => (negative, dropSeparators (dropPoint cs)) with
  | none => .error .unreadable
  | some (negative, cs) =>
      if cs.all isAsciiDigit then
        if maxDigits < cs.length then .error .tooLong
        else
          let n := ofDigits 10 (cs.filterMap digit?)
          .ok (if negative then -(n : Int) else (n : Int))
      else .error .unreadable

/-- The integer that a float is; from two to the sixty-third on floats are too large. -/
def ofFloat (x : Float) : Except Fault Int :=
  match parts x, integral? x with
  | .nan, _ | .infinite _, _ => .error .notFinite
  | .finite _ _ _, none => .error .fraction
  | .finite _ _ _, some n => if n.natAbs < Nat.pow 2 63 then .ok n else .error .tooLong

end AgentControl.Decimal.Lenient
