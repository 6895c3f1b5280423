import AgentControl.LogLevel.Order

/-! # Sorting levels

A stable sort for a comparison that may fail: the longest run the list starts with is taken as it
is, or turned round if it falls, and each further element is put behind all that are not above it,
its place found by halving. Least and greatest elements are the first of their kind.
-/

namespace AgentControl

variable {α ε : Type}

/-- The strictly falling elements after `last`, reversed, and what follows them. -/
def fallingRun (lt : α → α → Except ε Bool) (last : α) (run : List α) :
    List α → Except ε (List α × List α)
  | [] => .ok (last :: run, [])
  | x :: xs => do
      if ← lt x last then fallingRun lt x (last :: run) xs
      else return (last :: run, x :: xs)

/-- The elements after `last` none of which is below the one before, and what follows them. -/
def risingRun (lt : α → α → Except ε Bool) (last : α) : List α → Except ε (List α × List α)
  | [] => .ok ([last], [])
  | x :: xs => do
      if ← lt x last then return ([last], x :: xs)
      else
        let (run, rest) ← risingRun lt x xs
        return (last :: run, rest)

/-- The place in `xs`, between `lo` and `hi`, behind all elements that `x` is not below. -/
def slot (lt : α → α → Except ε Bool) (x : α) (xs : List α) : (fuel lo hi : Nat) → Except ε Nat
  | 0, lo, _ => .ok lo
  | fuel + 1, lo, hi =>
      if lo < hi then
        let mid := lo + (hi - lo) / 2
        match xs[mid]? with
        | none => .ok lo
        | some y => do
            if ← lt x y then slot lt x xs fuel lo mid else slot lt x xs fuel (mid + 1) hi
      else .ok lo

def insertSorted (lt : α → α → Except ε Bool) (x : α) (xs : List α) : Except ε (List α) := do
  let i ← slot lt x xs xs.length 0 xs.length
  return xs.take i ++ x :: xs.drop i

def insertAll (lt : α → α → Except ε Bool) (sorted : List α) : List α → Except ε (List α)
  | [] => .ok sorted
  | x :: xs => do
      let sorted ← insertSorted lt x sorted
      insertAll lt sorted xs

def sortBy (lt : α → α → Except ε Bool) : List α → Except ε (List α)
  | [] => .ok []
  | [x] => .ok [x]
  | x :: y :: xs => do
      let (run, rest) ←
        if ← lt y x then fallingRun lt y [x] xs
        else do
          let (run, rest) ← risingRun lt y xs
          pure (x :: run, rest)
      insertAll lt run rest

/-- The first element that none after it beats, where `beats x best` says that
`x` takes the place. -/
def bestFrom (beats : α → α → Except ε Bool) (best : α) : List α → Except ε α
  | [] => .ok best
  | x :: xs => do
      if ← beats x best then bestFrom beats x xs else bestFrom beats best xs

/-- Why a list has no order or no extremes. -/
inductive SortFault where
  | incomparable (e : Incomparable)
  | empty
deriving DecidableEq, Repr

def SortFault.message : SortFault → String
  | incomparable e => e.message
  | empty => "min() arg is an empty sequence"

structure Sorted where
  rising : List Value
  falling : List Value
  least : Value
  greatest : Value

namespace LogLevel

def less (a b : Value) : Except SortFault Bool := (Value.compareBy .lt a b).mapError .incomparable

def greater (a b : Value) : Except SortFault Bool :=
  (Value.compareBy .gt a b).mapError .incomparable

/-- From least to greatest; elements of one rank stay in order. -/
def sorted (xs : List Value) : Except SortFault (List Value) := sortBy less xs

/-- From greatest to least; elements of one rank stay in order. -/
def sortedDown (xs : List Value) : Except SortFault (List Value) :=
  (sortBy less xs.reverse).map List.reverse

def least (xs : List Value) : Except SortFault Value :=
  match xs with
  | [] => .error .empty
  | x :: xs => bestFrom less x xs

def greatest (xs : List Value) : Except SortFault Value :=
  match xs with
  | [] => .error .empty
  | x :: xs => bestFrom greater x xs

def arrange (xs : List Value) : Except SortFault Sorted := do
  let rising ← sorted xs
  let falling ← sortedDown xs
  let least ← least xs
  let greatest ← greatest xs
  return ⟨rising, falling, least, greatest⟩

end LogLevel
end AgentControl
