import AgentControl.Decimal.Integer

/-! # Binary fractions in decimal

A float as a sign, a mantissa and a power of two; the shortest decimal that reads back as it,
written out positionally from 0.0001 up to sixteen places and with an exponent otherwise; and the
float that a decimal text means.
-/

namespace AgentControl.Decimal

/-- What the bits of a float say. -/
inductive Parts where
  | nan
  | infinite (negative : Bool)
  | finite (negative : Bool) (mantissa : Nat) (exponent : Int)
deriving DecidableEq, Repr

/-- A finite float is its mantissa times two to its exponent. -/
def parts (x : Float) : Parts :=
  let bits := x.toBits.toNat
  let negative := bits / Nat.pow 2 63 == 1
  let biased : Nat := bits / Nat.pow 2 52 % Nat.pow 2 11
  let fraction := bits % Nat.pow 2 52
  if biased == 2047 then if fraction == 0 then .infinite negative else .nan
  else if biased == 0 then .finite negative fraction (-1074)
  else .finite negative (fraction + Nat.pow 2 52) ((biased : Int) - 1075)

/-- The integer a float is, if it is one. -/
def integral? (x : Float) : Option Int :=
  match parts x with
  | .finite negative m e =>
      let signed (n : Nat) : Int := if negative then -(n : Int) else (n : Int)
      if 0 ≤ e then some (signed (m * Nat.pow 2 e.toNat))
      else
        let d := Nat.pow 2 (-e).toNat
        if m % d == 0 then some (signed (m / d)) else none
  | _ => none

/-- Compares `c * 10 ^ k` with `a * 2 ^ e`. -/
def compareScaled (c : Nat) (k : Int) (a : Nat) (e : Int) : Ordering :=
  compare (c * Nat.pow 10 k.toNat * Nat.pow 2 (-e).toNat)
    (a * Nat.pow 2 e.toNat * Nat.pow 10 (-k).toNat)

/-- The decimal exponent of a positive `m * 2 ^ e`: ten to it is the largest power not above. -/
def decimalExponent (m : Nat) (e : Int) : Int :=
  let guess := (e + (Nat.log2 m : Int)) * 30103 / 100000
  let guess := if compareScaled 1 guess m e == .gt then guess - 1 else guess
  if compareScaled 1 (guess + 1) m e == .gt then guess else guess + 1

/-- The neighbour of `m * 2 ^ e` on the grid of multiples of `10 ^ k` that reads back as it, the
nearer one if both do and the even one if they are equally near. -/
def onGrid (m : Nat) (e k : Int) : Option Nat :=
  let floor := m * Nat.pow 2 e.toNat * Nat.pow 10 (-k).toNat /
    (Nat.pow 2 (-e).toNat * Nat.pow 10 k.toNat)
  let lowest := if m == Nat.pow 2 52 && e != -1074 then 4 * m - 1 else 4 * m - 2
  let closed := m % 2 == 0
  let fits (c : Nat) : Bool :=
    let below := compareScaled c k lowest (e - 2)
    let above := compareScaled c k (4 * m + 2) (e - 2)
    (below == .gt || (closed && below == .eq)) && (above == .lt || (closed && above == .eq))
  match fits floor, fits (floor + 1) with
  | false, false => none
  | true, false => some floor
  | false, true => some (floor + 1)
  | true, true =>
      match compareScaled (2 * floor + 1) k (2 * m) e with
      | .gt => some floor
      | .lt => some (floor + 1)
      | .eq => some (if floor % 2 == 0 then floor else floor + 1)

/-- The first grid that has a decimal, from one digit on: its digits and the grid's exponent. -/
def shortestFrom (m : Nat) (e top : Int) : (more digits : Nat) → Nat × Int
  | 0, n =>
      let k := top - (n : Int) + 1
      ((onGrid m e k).getD 0, k)
  | more + 1, n =>
      let k := top - (n : Int) + 1
      match onGrid m e k with
      | some c => (c, k)
      | none => shortestFrom m e top more (n + 1)

/-- The shortest decimal of a positive float, as digits without trailing zeros
and a power of ten. -/
def shortest (m : Nat) (e : Int) : List Char × Int :=
  let (c, k) := shortestFrom m e (decimalExponent m e) 16 1
  let digits := Nat.toDigits 10 c
  let kept := (digits.reverse.dropWhile (· == '0')).reverse
  (kept, k + ((digits.length - kept.length : Nat) : Int))

/-- Digits with the point `point` places behind their start. -/
def layOut (digits : List Char) (point : Int) : List Char :=
  if -4 < point ∧ point ≤ 16 then
    if point ≤ 0 then '0' :: '.' :: (List.replicate (-point).toNat '0' ++ digits)
    else
      let n := point.toNat
      if digits.length ≤ n then digits ++ List.replicate (n - digits.length) '0' ++ ['.', '0']
      else digits.take n ++ '.' :: digits.drop n
  else
    let exponent := point - 1
    let size := Nat.toDigits 10 exponent.natAbs
    let size := if size.length < 2 then '0' :: size else size
    let mantissa := match digits with
      | [] => []
      | [d] => [d]
      | d :: ds => d :: '.' :: ds
    mantissa ++ 'e' :: (if exponent < 0 then '-' else '+') :: size

/-- The text of a float. -/
def ofFloat (x : Float) : String :=
  match parts x with
  | .nan => "nan"
  | .infinite negative => if negative then "-inf" else "inf"
  | .finite negative m e =>
      let body :=
        if m == 0 then ['0', '.', '0']
        else
          let (digits, k) := shortest m e
          layOut digits (k + (digits.length : Int))
      String.ofList (if negative then '-' :: body else body)

/-- The float next to `m * 10 ^ e`; what lies beyond every float or below all of them is settled
before the power is formed. -/
def toFloat (m : Nat) (e : Int) : Float :=
  let size := (Nat.toDigits 10 m).length
  if m == 0 then 0.0
  else if 400 < e + (size : Int) then 1.0 / 0.0
  else if e + (size : Int) < -400 then 0.0
  else if e < 0 then Float.ofScientific m true (-e).toNat
  else Float.ofScientific m false e.toNat

/-- Digits of a decimal, underscores already out. -/
def takeDigits : List Char → List Nat × List Char
  | [] => ([], [])
  | c :: cs =>
      match digit? c with
      | some d =>
          let (ds, rest) := takeDigits cs
          (d :: ds, rest)
      | none => ([], c :: cs)

/-- Drops single underscores between digits; `none` if one stands elsewhere. -/
def dropUnderscores : (previous : Option Char) → List Char → Option (List Char)
  | some '_', [] => none
  | _, [] => some []
  | previous, c :: cs =>
      let isDigit (c : Char) : Bool := (digit? c).isSome
      if c = '_' then
        if previous.any isDigit then dropUnderscores (some c) cs else none
      else if previous == some '_' && !isDigit c then none
      else (dropUnderscores (some c) cs).map (c :: ·)

def lowerAscii (c : Char) : Char :=
  if 0x41 ≤ c.toNat ∧ c.toNat ≤ 0x5A then Char.ofNat (c.toNat + 32) else c

/-- The exponent behind a mantissa: absent, or `e`, a sign and at least one digit. -/
def exponent? : List Char → Option Int
  | [] => some 0
  | c :: cs =>
      if c = 'e' ∨ c = 'E' then
        let (negative, body) := sign cs
        let (ds, rest) := takeDigits body
        if ds.isEmpty || !rest.isEmpty then none
        else some (if negative then -(ofDigits 10 ds : Int) else (ofDigits 10 ds : Int))
      else none

/-- The size that a decimal without sign writes. -/
def magnitude? (cs : List Char) : Option Float :=
  let word := String.ofList (cs.map lowerAscii)
  if word == "inf" || word == "infinity" then some (1.0 / 0.0)
  else if word == "nan" then some (0.0 / 0.0)
  else
    let (whole, rest) := takeDigits cs
    let (places, rest) := match rest with
      | '.' :: rest => takeDigits rest
      | rest => ([], rest)
    if whole.isEmpty && places.isEmpty then none
    else (exponent? rest).map fun e =>
      toFloat (ofDigits 10 (whole ++ places)) (e - (places.length : Int))

/-- The float that a text writes, with blanks around it and an optional sign. -/
def parseFloat (cs : List Char) : Option Float :=
  match dropUnderscores none (Text.trimBy Text.isSpace cs) with
  | none => none
  | some body =>
      let (negative, body) := sign body
      (magnitude? body).map fun x => if negative then -x else x

end AgentControl.Decimal
