import AgentControl.Text.Blank

/-! # Integers in text

A decimal digit of any script counts. An integer is read with blanks around it, an optional sign and
single underscores between its digits. A decimal of more than 4300 digits is refused, and so is an
integer that would need more of them to be put into a text.
-/

namespace AgentControl.Decimal

/-- The zeros of the scripts that have decimal digits; each is followed by its nine others. -/
def zeros : List Nat :=
  [0x30, 0x660, 0x6F0, 0x7C0, 0x966, 0x9E6, 0xA66, 0xAE6, 0xB66, 0xBE6, 0xC66, 0xCE6, 0xD66,
   0xDE6, 0xE50, 0xED0, 0xF20, 0x1040, 0x1090, 0x17E0, 0x1810, 0x1946, 0x19D0, 0x1A80, 0x1A90,
   0x1B50, 0x1BB0, 0x1C40, 0x1C50, 0xA620, 0xA8D0, 0xA900, 0xA9D0, 0xA9F0, 0xAA50, 0xABF0, 0xFF10,
   0x104A0, 0x10D30, 0x11066, 0x110F0, 0x11136, 0x111D0, 0x112F0, 0x11450, 0x114D0, 0x11650,
   0x116C0, 0x11730, 0x118E0, 0x11950, 0x11C50, 0x11D50, 0x11DA0, 0x16A60, 0x16AC0, 0x16B50,
   0x1D7CE, 0x1D7D8, 0x1D7E2, 0x1D7EC, 0x1D7F6, 0x1E140, 0x1E2F0, 0x1E950, 0x1FBF0]

/-- The value of a decimal digit. -/
def digit? (c : Char) : Option Nat :=
  zeros.findSome? fun z => if z ≤ c.toNat ∧ c.toNat < z + 10 then some (c.toNat - z) else none

/-- The value of a digit below `base`, where letters follow the nine. -/
def digitBelow? (base : Nat) (c : Char) : Option Nat :=
  let n := c.toNat
  let value :=
    if 0x61 ≤ n ∧ n ≤ 0x7A then some (n - 0x61 + 10)
    else if 0x41 ≤ n ∧ n ≤ 0x5A then some (n - 0x41 + 10)
    else digit? c
  value.filter (· < base)

def isAsciiDigit (c : Char) : Bool := 0x30 ≤ c.toNat && c.toNat ≤ 0x39

/-- The number that digits write, most significant first. -/
def ofDigits (base : Nat) (ds : List Nat) : Nat := ds.foldl (fun n d => n * base + d) 0

/-- Why a text is no integer. -/
inductive Fault where
  | malformed
  | tooLong (digits : Nat)
deriving DecidableEq, Repr

/-- The most digits a decimal integer may have. -/
def maxDigits : Nat := 4300

/-- The leading digits and what follows them; `none` if an underscore stands at an end of the run or
beside another one. -/
def scanDigits (base : Nat) : (afterUnderscore : Bool) → List Char → Option (List Nat × List Char)
  | after, [] => if after then none else some ([], [])
  | after, c :: cs =>
      if c = '_' then if after then none else scanDigits base true cs
      else match digitBelow? base c with
        | some d => (scanDigits base false cs).map fun (ds, rest) => (d :: ds, rest)
        | none => if after then none else some ([], c :: cs)

/-- Splits off a sign; `true` stands for minus. -/
def sign : List Char → Bool × List Char
  | '-' :: cs => (true, cs)
  | '+' :: cs => (false, cs)
  | cs => (false, cs)

/-- The letter that marks a base in text. -/
def baseMark (base : Nat) : Option (Char × Char) :=
  if base = 16 then some ('x', 'X')
  else if base = 8 then some ('o', 'O')
  else if base = 2 then some ('b', 'B')
  else none

/-- Drops the mark of the base and one underscore behind it. -/
def dropMark (base : Nat) : List Char → List Char
  | '0' :: c :: cs =>
      match baseMark base with
      | some (lower, upper) =>
          if c = lower ∨ c = upper then
            match cs with
            | '_' :: rest => rest
            | rest => rest
          else '0' :: c :: cs
      | none => '0' :: c :: cs
  | cs => cs

/-- Whether `digits` digits are more than a number in this base may have. -/
def overLong (base digits : Nat) : Bool :=
  base != 2 && base != 8 && base != 16 && maxDigits < digits

/-- The integer that a text writes in `base`. -/
def parse (base : Nat) (cs : List Char) : Except Fault Int :=
  let (negative, body) := sign (Text.trimBy Text.isSpace cs)
  match dropMark base body with
  | '_' :: _ => .error .malformed
  | body =>
      match scanDigits base false body with
      | none => .error .malformed
      | some (ds, rest) =>
          if overLong base ds.length then .error (.tooLong ds.length)
          else if ds.isEmpty || !rest.isEmpty then .error .malformed
          else .ok (if negative then -(ofDigits base ds : Int) else (ofDigits base ds : Int))

/-- The digits of an integer, behind a sign where it is negative, however many they are. -/
def ofInt (n : Int) : String := toString n

/-- An integer has too many digits to be put into a text. -/
structure Overlong where
deriving DecidableEq, Repr

def Overlong.message (_ : Overlong) : String :=
  "Exceeds the limit (" ++ ofInt maxDigits ++
    " digits) for integer string conversion; use sys.set_int_max_str_digits() to increase the limit"

/-- An integer as a text takes it in. -/
def text (n : Int) : Except Overlong String :=
  if overLong 10 (Nat.toDigits 10 n.natAbs).length then .error ⟨⟩ else .ok (ofInt n)

end AgentControl.Decimal
