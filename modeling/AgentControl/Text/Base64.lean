/-! # Base 64

Bytes as groups of six bits. Reading passes over every character outside the alphabet, stops once a
group is padded out, and refuses a group that is left unfinished.
-/

namespace AgentControl.Base64

/-- The six bits of a character of the alphabet. -/
def sextet? (c : Char) : Option Nat :=
  let n := c.toNat
  if 0x41 ≤ n ∧ n ≤ 0x5A then some (n - 0x41)
  else if 0x61 ≤ n ∧ n ≤ 0x7A then some (n - 0x61 + 26)
  else if 0x30 ≤ n ∧ n ≤ 0x39 then some (n - 0x30 + 52)
  else if c = '+' then some 62
  else if c = '/' then some 63
  else none

/-- Reads on with `read` characters of a group behind, whose bits that make no byte yet are `bits`,
and `pads` signs of padding behind them. -/
def decodeFrom : (read bits pads : Nat) → List Char → Option (List UInt8)
  | read, _, _, [] => if read = 0 then some [] else none
  | read, bits, pads, c :: cs =>
      if c = '=' then
        if 2 ≤ read then
          if 4 ≤ read + pads + 1 then some [] else decodeFrom read bits (pads + 1) cs
        else decodeFrom read bits pads cs
      else match sextet? c with
        | none => decodeFrom read bits pads cs
        | some v =>
            match read with
            | 0 => decodeFrom 1 v 0 cs
            | 1 => (decodeFrom 2 (v % 16) 0 cs).map ((bits * 4 + v / 16).toUInt8 :: ·)
            | 2 => (decodeFrom 3 (v % 4) 0 cs).map ((bits * 16 + v / 4).toUInt8 :: ·)
            | _ => (decodeFrom 0 0 0 cs).map ((bits * 64 + v).toUInt8 :: ·)

/-- The bytes that a text stands for. -/
def decode? (cs : List Char) : Option (List UInt8) := decodeFrom 0 0 0 cs

end AgentControl.Base64
