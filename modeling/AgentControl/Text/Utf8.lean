/-! # UTF-8

Characters as bytes and back. Decoding reads one byte at a time and stops at the first sequence that
is no character, naming where it starts, how many bytes belong to it and what is wrong with it.
-/

namespace AgentControl.Utf8

/-- The bytes of a text. -/
def encode (cs : List Char) : List UInt8 := cs.flatMap String.utf8EncodeChar

@[simp] theorem encode_nil : encode [] = [] := rfl
@[simp] theorem encode_cons (c : Char) (cs : List Char) :
    encode (c :: cs) = String.utf8EncodeChar c ++ encode cs := rfl
@[simp] theorem encode_append (cs ds : List Char) : encode (cs ++ ds) = encode cs ++ encode ds := by
  simp [encode]

inductive Reason where
  | invalidStart
  | invalidContinuation
  | unexpectedEnd
deriving DecidableEq, Repr

def Reason.text : Reason → String
  | .invalidStart => "invalid start byte"
  | .invalidContinuation => "invalid continuation byte"
  | .unexpectedEnd => "unexpected end of data"

/-- The first sequence that is no character: its place, its length and its first byte. -/
structure Fault where
  start : Nat
  length : Nat
  byte : UInt8
  reason : Reason
deriving DecidableEq, Repr

/-- A character of which some bytes are still to come; the next one lies between `low` and
`high`. -/
structure Pending where
  start : Nat
  byte : UInt8
  value : Nat
  missing : Nat
  low : UInt8
  high : UInt8

/-- What a byte beyond ASCII promises when it stands first. -/
def lead (start : Nat) (b : UInt8) : Option Pending :=
  if 0xC2 ≤ b ∧ b ≤ 0xDF then some ⟨start, b, b.toNat - 0xC0, 1, 0x80, 0xBF⟩
  else if b = 0xE0 then some ⟨start, b, 0, 2, 0xA0, 0xBF⟩
  else if b = 0xED then some ⟨start, b, 13, 2, 0x80, 0x9F⟩
  else if 0xE1 ≤ b ∧ b ≤ 0xEF then some ⟨start, b, b.toNat - 0xE0, 2, 0x80, 0xBF⟩
  else if b = 0xF0 then some ⟨start, b, 0, 3, 0x90, 0xBF⟩
  else if 0xF1 ≤ b ∧ b ≤ 0xF3 then some ⟨start, b, b.toNat - 0xF0, 3, 0x80, 0xBF⟩
  else if b = 0xF4 then some ⟨start, b, 4, 3, 0x80, 0x8F⟩
  else none

/-- Reads on from byte `pos` on, with a character half read or none. -/
def decodeFrom (pos : Nat) : Option Pending → List UInt8 → Except Fault (List Char)
  | none, [] => .ok []
  | some p, [] => .error ⟨p.start, pos - p.start, p.byte, .unexpectedEnd⟩
  | none, b :: bs =>
      if b < 0x80 then do
        let cs ← decodeFrom (pos + 1) none bs
        return Char.ofNat b.toNat :: cs
      else match lead pos b with
        | none => .error ⟨pos, 1, b, .invalidStart⟩
        | some p => decodeFrom (pos + 1) (some p) bs
  | some p, b :: bs =>
      if p.low ≤ b ∧ b ≤ p.high then
        let value := p.value * 64 + b.toNat % 64
        if p.missing ≤ 1 then do
          let cs ← decodeFrom (pos + 1) none bs
          return Char.ofNat value :: cs
        else decodeFrom (pos + 1) (some ⟨p.start, p.byte, value, p.missing - 1, 0x80, 0xBF⟩) bs
      else .error ⟨p.start, pos - p.start, p.byte, .invalidContinuation⟩

/-- The text that bytes stand for. -/
def decode (bytes : List UInt8) : Except Fault (List Char) := decodeFrom 0 none bytes

/-- The text that bytes stand for, where only success matters. -/
def decode? (bytes : List UInt8) : Option String :=
  match decode bytes with
  | .ok cs => some (String.ofList cs)
  | .error _ => none

end AgentControl.Utf8
