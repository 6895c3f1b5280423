/-! # Faults in JSON text

What is wrong with a text that is no JSON, and where: the offending byte is known by the number of
bytes from it to the end, so a reader need not count.
-/

namespace AgentControl.Json

inductive Cause where
  | endInValue
  | endInList
  | endInObject
  | endInString
  | expectedValue
  | expectedIdentifier
  | expectedColon
  | expectedObjectCommaOrEnd
  | expectedListCommaOrEnd
  | keyNotString
  | trailingComma
  | trailingCharacters
  | invalidNumber
  | numberTooLong
  | invalidEscape
  | unfinishedPair
  | loneSurrogate
  | invalidCharacter
  | controlCharacter
  | tooDeep
deriving DecidableEq, Repr

def Cause.text : Cause → String
  | endInValue => "EOF while parsing a value"
  | endInList => "EOF while parsing a list"
  | endInObject => "EOF while parsing an object"
  | endInString => "EOF while parsing a string"
  | expectedValue => "expected value"
  | expectedIdentifier => "expected ident"
  | expectedColon => "expected `:`"
  | expectedObjectCommaOrEnd => "expected `,` or `\x7d`"
  | expectedListCommaOrEnd => "expected `,` or `]`"
  | keyNotString => "key must be a string"
  | trailingComma => "trailing comma"
  | trailingCharacters => "trailing characters"
  | invalidNumber => "invalid number"
  | numberTooLong => "number out of range"
  | invalidEscape => "invalid escape"
  | unfinishedPair => "unexpected end of hex escape"
  | loneSurrogate => "lone leading surrogate in hex escape"
  | invalidCharacter => "invalid unicode code point"
  | controlCharacter => "control character (\\u0000-\\u001F) found while parsing a string"
  | tooDeep => "recursion limit exceeded"

structure Fault where
  cause : Cause
  /-- How many bytes there are from the offending one on; none at the end of the text. -/
  remaining : Nat
deriving DecidableEq, Repr

/-- A line, counted from one, and a column in it, counted in bytes. -/
structure Position where
  line : Nat
  column : Nat
deriving DecidableEq, Repr

/-- The position of the byte `skip` bytes on; a line feed itself stands in column 0 of the next
line, and past the end the column is the length of the last line. -/
def position (line column : Nat) : (skip : Nat) → List UInt8 → Position
  | _, [] => ⟨line, column⟩
  | skip, b :: bs =>
      let (line, column) := if b = 0x0A then (line + 1, 0) else (line, column + 1)
      match skip with
      | 0 => ⟨line, column⟩
      | skip + 1 => position line column skip bs

/-- The fault as text, for the bytes it was found in. -/
def Fault.text (f : Fault) (bytes : List UInt8) : String :=
  let p := position 1 0 (bytes.length - f.remaining) bytes
  f.cause.text ++ " at line " ++ toString p.line ++ " column " ++ toString p.column

end AgentControl.Json
