import AgentControl.Json.Basic
import AgentControl.Json.Fault
import AgentControl.Text.Utf8

/-! # Reading JSON

A reader on bytes. Each part takes what it needs off the front and returns the rest, so a fault is
placed by what was left. Numbers may be infinite or no number, an integer has at most 4300 digits
and containers nest at most 200 deep.
-/

namespace AgentControl.Json

abbrev Bytes := List UInt8

def failAt {α : Type} (cause : Cause) (bs : Bytes) : Except Fault α := .error ⟨cause, bs.length⟩

def ascii (c : Char) : UInt8 := c.toNat.toUInt8

def isBlank (b : UInt8) : Bool := b == 0x20 || b == 0x09 || b == 0x0A || b == 0x0D

def skipBlanks (bs : Bytes) : Bytes := bs.dropWhile isBlank

def isDigit (b : UInt8) : Bool := 0x30 ≤ b && b ≤ 0x39

/-- Reads the bytes of a word that has been begun. -/
def word : List Char → Bytes → Except Fault Bytes
  | [], bs => .ok bs
  | _ :: _, [] => failAt .endInValue []
  | c :: cs, b :: bs => if ascii c = b then word cs bs else failAt .expectedIdentifier (b :: bs)

/-! ## Strings -/

/-- How far an escape has been read. -/
inductive Escape where
  | none
  | started
  | digits (high : Option Nat) (missing value : Nat)
  | pairBackslash (high : Nat)
  | pairLetter (high : Nat)

def simpleEscape? (b : UInt8) : Option UInt8 :=
  if b = ascii '"' ∨ b = ascii '\\' ∨ b = ascii '/' then some b
  else if b = ascii 'b' then some 8
  else if b = ascii 'f' then some 12
  else if b = ascii 'n' then some 10
  else if b = ascii 'r' then some 13
  else if b = ascii 't' then some 9
  else .none

def hexValue? (b : UInt8) : Option Nat :=
  if isDigit b then some (b.toNat - 0x30)
  else if 0x61 ≤ b ∧ b ≤ 0x66 then some (b.toNat - 0x61 + 10)
  else if 0x41 ≤ b ∧ b ≤ 0x46 then some (b.toNat - 0x41 + 10)
  else .none

def isHighSurrogate (n : Nat) : Bool := 0xD800 ≤ n && n ≤ 0xDBFF

def isLowSurrogate (n : Nat) : Bool := 0xDC00 ≤ n && n ≤ 0xDFFF

/-- Puts bytes in front of the contents of a string. -/
def prepend (new : Bytes) : Except Fault (Bytes × Bytes) → Except Fault (Bytes × Bytes)
  | .ok (content, rest) => .ok (new ++ content, rest)
  | .error f => .error f

/-- The contents of a string up to its closing quote, escapes resolved, and what follows the
quote. -/
def stringFrom : Escape → Bytes → Except Fault (Bytes × Bytes)
  | _, [] => failAt .endInString []
  | .none, b :: bs =>
      if b = ascii '"' then .ok ([], bs)
      else if b = ascii '\\' then stringFrom .started bs
      else if b < 0x20 then failAt .controlCharacter (b :: bs)
      else prepend [b] (stringFrom .none bs)
  | .started, b :: bs =>
      if b = ascii 'u' then stringFrom (.digits .none 4 0) bs
      else match simpleEscape? b with
        | some c => prepend [c] (stringFrom .none bs)
        | .none => failAt .invalidEscape (b :: bs)
  | .digits high missing value, b :: bs =>
      match hexValue? b with
      | .none =>
          if bs.length + 1 < missing then failAt .endInString []
          else failAt .invalidEscape (b :: bs)
      | some d =>
          let n := value * 16 + d
          if 1 < missing then stringFrom (.digits high (missing - 1) n) bs
          else match high with
            | .none =>
                if isLowSurrogate n then failAt .loneSurrogate (b :: bs)
                else if isHighSurrogate n then stringFrom (.pairBackslash n) bs
                else prepend (String.utf8EncodeChar (Char.ofNat n)) (stringFrom .none bs)
            | some h =>
                if isLowSurrogate n then
                  let c := Char.ofNat ((h - 0xD800) * 0x400 + (n - 0xDC00) + 0x10000)
                  prepend (String.utf8EncodeChar c) (stringFrom .none bs)
                else failAt .loneSurrogate (b :: bs)
  | .pairBackslash high, b :: bs =>
      if b = ascii '\\' then stringFrom (.pairLetter high) bs else failAt .unfinishedPair (b :: bs)
  | .pairLetter high, b :: bs =>
      if b = ascii 'u' then stringFrom (.digits (some high) 4 0) bs
      else failAt .unfinishedPair (b :: bs)

/-- A string whose opening quote has been read. -/
def string (bs : Bytes) : Except Fault (String × Bytes) :=
  match stringFrom .none bs with
  | .error f => .error f
  | .ok (content, rest) =>
      match Utf8.decode content with
      | .ok cs => .ok (String.ofList cs, rest)
      | .error f => .error ⟨.invalidCharacter, bs.length - f.start⟩

/-! ## Numbers -/

def digitValue (b : UInt8) : Nat := b.toNat - 0x30

def takeDigits (bs : Bytes) : List Nat × Bytes :=
  ((bs.takeWhile isDigit).map digitValue, bs.dropWhile isDigit)

/-- Digits, of which there must be one. -/
def someDigits (bs : Bytes) : Except Fault (List Nat × Bytes) :=
  match bs with
  | [] => failAt .endInValue []
  | b :: _ => if isDigit b then .ok (takeDigits bs) else failAt .invalidNumber bs

/-- An exponent whose letter has been read. -/
def exponent (bs : Bytes) : Except Fault (Int × Bytes) :=
  let (negative, body) := match bs with
    | b :: rest =>
        if b = ascii '-' then (true, rest) else if b = ascii '+' then (false, rest) else (false, bs)
    | [] => (false, bs)
  match someDigits body with
  | .error f => .error f
  | .ok (ds, rest) =>
      let n : Int := Decimal.ofDigits 10 ds
      .ok (if negative then -n else n, rest)

def isExponentLetter (b : UInt8) : Bool := b == ascii 'e' || b == ascii 'E'

/-- What follows the whole part of a number that is no integer. -/
def fraction (negative : Bool) (whole : List Nat) (bs : Bytes) : Except Fault (Json × Bytes) :=
  let finish (places : List Nat) (e : Int) : Json :=
    let x := Decimal.toFloat (Decimal.ofDigits 10 (whole ++ places)) (e - (places.length : Int))
    .float (if negative then -x else x)
  let withExponent (places : List Nat) (rest : Bytes) : Except Fault (Json × Bytes) :=
    match rest with
    | b :: rest' =>
        if isExponentLetter b then
          match exponent rest' with
          | .error f => .error f
          | .ok (e, rest) => .ok (finish places e, rest)
        else .ok (finish places 0, rest)
    | [] => .ok (finish places 0, [])
  match bs with
  | b :: rest =>
      if b = ascii '.' then
        match someDigits rest with
        | .error f => .error f
        | .ok (places, rest) => withExponent places rest
      else withExponent [] bs
  | [] => .ok (finish [] 0, [])

def startsFraction : Bytes → Bool
  | b :: _ => b == ascii '.' || isExponentLetter b
  | [] => false

/-- A number from its sign or first digit on. -/
def number (bs : Bytes) : Except Fault (Json × Bytes) :=
  let (negative, body) := match bs with
    | b :: rest => if b = ascii '-' then (true, rest) else (false, bs)
    | [] => (false, bs)
  match body with
  | [] => failAt .endInValue []
  | b :: rest =>
      if b = ascii '0' then
        if startsFraction rest then fraction negative [0] rest
        else match rest with
          | c :: _ => if isDigit c then failAt .invalidNumber rest else .ok (.int 0, rest)
          | [] => .ok (.int 0, [])
      else if isDigit b then
        let (ds, rest) := takeDigits body
        if Decimal.maxDigits < bs.length - rest.length then
          .error ⟨.numberTooLong, bs.length - (Decimal.maxDigits + 1)⟩
        else if startsFraction rest then fraction negative ds rest
        else
          let n : Int := Decimal.ofDigits 10 ds
          .ok (.int (if negative then -n else n), rest)
      else if b = ascii 'I' then
        match word "nfinity".toList rest with
        | .error f => .error f
        | .ok rest => .ok (.float (if negative then -(1.0 / 0.0) else 1.0 / 0.0), rest)
      else failAt .invalidNumber body

/-! ## Values -/

/-- A word, once its first letter has been read, as a value. -/
def constant (letters : List Char) (j : Json) (bs : Bytes) : Except Fault (Json × Bytes) :=
  match word letters bs with
  | .error f => .error f
  | .ok rest => .ok (j, rest)

/-- A member's name and colon, up to the first byte of its value; the opening
quote has been read. -/
def memberName (bs : Bytes) : Except Fault (String × Bytes) :=
  match string bs with
  | .error f => .error f
  | .ok (name, rest) =>
      match skipBlanks rest with
      | [] => failAt .endInObject []
      | b :: rest =>
          if b = ascii ':' then
            match skipBlanks rest with
            | [] => failAt .endInValue []
            | c :: rest => .ok (name, c :: rest)
          else failAt .expectedColon (b :: rest)

/-- The deepest nesting of containers that hold something. -/
def maxDepth : Nat := 200

mutual

/-- A value from its first byte on; `depth` more containers may be opened around others. -/
def value : (fuel depth : Nat) → Bytes → Except Fault (Json × Bytes)
  | 0, _, bs => failAt .tooDeep bs
  | _ + 1, _, [] => failAt .endInValue []
  | fuel + 1, depth, b :: bs =>
      if b = ascii '{' then
        match skipBlanks bs with
        | [] => failAt .endInObject []
        | c :: rest =>
            if c = ascii '}' then .ok (.object [], rest)
            else if c = ascii '"' then
              match members fuel depth rest with
              | .error f => .error f
              | .ok (ms, rest) => .ok (.object ms, rest)
            else failAt .keyNotString (c :: rest)
      else if b = ascii '[' then
        match skipBlanks bs with
        | [] => failAt .endInList []
        | c :: rest =>
            if c = ascii ']' then .ok (.array [], rest)
            else match items fuel depth (c :: rest) with
              | .error f => .error f
              | .ok (xs, rest) => .ok (.array xs, rest)
      else if b = ascii '"' then
        match string bs with
        | .error f => .error f
        | .ok (s, rest) => .ok (.str s, rest)
      else if b = ascii 't' then constant "rue".toList (.bool true) bs
      else if b = ascii 'f' then constant "alse".toList (.bool false) bs
      else if b = ascii 'n' then constant "ull".toList .null bs
      else if b = ascii 'N' then constant "aN".toList (.float (0.0 / 0.0)) bs
      else if b = ascii 'I' then constant "nfinity".toList (.float (1.0 / 0.0)) bs
      else if b = ascii '-' ∨ isDigit b then number (b :: bs)
      else failAt .expectedValue (b :: bs)

/-- The items of an array from the first byte of one on, with the closing bracket. -/
def items : (fuel depth : Nat) → Bytes → Except Fault (List Json × Bytes)
  | 0, _, bs => failAt .tooDeep bs
  | _ + 1, 0, bs => failAt .tooDeep bs
  | fuel + 1, depth + 1, bs =>
      match value fuel depth bs with
      | .error f => .error f
      | .ok (x, rest) =>
          match skipBlanks rest with
          | [] => failAt .endInList []
          | b :: rest =>
              if b = ascii ']' then .ok ([x], rest)
              else if b = ascii ',' then
                match skipBlanks rest with
                | [] => failAt .endInValue []
                | c :: rest =>
                    if c = ascii ']' then failAt .trailingComma (c :: rest)
                    else match items fuel (depth + 1) (c :: rest) with
                      | .error f => .error f
                      | .ok (xs, rest) => .ok (x :: xs, rest)
              else failAt .expectedListCommaOrEnd (b :: rest)

/-- The members of an object from behind the opening quote of a name on, with the closing brace. -/
def members : (fuel depth : Nat) → Bytes → Except Fault (List (String × Json) × Bytes)
  | 0, _, bs => failAt .tooDeep bs
  | fuel + 1, depth, bs =>
      match memberName bs with
      | .error f => .error f
      | .ok (name, rest) =>
          match depth with
          | 0 => failAt .tooDeep rest
          | depth' + 1 =>
              match value fuel depth' rest with
              | .error f => .error f
              | .ok (v, rest) =>
                  match skipBlanks rest with
                  | [] => failAt .endInObject []
                  | b :: rest =>
                      if b = ascii '}' then .ok ([(name, v)], rest)
                      else if b = ascii ',' then
                        match skipBlanks rest with
                        | [] => failAt .endInValue []
                        | c :: rest =>
                            if c = ascii '"' then
                              match members fuel depth rest with
                              | .error f => .error f
                              | .ok (ms, rest) => .ok ((name, v) :: ms, rest)
                            else if c = ascii '}' then failAt .trailingComma (c :: rest)
                            else failAt .keyNotString (c :: rest)
                      else failAt .expectedObjectCommaOrEnd (b :: rest)

end

/-- The tree that a whole text writes. -/
def read (bytes : Bytes) : Except Fault Json :=
  match skipBlanks bytes with
  | [] => failAt .endInValue []
  | b :: bs =>
      match value (bytes.length + maxDepth + 2) maxDepth (b :: bs) with
      | .error f => .error f
      | .ok (j, rest) =>
          match skipBlanks rest with
          | [] => .ok j
          | c :: rest => failAt .trailingCharacters (c :: rest)

end AgentControl.Json
