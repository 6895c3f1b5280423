import AgentControl.Yaml.Node
import AgentControl.Text.Base64
import AgentControl.Text.Lowercase

/-! # What scalars mean

The value of a scalar under its tag. A word whose tag was written out may not fit it; each tag
refuses such words in its own way.
-/

namespace AgentControl.Yaml.Scalar

/-- The integer that digits of a base write. -/
def wholeIn (base : Nat) (cs : List Char) : Except Fault Int :=
  match Decimal.parse base cs with
  | .ok n => .ok n
  | .error (.tooLong digits) => .error (.longInteger digits)
  | .error .malformed => .error (.notInteger base (String.ofList cs))

/-- Splits off a sign; there has to be something in front of which it may stand. -/
def signed : List Char → Except Fault (Bool × List Char)
  | [] => .error .emptyNumber
  | c :: cs => .ok (if c = '-' then (true, cs) else
      if c = '+' then (false, cs) else (false, c :: cs))

/-- Digits of base sixty, most significant first. -/
def ofSixtieths (ds : List Int) : Int := ds.foldl (fun n d => n * 60 + d) 0

/-- An integer: binary behind `0b`, hexadecimal behind `0x`, octal behind another zero, and in
sixties where colons stand between the digits. -/
def int (text : List Char) : Except Fault Int := do
  let (negative, body) ← signed (text.filter (· != '_'))
  let n ← match body with
    | [] => .error .emptyNumber
    | ['0'] => pure 0
    | '0' :: 'b' :: rest => wholeIn 2 rest
    | '0' :: 'x' :: rest => wholeIn 16 rest
    | '0' :: _ => wholeIn 8 body
    | _ =>
        if body.contains ':' then ofSixtieths <$> (Text.splitOn ':' body).mapM (wholeIn 10)
        else wholeIn 10 body
  return if negative then -n else n

def real (cs : List Char) : Except Fault Float :=
  match Decimal.parseFloat cs with
  | some x => .ok x
  | none => .error (.notReal (String.ofList cs))

/-- Sums parts from the last, each worth sixty times the one behind it. -/
def sumSixtieths : (weight : Nat) → List Float → Float → Except Fault Float
  | _, [], sum => .ok sum
  | weight, x :: xs, sum =>
      if 2 ^ 1024 ≤ weight then .error .realRange
      else sumSixtieths (weight * 60) xs (sum + x * Decimal.toFloat weight 0)

def float (text : List Char) : Except Fault Float := do
  let (negative, body) ← signed (Text.lower (text.filter (· != '_')))
  if body == ".nan".toList then return 0.0 / 0.0
  let x ←
    if body == ".inf".toList then pure (1.0 / 0.0)
    else if body.contains ':' then do
      let parts ← (Text.splitOn ':' body).mapM real
      sumSixtieths 1 parts.reverse 0.0
    else real body
  return if negative then -x else x

def bool (text : List Char) : Except Fault Bool :=
  let word := String.ofList (Text.lower text)
  if word == "yes" || word == "true" || word == "on" then .ok true
  else if word == "no" || word == "false" || word == "off" then .ok false
  else .error (.notBool word)

def binary (text : List Char) : Except Fault (List UInt8) :=
  if text.all fun c => c.toNat < 0x80 then
    match Base64.decode? text with
    | some bs => .ok bs
    | none => malformed
  else malformed

/-- The value of a text under a tag. A tag of collections, a mark of mappings and an
unknown tag have none. -/
def value (tag : Tag) (text : String) : Except Fault Value :=
  let cs := text.toList
  match tag with
  | .null => .ok .null
  | .bool => (bool cs).map .bool
  | .int => (int cs).map .int
  | .float => (float cs).map .float
  | .binary => (binary cs).map .bytes
  | .timestamp =>
      match Stamp.ofText? cs with
      | some s => s.value
      | none => .error .notTimestamp
  | .str => .ok (.str text)
  | .seq | .map | .set | .omap | .pairs | .merge | .value | .other => malformed

end AgentControl.Yaml.Scalar
