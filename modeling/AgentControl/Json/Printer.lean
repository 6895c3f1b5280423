import AgentControl.Json.Basic
import AgentControl.Value.Shown

/-! # JSON as text

A tree written on one line without blanks, or over several lines with a fixed indent. Text is
written as it is, with escapes only for quotes, backslashes and controls.
-/

namespace AgentControl.Json

def escapedChar (c : Char) : List Char :=
  if c = '"' then ['\\', '"']
  else if c = '\\' then ['\\', '\\']
  else if c = '\n' then ['\\', 'n']
  else if c = '\r' then ['\\', 'r']
  else if c = '\t' then ['\\', 't']
  else if c.toNat = 8 then ['\\', 'b']
  else if c.toNat = 12 then ['\\', 'f']
  else if c.toNat < 0x20 then '\\' :: 'u' :: hex 4 c.toNat
  else [c]

def quotedChars (s : String) : List Char :=
  '"' :: (s.toList.flatMap escapedChar ++ ['"'])

/-- The break before what stands on a line of its own; nothing where all is on one line. -/
def lineBreak (indent : Option Nat) (level : Nat) : List Char :=
  match indent with
  | none => []
  | some n => '\n' :: List.replicate (n * level) ' '

def colon (indent : Option Nat) : List Char :=
  match indent with
  | none => [':']
  | some _ => [':', ' ']

mutual

def chars (indent : Option Nat) (level : Nat) : Json → List Char
  | null => ['n', 'u', 'l', 'l']
  | bool true => ['t', 'r', 'u', 'e']
  | bool false => ['f', 'a', 'l', 's', 'e']
  | int n => (Decimal.ofInt n).toList
  | float x => (Decimal.ofFloat x).toList
  | str s => quotedChars s
  | array [] => ['[', ']']
  | array (x :: xs) =>
      '[' :: (itemChars indent (level + 1) (x :: xs) ++ (lineBreak indent level ++ [']']))
  | object [] => ['{', '}']
  | object (m :: ms) =>
      '{' :: (memberChars indent (level + 1) (m :: ms) ++ (lineBreak indent level ++ ['}']))

def itemChars (indent : Option Nat) (level : Nat) : List Json → List Char
  | [] => []
  | [x] => lineBreak indent level ++ chars indent level x
  | x :: xs => lineBreak indent level ++ (chars indent level x ++ ',' :: itemChars indent level xs)

def memberChars (indent : Option Nat) (level : Nat) : List (String × Json) → List Char
  | [] => []
  | [(k, v)] =>
      lineBreak indent level ++ (quotedChars k ++ (colon indent ++ chars indent level v))
  | (k, v) :: rest =>
      lineBreak indent level ++
        (quotedChars k ++
          (colon indent ++ (chars indent level v ++ ',' :: memberChars indent level rest)))

end

/-- The tree as text, with the given indent or on one line. -/
def print (indent : Option Nat) (j : Json) : String := String.ofList (chars indent 0 j)

end AgentControl.Json
