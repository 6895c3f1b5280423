/-! # A place in a YAML text

The text still to be read with the line, column and number of characters read so far. Line ends have
been made uniform beforehand, so a line ends in a line feed, a next-line control or one of the two
Unicode separators.
-/

namespace AgentControl.Yaml

structure Cursor where
  rest : List Char
  index : Nat
  line : Nat
  column : Nat

/-- Ends a line, in the text as in what a scalar folds. -/
def isBreak (c : Char) : Bool :=
  c == '\n' || c.toNat == 0x85 || c.toNat == 0x2028 || c.toNat == 0x2029

def isSpace (c : Char) : Bool := c == ' '

def isSpaceOrTab (c : Char) : Bool := c == ' ' || c == '\t'

def isByteOrderMark (c : Char) : Bool := c.toNat == 0xFEFF

/-- The characters that a YAML text may hold. -/
def isAllowed (c : Char) : Bool :=
  let n := c.toNat
  n == 9 || n == 10 || n == 13 || (0x20 ≤ n && n ≤ 0x7E) || n == 0x85 || (0xA0 ≤ n && n ≤ 0xD7FF) ||
    (0xE000 ≤ n && n ≤ 0xFFFD) || 0x10000 ≤ n

namespace Cursor

def start (text : List Char) : Cursor := ⟨text, 0, 0, 0⟩

/-- One character on. -/
def next (k : Cursor) : Cursor :=
  match k.rest with
  | [] => k
  | c :: cs =>
      if isBreak c then ⟨cs, k.index + 1, k.line + 1, 0⟩
      else ⟨cs, k.index + 1, k.line, if isByteOrderMark c then k.column else k.column + 1⟩

def skip (k : Cursor) : Nat → Cursor
  | 0 => k
  | n + 1 => k.next.skip n

def peek (k : Cursor) : Option Char := k.rest.head?

def peekAt (k : Cursor) (n : Nat) : Option Char := (k.rest.drop n).head?

def atEnd (k : Cursor) : Bool := k.rest.isEmpty

/-- Whether the next character satisfies `p`. -/
def is (k : Cursor) (p : Char → Bool) : Bool := k.peek.any p

/-- The longest stretch that satisfies `p`, and the place behind it. -/
def takeWhile (k : Cursor) (p : Char → Bool) : List Char × Cursor :=
  let cs := k.rest.takeWhile p
  (cs, k.skip cs.length)

def skipWhile (k : Cursor) (p : Char → Bool) : Cursor := (k.takeWhile p).2

/-- Reads a line end, if there is one, as the character that stands for it in a scalar. -/
def lineBreak (k : Cursor) : Option (Char × Cursor) :=
  match k.peek with
  | some c =>
      if isBreak c then some (if c.toNat == 0x85 then '\n' else c, k.next) else none
  | none => none

/-- The end of the text, a blank or a line end `n` characters on. -/
def blankAt (k : Cursor) (n : Nat) : Bool :=
  match k.peekAt n with
  | none => true
  | some c => isSpaceOrTab c || isBreak c

/-- The end of the text or of a word that no tab ends. -/
def endsWord (k : Cursor) : Bool :=
  match k.peek with
  | none => true
  | some c => isSpace c || isBreak c

/-- A line of three equal marks, as starts or ends a document. -/
def atMarks (k : Cursor) (mark : Char) : Bool :=
  k.rest.take 3 == [mark, mark, mark] && k.blankAt 3

def atSeparator (k : Cursor) : Bool := k.atMarks '-' || k.atMarks '.'

end Cursor
end AgentControl.Yaml
