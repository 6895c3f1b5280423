import AgentControl.Yaml.Token.Scalar

/-! # From text to tokens

Indentation becomes explicit marks of where a block collection starts and ends. Whether a word is
the key of a mapping shows only at the colon behind it, so the last word that may be a key is
remembered for each collection, and the mark of a key is put in front of it once the colon comes.
-/

namespace AgentControl.Yaml

open Cursor

/-- The place of a word that may turn out to be a key, and of its token. -/
structure KeyPlace where
  token : Nat
  required : Bool
  index : Nat
  line : Nat
  column : Nat

/-- The text still to read and the tokens read so far. The last possible key is kept for the
innermost collection, and in `outer` for each flow collection around it. -/
structure Lexer where
  place : Cursor
  tokens : Array Token
  indent : Int
  indents : List Int
  keyAllowed : Bool
  keyPlace : Option KeyPlace
  outer : List (Option KeyPlace)

namespace Lexer

def start (text : List Char) : Lexer := ⟨.start text, #[], -1, [], true, none, []⟩

def inFlow (s : Lexer) : Bool := !s.outer.isEmpty

def column (s : Lexer) : Int := s.place.column

def emit (s : Lexer) (t : Token) : Lexer := { s with tokens := s.tokens.push t }

/-- Ends the block collections that are indented deeper than `column`. -/
def unwindTo (column : Int) : (indents : List Int) → Lexer → Lexer
  | [], s => s
  | i :: is, s =>
      if column < s.indent then
        unwindTo column is { s with indent := i, indents := is, tokens := s.tokens.push .blockEnd }
      else s

def unwind (s : Lexer) (column : Int) : Lexer :=
  if s.inFlow then s else unwindTo column s.indents s

/-- Enters a block collection at `column`, if that is deeper than the one around it. -/
def deepen (s : Lexer) (column : Int) : Option Lexer :=
  if s.indent < column then some { s with indent := column, indents := s.indent :: s.indents }
  else none

/-- Forgets the possible key of the innermost collection, unless nothing but a
key may stand there. -/
def dropKey (s : Lexer) : Except Fault Lexer :=
  match s.keyPlace with
  | some p => if p.required then malformed else .ok { s with keyPlace := none }
  | none => .ok s

/-- Remembers the next token as a possible key. -/
def markKey (s : Lexer) : Except Fault Lexer :=
  if s.keyAllowed then do
    let s ← s.dropKey
    let required := !s.inFlow && s.indent == s.column
    return { s with
      keyPlace := some ⟨s.tokens.size, required, s.place.index, s.place.line, s.place.column⟩ }
  else .ok s

/-- A key and its colon stand on one line, at most 1024 characters apart. -/
def isStale (k : Cursor) (p : KeyPlace) : Bool := p.line != k.line || p.index + 1024 < k.index

def refresh (k : Cursor) : Option KeyPlace → Except Fault (Option KeyPlace)
  | some p => if isStale k p then if p.required then malformed else .ok none else .ok (some p)
  | none => .ok none

/-- Forgets the possible keys that are too far back. -/
def dropStale (s : Lexer) : Except Fault Lexer := do
  let p ← refresh s.place s.keyPlace
  let ps ← s.outer.mapM (refresh s.place)
  return { s with keyPlace := p, outer := ps }

/-- Skips blanks, comments and line ends; in a block a key may follow a line end. -/
def skipBlanks : (fuel : Nat) → Lexer → Lexer
  | 0, s => s
  | fuel + 1, s =>
      let k := s.place.skipWhile isSpace
      let k := if k.is (· == '#') then k.skipWhile (fun c => !isBreak c) else k
      match k.lineBreak with
      | some (_, k) => skipBlanks fuel
          { s with place := k, keyAllowed := s.keyAllowed || !s.inFlow }
      | none => { s with place := k }

def toNextToken (s : Lexer) : Lexer :=
  let k := s.place
  let k := if k.index == 0 && k.is isByteOrderMark then k.next else k
  skipBlanks (k.rest.length + 1) { s with place := k }

/-- A mark of `n` characters. -/
def mark (s : Lexer) (t : Token) (n : Nat) : Lexer :=
  { s with tokens := s.tokens.push t, place := s.place.skip n }

/-- A scalar, an anchor or another word that the reader `f` reads. -/
def word (s : Lexer) (f : Cursor → Except Fault (Token × Cursor)) : Except Fault Lexer := do
  let s ← s.markKey
  let (t, k) ← f s.place
  return { s with tokens := s.tokens.push t, place := k, keyAllowed := false }

/-- Ends all block collections, as a document mark does. -/
def leaveBlocks (s : Lexer) : Except Fault Lexer := do
  let s ← (s.unwind (-1)).dropKey
  return { s with keyAllowed := false }

def flowStart (s : Lexer) (t : Token) : Except Fault Lexer := do
  let s ← s.markKey
  return { s with outer := s.keyPlace :: s.outer, keyPlace := none, keyAllowed := true }.mark t 1

def flowEnd (s : Lexer) (t : Token) : Except Fault Lexer := do
  let s ← s.dropKey
  match s.outer with
  | [] => malformed
  | p :: ps => return { s with outer := ps, keyPlace := p, keyAllowed := false }.mark t 1

def flowEntry (s : Lexer) : Except Fault Lexer := do
  let s ← s.dropKey
  return { s with keyAllowed := true }.mark .flowEntry 1

/-- Starts a block collection before a mark that needs one here. -/
def openBlock (s : Lexer) (t : Token) : Except Fault Lexer :=
  if s.inFlow then .ok s
  else if s.keyAllowed then .ok (((s.deepen s.column).map (·.emit t)).getD s)
  else malformed

def blockEntry (s : Lexer) : Except Fault Lexer := do
  let s ← s.openBlock .blockSequenceStart
  let s ← s.dropKey
  return { s with keyAllowed := true }.mark .blockEntry 1

def key (s : Lexer) : Except Fault Lexer := do
  let s ← s.openBlock .blockMappingStart
  let s ← s.dropKey
  return { s with keyAllowed := !s.inFlow }.mark .key 1

def insertAt (ts : Array Token) (n : Nat) (new : List Token) : Array Token :=
  ((ts.toList.take n) ++ new ++ ts.toList.drop n).toArray

/-- A colon: the possible key before it becomes one, and starts a block mapping if it stands deeper
than the block around it. -/
def value (s : Lexer) : Except Fault Lexer :=
  match s.keyPlace with
  | some p =>
      let s := { s with keyPlace := none, keyAllowed := false }
      let opened := if s.inFlow then none else s.deepen p.column
      let s := match opened with
        | some s => { s with tokens := insertAt s.tokens p.token [.blockMappingStart, .key] }
        | none => { s with tokens := insertAt s.tokens p.token [.key] }
      .ok (s.mark .value 1)
  | none => do
      let s ← s.openBlock .blockMappingStart
      return { s with keyAllowed := !s.inFlow }.mark .value 1

def blockScalar (s : Lexer) (fold : Bool) : Except Fault Lexer := do
  let s ← s.dropKey
  let (t, k) ← Yaml.blockScalar s.place fold s.indent
  return { s with tokens := s.tokens.push t, place := k, keyAllowed := true }

def plain (s : Lexer) : Except Fault Lexer := do
  let s ← s.markKey
  let (cs, ended, k) := plainFrom s.inFlow (s.indent + 1) (s.place.rest.length + 1) [] false s.place
  return { s with
    tokens := s.tokens.push (.scalar (String.ofList cs) true), place := k, keyAllowed := ended }

def startsNoPlain (c : Char) : Bool :=
  isSpaceOrTab c || isBreak c || "-?:,[]{}#&*!|>'\"%@`".toList.contains c

/-- Whether a plain scalar may start with `c`, the next character. -/
def startsPlain (s : Lexer) (c : Char) : Bool :=
  !startsNoPlain c ||
    (!s.place.blankAt 1 && (c == '-' || (!s.inFlow && (c == '?' || c == ':'))))

/-- The token at the place that has been reached, which `c` starts. -/
def token (s : Lexer) (c : Char) : Except Fault Lexer :=
  let atLineStart := s.place.column == 0
  if c == '%' && atLineStart then do
    let s ← s.leaveBlocks
    let (t, k) ← directive s.place
    return { s with tokens := s.tokens.push t, place := k }
  else if atLineStart && s.place.atMarks '-' then do
    return (← s.leaveBlocks).mark .documentStart 3
  else if atLineStart && s.place.atMarks '.' then do
    return (← s.leaveBlocks).mark .documentEnd 3
  else if c == '[' then s.flowStart .flowSequenceStart
  else if c == '{' then s.flowStart .flowMappingStart
  else if c == ']' then s.flowEnd .flowSequenceEnd
  else if c == '}' then s.flowEnd .flowMappingEnd
  else if c == ',' then s.flowEntry
  else if c == '-' && s.place.blankAt 1 then s.blockEntry
  else if c == '?' && (s.inFlow || s.place.blankAt 1) then s.key
  else if c == ':' && (s.inFlow || s.place.blankAt 1) then s.value
  else if c == '*' then s.word fun k => (anchorName k).map fun (n, k) => (.aliasOf n, k)
  else if c == '&' then s.word fun k => (anchorName k).map fun (n, k) => (.anchor n, k)
  else if c == '!' then s.word fun k => (tagName k).map fun (n, k) => (.tag n, k)
  else if c == '|' && !s.inFlow then s.blockScalar false
  else if c == '>' && !s.inFlow then s.blockScalar true
  else if c == '\'' then s.word (quotedScalar · false)
  else if c == '"' then s.word (quotedScalar · true)
  else if s.startsPlain c then s.plain
  else malformed

/-- How many tokens are settled: those before the first that may still turn out to be a key. -/
def settled (s : Lexer) : Nat :=
  let places := (s.keyPlace :: s.outer).filterMap fun p => p.filter fun p => !isStale s.place p
  places.foldl (fun n p => min n p.token) s.tokens.size

/-- Reads tokens up to the end of the text. A character that does not exist ends them too: only what
is settled before it is judged first. -/
def run : (fuel : Nat) → Lexer → Except Fault (List Token)
  | 0, _ => malformed
  | fuel + 1, s => do
      let settled := s.settled
      let s ← s.toNextToken.dropStale
      let s := s.unwind s.column
      match s.place.peek with
      | none => return ((← s.leaveBlocks).emit .streamEnd).tokens.toList
      | some c =>
          match s.token c with
          | .ok s => run fuel s
          | .error (.noCharacter n) => return s.tokens.toList.take settled ++ [.noCharacter n]
          | .error fault => .error fault

end Lexer

/-- The tokens of a text. -/
def tokens (text : List Char) : Except Fault (List Token) :=
  Lexer.run (text.length + 2) (.start text)

end AgentControl.Yaml
