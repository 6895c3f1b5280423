import AgentControl.Yaml.Cursor
import AgentControl.Yaml.Fault
import AgentControl.Yaml.Token.Basic
import AgentControl.Decimal.Integer
import AgentControl.Text.Utf8

/-! # Scalars, anchors and tags

How each of the five spellings of a scalar is read off the text, and the words that may precede it.
Lines that a scalar spans are folded: one line end becomes a space, of several the first is dropped.
-/

namespace AgentControl.Yaml

open Cursor

def malformed {α : Type} : Except Fault α := .error .malformed

def isAsciiLetter (c : Char) : Bool :=
  let n := c.toNat
  (0x41 ≤ n && n ≤ 0x5A) || (0x61 ≤ n && n ≤ 0x7A)

def isWordChar (c : Char) : Bool :=
  Decimal.isAsciiDigit c || isAsciiLetter c || c == '-' || c == '_'

def hexDigit? (c : Char) : Option Nat :=
  if c.toNat < 0x80 then Decimal.digitBelow? 16 c else none

/-- Exactly `n` hexadecimal digits. -/
def hexDigits (k : Cursor) (n : Nat) : Except Fault (Nat × Cursor) :=
  let cs := k.rest.take n
  let ds := cs.filterMap hexDigit?
  if cs.length = n ∧ ds.length = n then .ok (Decimal.ofDigits 16 ds, k.skip n) else malformed

/-- The rest of a line on which only a comment may stand. -/
def restOfLine (k : Cursor) : Except Fault Cursor :=
  let k := k.skipWhile isSpace
  let k := if k.is (· == '#') then k.skipWhile (fun c => !isBreak c) else k
  match k.lineBreak with
  | some (_, k) => .ok k
  | none => if k.atEnd then .ok k else malformed

/-! ## Anchors and tags -/

def isAnchorEnd (c : Char) : Bool :=
  isSpaceOrTab c || isBreak c || ['?', ':', ',', ']', '}', '%', '@', '`'].contains c

/-- The name behind `&` or `*`. -/
def anchorName (k : Cursor) : Except Fault (String × Cursor) :=
  let (cs, k) := k.next.takeWhile isWordChar
  if cs.isEmpty then malformed
  else if k.atEnd || k.is isAnchorEnd then .ok (String.ofList cs, k)
  else malformed

def isUriChar (c : Char) : Bool :=
  Decimal.isAsciiDigit c || isAsciiLetter c || "-;/?:@&=+$,_.!~*'()[]".toList.contains c

/-- Bytes written as `%` and two hexadecimal digits each. -/
def uriBytes : (fuel : Nat) → Cursor → Except Fault (List UInt8 × Cursor)
  | 0, k => .ok ([], k)
  | fuel + 1, k =>
      if k.is (· == '%') then do
        let (b, k) ← hexDigits k.next 2
        let (bs, k) ← uriBytes fuel k
        return (b.toUInt8 :: bs, k)
      else .ok ([], k)

def uriChars : (fuel : Nat) → Cursor → Except Fault (List Char × Cursor)
  | 0, k => .ok ([], k)
  | fuel + 1, k =>
      if k.is (· == '%') then do
        let (bs, k) ← uriBytes k.rest.length k
        match Utf8.decode bs with
        | .error _ => malformed
        | .ok cs =>
            let (more, k) ← uriChars fuel k
            return (cs ++ more, k)
      else
        let (cs, k) := k.takeWhile isUriChar
        if cs.isEmpty then .ok ([], k)
        else do
          let (more, k) ← uriChars fuel k
          return (cs ++ more, k)

/-- The part of a tag that names it; it may not be left out. -/
def uri (k : Cursor) : Except Fault (String × Cursor) :=
  if k.is (fun c => isUriChar c || c == '%') then do
    let (cs, k) ← uriChars (k.rest.length + 1) k
    return (String.ofList cs, k)
  else malformed

/-- `!`, `!!` or `!name!`. -/
def tagHandle (k : Cursor) : Except Fault (String × Cursor) :=
  if !k.is (· == '!') then malformed
  else if k.next.is isSpace then .ok ("!", k.next)
  else
    let (cs, k) := k.next.takeWhile isWordChar
    if k.is (· == '!') then .ok (String.ofList ('!' :: cs ++ ['!']), k.next) else malformed

/-- A tag, from its `!` on. -/
def tagName (k : Cursor) : Except Fault (TagName × Cursor) := do
  let (name, k) ←
    if k.next.is (· == '<') then do
      let (suffix, k) ← uri (k.skip 2)
      if k.is (· == '>') then pure ((⟨none, suffix⟩ : TagName), k.next) else malformed
    else if k.blankAt 1 then pure ((⟨none, "!"⟩ : TagName), k.next)
    else
      let word := k.next.rest.takeWhile fun c => !isSpace c && !isBreak c
      if word.contains '!' then do
        let (handle, k) ← tagHandle k
        let (suffix, k) ← uri k
        pure ((⟨some handle, suffix⟩ : TagName), k)
      else do
        let (suffix, k) ← uri k.next
        pure ((⟨some "!", suffix⟩ : TagName), k)
  if k.endsWord then return (name, k) else malformed

/-! ## Directives -/

def natural (k : Cursor) : Except Fault (Nat × Cursor) :=
  let (cs, k) := k.takeWhile Decimal.isAsciiDigit
  if cs.isEmpty then malformed
  else .ok (Decimal.ofDigits 10 (cs.filterMap Decimal.digit?), k)

/-- A directive, from its `%` to the end of its line. -/
def directive (k : Cursor) : Except Fault (Token × Cursor) := do
  let (name, k) := k.next.takeWhile isWordChar
  if name.isEmpty || !k.endsWord then malformed
  let (token, k) ←
    if name == "YAML".toList then do
      let (major, k) ← natural (k.skipWhile isSpace)
      if !k.is (· == '.') then malformed
      let (minor, k) ← natural k.next
      if !k.endsWord then malformed
      pure (Token.version major minor, k)
    else if name == "TAG".toList then do
      let (handle, k) ← tagHandle (k.skipWhile isSpace)
      if !k.is isSpace then malformed
      let (replacement, k) ← uri (k.skipWhile isSpace)
      if !k.endsWord then malformed
      pure (Token.tagHandle handle replacement, k)
    else pure (Token.otherDirective, k.skipWhile fun c => !isBreak c)
  let k ← restOfLine k
  return (token, k)

/-! ## Quoted scalars -/

def simpleEscape? (c : Char) : Option Char :=
  match c with
  | '0' => some (Char.ofNat 0)
  | 'a' => some (Char.ofNat 7)
  | 'b' => some (Char.ofNat 8)
  | 't' => some '\t'
  | '\t' => some '\t'
  | 'n' => some '\n'
  | 'v' => some (Char.ofNat 11)
  | 'f' => some (Char.ofNat 12)
  | 'r' => some '\r'
  | 'e' => some (Char.ofNat 27)
  | ' ' => some ' '
  | '"' => some '"'
  | '\\' => some '\\'
  | '/' => some '/'
  | 'N' => some (Char.ofNat 0x85)
  | '_' => some (Char.ofNat 0xA0)
  | 'L' => some (Char.ofNat 0x2028)
  | 'P' => some (Char.ofNat 0x2029)
  | _ => none

def codeLength? (c : Char) : Option Nat :=
  match c with
  | 'x' => some 2
  | 'u' => some 4
  | 'U' => some 8
  | _ => none

/-- The line ends and blanks that follow a line end inside quotes; the line ends count. -/
def quotedBreaks : (fuel : Nat) → Cursor → Except Fault (List Char × Cursor)
  | 0, k => .ok ([], k)
  | fuel + 1, k =>
      if k.atSeparator then malformed
      else
        let k := k.skipWhile isSpaceOrTab
        match k.lineBreak with
        | some (c, k) => do
            let (cs, k) ← quotedBreaks fuel k
            return (c :: cs, k)
        | none => .ok ([], k)

/-- What a line end and the line ends after it fold to. -/
def folded (first : Char) (breaks : List Char) : List Char :=
  if first != '\n' then first :: breaks
  else if breaks.isEmpty then [' ']
  else breaks

/-- An escape, from behind its backslash on; an escaped line end joins two lines. -/
def escape (k : Cursor) : Except Fault (List Char × Cursor) :=
  match k.peek with
  | none => malformed
  | some c =>
      match simpleEscape? c with
      | some d => .ok ([d], k.next)
      | none =>
          match codeLength? c with
          | some n => do
              let (code, k) ← hexDigits k.next n
              if 0x110000 ≤ code then .error (.noCharacter code)
              else return ([Char.ofNat code], k)
          | none =>
              match k.lineBreak with
              | some (_, k) => quotedBreaks (k.rest.length + 1) k
              | none => malformed

/-- A quoted scalar from behind its opening quote on. -/
def quotedFrom (double : Bool) : (fuel : Nat) → Cursor → Except Fault (List Char × Cursor)
  | 0, _ => malformed
  | fuel + 1, k =>
      match k.peek with
      | none => malformed
      | some c =>
          let more (cs : List Char) (k : Cursor) : Except Fault (List Char × Cursor) := do
            let (ds, k) ← quotedFrom double fuel k
            return (cs ++ ds, k)
          if isSpaceOrTab c || isBreak c then
            let (blanks, k) := k.takeWhile isSpaceOrTab
            match k.lineBreak with
            | some (c, k) => do
                let (breaks, k) ← quotedBreaks (k.rest.length + 1) k
                more (folded c breaks) k
            | none => if k.atEnd then malformed else more blanks k
          else if double && c == '\\' then do
            let (cs, k) ← escape k.next
            more cs k
          else if c == (if double then '"' else '\'') then
            if !double && k.next.is (· == '\'') then more ['\''] (k.skip 2) else .ok ([], k.next)
          else more [c] k.next

def quotedScalar (k : Cursor) (double : Bool) : Except Fault (Token × Cursor) := do
  let (cs, k) ← quotedFrom double (k.rest.length + 1) k.next
  return (.scalar (String.ofList cs) false, k)

/-! ## Block scalars -/

/-- What is done with the line ends after a block scalar. -/
inductive Chomping where
  | clip
  | strip
  | keep
deriving DecidableEq

def chomping? (c : Char) : Option Chomping :=
  if c == '+' then some .keep else if c == '-' then some .strip else none

/-- A digit that says how far a block scalar is indented. -/
def increment? (k : Cursor) : Except Fault (Option Nat × Cursor) :=
  match k.peek with
  | some c =>
      if Decimal.isAsciiDigit c then
        if c == '0' then malformed else .ok (some (c.toNat - 0x30), k.next)
      else .ok (none, k)
  | none => .ok (none, k)

/-- The marks behind `|` or `>`, in either order. -/
def blockHeader (k : Cursor) : Except Fault ((Chomping × Option Nat) × Cursor) := do
  let (header, k) ←
    match k.peek.bind chomping? with
    | some chomp => do
        let (n, k) ← increment? k.next
        pure ((chomp, n), k)
    | none => do
        let (n, k) ← increment? k
        match n, k.peek.bind chomping? with
        | some n, some chomp => pure ((chomp, some n), k.next)
        | n, _ => pure ((.clip, n), k)
  if k.endsWord then return (header, k) else malformed

/-- The line ends before a block scalar and the deepest column among the blanks between them. -/
def blockIndentation : (fuel deepest : Nat) → Cursor → List Char × Nat × Cursor
  | 0, deepest, k => ([], deepest, k)
  | fuel + 1, deepest, k =>
      match k.lineBreak with
      | some (c, k) =>
          let (cs, deepest, k) := blockIndentation fuel deepest k
          (c :: cs, deepest, k)
      | none =>
          if k.is isSpace then blockIndentation fuel (max deepest k.next.column) k.next
          else ([], deepest, k)

/-- Skips blanks up to the column `indent`. -/
def indentTo (indent : Nat) : (fuel : Nat) → Cursor → Cursor
  | 0, k => k
  | fuel + 1, k => if k.column < indent && k.is isSpace then indentTo indent fuel k.next else k

/-- The line ends before the next line that is indented to `indent`. -/
def blockBreaks (indent : Nat) : (fuel : Nat) → Cursor → List Char × Cursor
  | 0, k => ([], k)
  | fuel + 1, k =>
      let k := indentTo indent indent k
      match k.lineBreak with
      | some (c, k) =>
          let (cs, k) := blockBreaks indent fuel k
          (c :: cs, k)
      | none => ([], k)

/-- The lines of a block scalar, with the line end and the empty lines after the last. -/
def blockLines (fold : Bool) (indent : Nat) :
    (fuel : Nat) → (breaks : List Char) → Cursor → List Char × List Char × List Char × Cursor
  | 0, breaks, k => ([], [], breaks, k)
  | fuel + 1, breaks, k =>
      if k.column = indent && !k.atEnd then
        let spaced := k.is isSpaceOrTab
        let (line, k) := k.takeWhile fun c => !isBreak c
        let (last, k) := match k.lineBreak with
          | some (c, k) => ([c], k)
          | none => ([], k)
        let (after, k) := blockBreaks indent (k.rest.length + 1) k
        if k.column = indent && !k.atEnd then
          let joint :=
            if fold && last == ['\n'] && !spaced && !k.is isSpaceOrTab then
              if after.isEmpty then [' '] else []
            else last
          let (more, last, end_, k) := blockLines fold indent fuel after k
          (breaks ++ line ++ joint ++ more, last, end_, k)
        else (breaks ++ line, last, after, k)
      else ([], [], breaks, k)

/-- A block scalar, from `|` or `>` on; `parent` is the column of what it belongs to. -/
def blockScalar (k : Cursor) (fold : Bool) (parent : Int) : Except Fault (Token × Cursor) := do
  let ((chomp, increment), k) ← blockHeader k.next
  let k ← restOfLine k
  let least := (max (parent + 1) 1).toNat
  let (breaks, indent, k) := match increment with
    | none =>
        let (breaks, deepest, k) := blockIndentation (k.rest.length + 1) 0 k
        (breaks, max least deepest, k)
    | some n =>
        let indent := least + n - 1
        let (breaks, k) := blockBreaks indent (k.rest.length + 1) k
        (breaks, indent, k)
  let (cs, last, after, k) := blockLines fold indent (k.rest.length + 1) breaks k
  let tail := match chomp with
    | .strip => []
    | .clip => last
    | .keep => last ++ after
  return (.scalar (String.ofList (cs ++ tail)) false, k)

/-! ## Plain scalars -/

def isFlowMark (c : Char) : Bool := c == ',' || c == '[' || c == ']' || c == '{' || c == '}'

/-- The characters up to a blank, a colon that ends a key, or a mark of the collection around. -/
def plainWord (flow : Bool) : List Char → List Char
  | [] => []
  | c :: cs =>
      let colonEnds := match cs with
        | [] => true
        | d :: _ => isSpaceOrTab d || isBreak d || (flow && isFlowMark d)
      if isSpaceOrTab c || isBreak c then []
      else if c == ':' && colonEnds then []
      else if flow && (isFlowMark c || c == '?') then []
      else c :: plainWord flow cs

/-- Blanks and line ends between the words of a plain scalar; `none` before a document mark. -/
def plainBreaks : (fuel : Nat) → Cursor → Option (List Char) × Cursor
  | 0, k => (some [], k)
  | fuel + 1, k =>
      if k.is isSpace then plainBreaks fuel k.next
      else match k.lineBreak with
        | some (c, k) =>
            if k.atSeparator then (none, k)
            else
              let (cs, k) := plainBreaks fuel k
              (cs.map (c :: ·), k)
        | none => (some [], k)

/-- What stands between two words of a plain scalar, where it goes on, and whether a line ended. -/
def plainSpaces (k : Cursor) : List Char × Cursor × Bool :=
  let (blanks, k) := k.takeWhile isSpace
  match k.lineBreak with
  | some (c, k) =>
      if k.atSeparator then ([], k, true)
      else match plainBreaks (k.rest.length + 1) k with
        | (none, k) => ([], k, true)
        | (some breaks, k) => (folded c breaks, k, true)
  | none => (blanks, k, false)

/-- A plain scalar in a block of column `indent`, and whether a line ended after its last word. -/
def plainFrom (flow : Bool) (indent : Int) :
    (fuel : Nat) → (spaces : List Char) → (ended : Bool) → Cursor → List Char × Bool × Cursor
  | 0, _, ended, k => ([], ended, k)
  | fuel + 1, spaces, ended, k =>
      if k.is (· == '#') then ([], ended, k)
      else
        let word := plainWord flow k.rest
        if word.isEmpty then ([], ended, k)
        else
          let k := k.skip word.length
          let (after, k, ended) := plainSpaces k
          if after.isEmpty || k.is (· == '#') || (!flow && (k.column : Int) < indent) then
            (spaces ++ word, ended, k)
          else
            let (more, ended, k) := plainFrom flow indent fuel after ended k
            (spaces ++ word ++ more, ended, k)

end AgentControl.Yaml
