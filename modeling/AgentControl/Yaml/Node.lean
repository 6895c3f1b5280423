import AgentControl.Yaml.Tag
import AgentControl.Yaml.Token.Lexer

/-! # Nodes

The nodes of a document are numbered in the order they start in, from one on, and a collection holds
the numbers of its parts. An alias is the number of the node it names, so the nodes are a graph, in
which a collection may hold itself.
-/

namespace AgentControl.Yaml

inductive Content where
  | scalar (text : String)
  | sequence (items : List Nat)
  | mapping (entries : List (Nat × Nat))

structure Node where
  tag : Tag
  content : Content

/-- The nodes of a document by number. -/
abbrev Graph := List (Nat × Node)

namespace Graph

/-- The node of a number. Where nothing is written stands number zero, a node without text. -/
def node (g : Graph) (n : Nat) : Node := (g.lookup n).getD ⟨.null, .scalar ""⟩

def entries (g : Graph) (n : Nat) : List (Nat × Nat) :=
  match (g.node n).content with
  | .mapping es => es
  | _ => []

def setEntries (g : Graph) (n : Nat) (es : List (Nat × Nat)) : Graph :=
  (n, ⟨(g.node n).tag, .mapping es⟩) :: g

end Graph

namespace Node

/-- The number that stands where nothing is written. -/
def nothing : Nat := 0

/-- The tokens still to read, the anchors set so far, and the nodes that are read or begun. -/
structure Reading where
  tokens : List Token
  anchors : List (String × Nat) := []
  graph : Graph := []
  count : Nat := 0

/-- Where a node stands decides which collections it may be. -/
inductive Place where
  | flow
  | block
  | entry
deriving DecidableEq

/-- The texts that the handles of tags stand for. -/
abbrev Handles := List (String × String)

namespace Reading

def advance (r : Reading) : Reading := { r with tokens := r.tokens.tail }

def next (r : Reading) : Option Token := r.tokens.head?

def isNext (r : Reading) (ts : List Token) : Bool := r.next.any ts.contains

/-- Gives up at the next token. -/
def refuse {α : Type} (r : Reading) : Except Fault α :=
  match r.next with
  | some (.noCharacter code) => .error (.noCharacter code)
  | _ => malformed

def bind (r : Reading) (name : Option String) (n : Nat) : Reading :=
  match name with
  | some name => { r with anchors := (name, n) :: r.anchors }
  | none => r

/-- The number of the next node, which begins here. -/
def begin (r : Reading) : Nat × Reading := (r.count + 1, { r with count := r.count + 1 })

/-- Keeps a node that is read. -/
def keep (r : Reading) (n : Nat) (tag : Tag) (content : Content) : Nat × Reading :=
  (n, { r with graph := (n, ⟨tag, content⟩) :: r.graph })

end Reading

/-- The full text of a tag. -/
def fullTag (handles : Handles) (t : TagName) : Except Fault String :=
  match t.handle with
  | none => .ok t.rest
  | some h => match handles.lookup h with
    | some start => .ok (start ++ t.rest)
    | none => malformed

/-- What may stand before a node: an anchor and a tag, in either order. -/
structure Properties where
  anchor : Option String
  tag : Option String

def properties (handles : Handles) (r : Reading) : Except Fault (Properties × Reading) := do
  let (anchor, tag, r) ← match r.tokens with
    | .anchor a :: .tag t :: rest => pure (some a, some t, { r with tokens := rest })
    | .tag t :: .anchor a :: rest => pure (some a, some t, { r with tokens := rest })
    | .anchor a :: rest => pure (some a, none, { r with tokens := rest })
    | .tag _ :: .noCharacter code :: _ => .error (.noCharacter code)
    | .tag t :: rest => pure (none, some t, { r with tokens := rest })
    | _ => pure (none, none, r)
  let tag ← match tag with
    | some t => (fullTag handles t).map some
    | none => pure none
  return (⟨anchor, tag⟩, r)

/-- The tag of a collection; a bare `!` leaves the usual one. -/
def collectionTag (tag : Option String) (usual : Tag) : Tag :=
  match tag with
  | none => usual
  | some "!" => usual
  | some name => .ofName name

/-- The tag of a scalar: what is written, else `str` behind quotes, else what the spelling shows. A
bare `!` lets the spelling decide. -/
def scalarTag (tag : Option String) (text : String) (plain : Bool) : Tag :=
  match tag with
  | none => if plain then .ofSpelling text.toList else .str
  | some "!" => .ofSpelling text.toList
  | some name => .ofName name

mutual

/-- The node at the next token. -/
def read (handles : Handles) : (fuel : Nat) → Place → Reading → Except Fault (Nat × Reading)
  | 0, _, _ => malformed
  | fuel + 1, place, r =>
      match r.next with
      | some (.aliasOf name) =>
          match r.anchors.lookup name with
          | some n => .ok (n, r.advance)
          | none => malformed
      | _ => do
          let (p, r) ← properties handles r
          if p.anchor.any fun a => (r.anchors.lookup a).isSome then r.refuse
          let (n, r) := r.begin
          -- the name holds from here on, so that the node may stand inside itself
          let r := r.bind p.anchor n
          let sequence (items : Except Fault (List Nat × Reading)) :
              Except Fault (Nat × Reading) := do
            let (ns, r) ← items
            return r.keep n (collectionTag p.tag .seq) (.sequence ns)
          let mapping (entries : Except Fault (List (Nat × Nat) × Reading)) :
              Except Fault (Nat × Reading) := do
            let (es, r) ← entries
            return r.keep n (collectionTag p.tag .map) (.mapping es)
          match r.next, place with
          | some .blockEntry, .entry => sequence (readItems handles fuel true r)
          | some (.scalar text plain), _ =>
              return r.advance.keep n (scalarTag p.tag text plain) (.scalar text)
          | some .flowSequenceStart, _ => sequence (readFlowItems handles fuel true r.advance)
          | some .flowMappingStart, _ => mapping (readFlowEntries handles fuel true r.advance)
          | some .blockSequenceStart, .block | some .blockSequenceStart, .entry =>
              sequence (readItems handles fuel false r.advance)
          | some .blockMappingStart, .block | some .blockMappingStart, .entry =>
              mapping (readEntries handles fuel r.advance)
          | some (.noCharacter code), _ => .error (.noCharacter code)
          | _, _ =>
              if p.anchor.isSome || p.tag.isSome then
                return r.keep n (scalarTag p.tag "" true) (.scalar "")
              else malformed

/-- A node, or nothing before a token that no node starts with. -/
def readUnless (handles : Handles) :
    (fuel : Nat) → Place → (ends : List Token) → Reading → Except Fault (Nat × Reading)
  | 0, _, _, _ => malformed
  | fuel + 1, place, ends, r =>
      if r.isNext ends then .ok (nothing, r) else read handles fuel place r

/-- The items of a block sequence, up to its end; one without indentation ends
where no item follows. -/
def readItems (handles : Handles) :
    (fuel : Nat) → (indentless : Bool) → Reading → Except Fault (List Nat × Reading)
  | 0, _, _ => malformed
  | fuel + 1, indentless, r =>
      match r.next with
      | some .blockEntry => do
          let ends :=
            if indentless then [.blockEntry, .key, .value, .blockEnd] else [.blockEntry, .blockEnd]
          let (n, r) ← readUnless handles fuel .block ends r.advance
          let (ns, r) ← readItems handles fuel indentless r
          return (n :: ns, r)
      | some (.noCharacter code) => .error (.noCharacter code)
      | some .blockEnd => .ok ([], if indentless then r else r.advance)
      | _ => if indentless then .ok ([], r) else malformed

/-- What a colon brings, if one stands next. -/
def readValue (handles : Handles) :
    (fuel : Nat) → Place → (ends : List Token) → Reading → Except Fault (Nat × Reading)
  | 0, _, _, _ => malformed
  | fuel + 1, place, ends, r =>
      match r.next with
      | some .value => readUnless handles fuel place ends r.advance
      | some (.noCharacter code) => .error (.noCharacter code)
      | _ => .ok (nothing, r)

/-- The entries of a block mapping, up to its end. -/
def readEntries (handles : Handles) :
    (fuel : Nat) → Reading → Except Fault (List (Nat × Nat) × Reading)
  | 0, _ => malformed
  | fuel + 1, r =>
      let ends := [.key, .value, .blockEnd]
      match r.next with
      | some .key => do
          let (k, r) ← readUnless handles fuel .entry ends r.advance
          let (v, r) ← readValue handles fuel .entry ends r
          let (es, r) ← readEntries handles fuel r
          return ((k, v) :: es, r)
      | some .blockEnd => .ok ([], r.advance)
      | _ => r.refuse

/-- The items of a flow sequence, up to its bracket; a single entry of a mapping may be an item. -/
def readFlowItems (handles : Handles) :
    (fuel : Nat) → (first : Bool) → Reading → Except Fault (List Nat × Reading)
  | 0, _, _ => malformed
  | fuel + 1, first, r => do
      let ends := [.flowEntry, .flowSequenceEnd]
      if r.next == some .flowSequenceEnd then return ([], r.advance)
      if !first && r.next != some .flowEntry then r.refuse
      let r := if first then r else r.advance
      match r.next with
      | some .flowSequenceEnd => return ([], r.advance)
      | some .key =>
          let (n, r) := r.begin
          let (k, r) ← readUnless handles fuel .flow (.value :: ends) r.advance
          let (v, r) ← readValue handles fuel .flow ends r
          let (n, r) := r.keep n .map (.mapping [(k, v)])
          let (ns, r) ← readFlowItems handles fuel false r
          return (n :: ns, r)
      | _ =>
          let (n, r) ← read handles fuel .flow r
          let (ns, r) ← readFlowItems handles fuel false r
          return (n :: ns, r)

/-- The entries of a flow mapping, up to its brace; a node without a colon is a key without
value. -/
def readFlowEntries (handles : Handles) :
    (fuel : Nat) → (first : Bool) → Reading → Except Fault (List (Nat × Nat) × Reading)
  | 0, _, _ => malformed
  | fuel + 1, first, r => do
      let ends := [.flowEntry, .flowMappingEnd]
      if r.next == some .flowMappingEnd then return ([], r.advance)
      if !first && r.next != some .flowEntry then r.refuse
      let r := if first then r else r.advance
      match r.next with
      | some .flowMappingEnd => return ([], r.advance)
      | some .key =>
          let (k, r) ← readUnless handles fuel .flow (.value :: ends) r.advance
          let (v, r) ← readValue handles fuel .flow ends r
          let (es, r) ← readFlowEntries handles fuel false r
          return ((k, v) :: es, r)
      | _ =>
          let (k, r) ← read handles fuel .flow r
          let (es, r) ← readFlowEntries handles fuel false r
          return ((k, nothing) :: es, r)

end

/-! ## Documents -/

/-- The handles that every document has. -/
def usualHandles : Handles := [("!", "!"), ("!!", Tag.standard)]

/-- The directives before a document: at most one version, of the first generation, and at most one
replacement for each handle. -/
def directives : (versioned : Bool) → Handles → List Token → Except Fault (Handles × List Token)
  | versioned, handles, .version major _ :: rest =>
      if versioned || major != 1 then malformed else directives true handles rest
  | versioned, handles, .tagHandle handle start :: rest =>
      if (handles.lookup handle).isSome then malformed
      else directives versioned ((handle, start) :: handles) rest
  | versioned, handles, .otherDirective :: rest => directives versioned handles rest
  | _, handles, rest => .ok (handles ++ usualHandles, rest)

/-- Nothing may follow a document but marks of its end. -/
def onlyEnds : List Token → Except Fault Unit
  | [.streamEnd] => .ok ()
  | .documentEnd :: rest => onlyEnds rest
  | rest => do
      let (_, rest) ← directives false [] rest
      Reading.refuse { tokens := rest }

/-- The root of the one document of a text, if there is one, and the nodes. -/
def ofTokens (tokens : List Token) : Except Fault (Option (Nat × Graph)) := do
  let fuel := 4 * tokens.length + 4
  let isDirective : Token → Bool
    | .version _ _ | .tagHandle _ _ | .otherDirective => true
    | _ => false
  match tokens with
  | [.streamEnd] => return none
  | t :: _ =>
      if isDirective t || t == .documentStart then
        let (handles, rest) ← directives false [] tokens
        match rest with
        | .documentStart :: rest =>
            let ends := [.documentStart, .documentEnd, .streamEnd]
            let (n, r) ←
              if rest.head?.any fun t => isDirective t || ends.contains t then
                pure (nothing, { tokens := rest })
              else read handles fuel .block { tokens := rest }
            onlyEnds r.tokens
            return some (n, r.graph)
        | rest => Reading.refuse { tokens := rest }
      else
        let (n, r) ← read usualHandles fuel .block { tokens }
        onlyEnds r.tokens
        return some (n, r.graph)
  | [] => return none

end Node
end AgentControl.Yaml
