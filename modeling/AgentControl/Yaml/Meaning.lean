import AgentControl.Yaml.Scalar

/-! # What a document means

The objects that the nodes of a document become. A collection stands as an empty object first and is
filled when its turn comes, in the order the collections are met in, so that of several faults the
first met on that way is reported. A merge key puts the entries of other mappings before those of
its own, which win.
-/

namespace AgentControl.Yaml

namespace Graph

/-- The text of a scalar; in its place a mapping may hold it under the key `=`, where a mapping that
holds itself has no end. -/
def text (g : Graph) : (fuel : Nat) → Nat → Except Fault String
  | 0, _ => .error .endless
  | fuel + 1, n =>
      match (g.node n).content with
      | .scalar text => .ok text
      | .sequence _ => malformed
      | .mapping entries =>
          match entries.find? fun (k, _) => (g.node k).tag == .value with
          | some (_, v) => g.text fuel v
          | none => malformed

/-- The value of a node that is no collection. -/
def scalar (g : Graph) (n : Nat) : Except Fault Value :=
  match (g.node n).tag with
  | .merge | .value | .other => malformed
  | tag => do
      let text ← g.text (g.length + 1) n
      match tag, (g.node n).content with
      | .timestamp, .mapping _ => .error .structuredTimestamp
      | _, _ => Scalar.value tag text

/-- A key `=` is plain text once its mapping is read as one. -/
def asKey (g : Graph) (n : Nat) : Graph :=
  match g.node n with
  | ⟨.value, content⟩ => (n, ⟨.str, content⟩) :: g
  | _ => g

/-- Puts what the merge keys of a mapping bring in front of its other entries. Every merge key is
taken out before what it names is looked at, so a mapping may name itself. -/
def flatten : (fuel : Nat) → Nat → Graph → Except Fault Graph
  | 0, _, g => .ok g
  | fuel + 1, n, g =>
      let flat (m : Nat) (g : Graph) : Except Fault (List (Nat × Nat) × Graph) :=
        match (g.node m).content with
        | .mapping _ => do
            let g ← flatten fuel m g
            return (g.entries m, g)
        | _ => malformed
      match (g.entries n).span fun (k, _) => (g.node k).tag != .merge with
      | (own, []) => .ok (own.foldl (fun g (k, _) => g.asKey k) g)
      | (before, (_, source) :: after) => do
          let g := g.setEntries n (before ++ after)
          let (brought, g) ←
            match (g.node source).content with
            -- of several mappings the first wins, so it comes last
            | .sequence items => items.foldlM (fun (es, g) m => do
                let (fs, g) ← flat m g
                return (fs ++ es, g)) ([], g)
            | _ => flat source g
          let g ← flatten fuel n g
          return g.setEntries n (brought ++ g.entries n)

def mergeKeys (g : Graph) : Nat :=
  (g.flatMap fun (n, _) => g.entries n).countP fun (k, _) => (g.node k).tag == .merge

end Graph

/-! ## Objects -/

/-- What a node stands for: a value that cannot change, or the object of a number. -/
inductive Datum where
  | plain (v : Value)
  | object (id : Nat)

inductive Object where
  | list (items : List Datum)
  | pair (first second : Datum)
  | set (keys : List Value)
  | dict (entries : List (Value × Datum))

/-- The nodes of a document, what stands for those met so far, and the objects; those that wait to
be filled stand with their nodes, the next one first. -/
structure Building where
  graph : Graph
  data : List (Nat × Datum) := []
  objects : List (Nat × Object) := []
  waiting : List (Nat × Nat) := []
  count : Nat := 0

/-- What is done with a document being built. -/
abbrev Build := StateT Building (Except Fault)

namespace Build

def refuse {α : Type} : Build α := throw .malformed

/-- A number for an object that is to come. -/
def begin : Build Nat :=
  modifyGet fun b => (b.count, { b with count := b.count + 1 })

def keep (id : Nat) (o : Object) : Build Unit :=
  modify fun b => { b with objects := (id, o) :: b.objects }

/-- The tags of collections: a node under one of them is filled when its turn comes. -/
def isDeferred : Tag → Bool
  | .seq | .map | .set | .omap | .pairs => true
  | _ => false

/-- What a node stands for, the same each time it is asked for. -/
def datum (n : Nat) : Build Datum := do
  let b ← get
  match b.data.lookup n with
  | some d => return d
  | none =>
      let d ←
        if isDeferred (b.graph.node n).tag then do
          let id ← begin
          modify fun b => { b with waiting := b.waiting ++ [(n, id)] }
          pure (.object id)
        else (b.graph.scalar n).map .plain
      modify fun b => { b with data := (n, d) :: b.data }
      return d

/-- An entry of a mapping; what may still change is no key. -/
def entry (k v : Nat) : Build (Value × Datum) := do
  match ← datum k with
  | .plain key => return (key, ← datum v)
  | .object _ => refuse

def entries (n : Nat) : Build (List (Value × Datum)) := do
  let g := (← get).graph
  let g ← g.flatten (g.mergeKeys + 1) n
  modify fun b => { b with graph := g }
  (g.entries n).mapM fun (k, v) => entry k v

/-- The single entry of a mapping in an ordered mapping. -/
def pair (n : Nat) : Build Datum := do
  match ((← get).graph.node n).content with
  | .mapping [(k, v)] =>
      let first ← datum k
      let second ← datum v
      let id ← begin
      keep id (.pair first second)
      return .object id
  | _ => refuse

/-- Fills the object that a collection stands for. -/
def fill (n id : Nat) : Build Unit := do
  let node := (← get).graph.node n
  let o ← match node.tag, node.content with
    | .seq, .sequence items => Object.list <$> items.mapM datum
    | .omap, .sequence items | .pairs, .sequence items => Object.list <$> items.mapM pair
    | .map, .mapping _ => Object.dict <$> entries n
    | .set, .mapping _ => (fun es => Object.set (es.map (·.1))) <$> entries n
    | _, _ => refuse
  keep id o

/-- Fills all that wait, and those that this brings. -/
def fillAll : (fuel : Nat) → Build Unit
  | 0 => pure ()
  | fuel + 1 => do
      match (← get).waiting with
      | [] => pure ()
      | (n, id) :: rest =>
          modify fun b => { b with waiting := rest }
          fill n id
          fillAll fuel

end Build

/-! ## Documents -/

/-- What a text comes to: the datum at its root, and the objects that data name. -/
structure Document where
  root : Datum
  objects : List (Nat × Object) := []

namespace Document

/-- The document of a root among nodes. Each node has its turn at most once. -/
def ofGraph (root : Nat) (g : Graph) : Except Fault Document := do
  let build : Build Datum := do
    let d ← Build.datum root
    Build.fillAll (g.length + 1)
    return d
  let (d, b) ← build.run { graph := g }
  return ⟨d, b.objects⟩

/-- The entries of a mapping, later keys over earlier ones. -/
def settled (es : Value.Entries) : Value.Entries :=
  es.foldl (fun es (k, v) => Value.putKey k v es) []

def object? (doc : Document) : Datum → Option Object
  | .plain _ => none
  | .object id => doc.objects.lookup id

/-- The value of a datum as it is met inside the objects `above` it, each of which is marked where
it is met again. -/
def within (doc : Document) : (fuel : Nat) → (above : List Nat) → Datum → Value
  | _, _, .plain v => v
  | 0, _, .object _ => .null
  | fuel + 1, above, .object id =>
      let inner := doc.within fuel (id :: above)
      let isEntered := above.contains id
      match doc.objects.lookup id with
      | some (.list items) => if isEntered then .backReference .list else .list (items.map inner)
      | some (.pair a b) => if isEntered then .backReference .tuple else .tuple [inner a, inner b]
      | some (.set keys) => .set ((settled (keys.map fun k => (k, .null))).map (·.1))
      | some (.dict es) =>
          if isEntered then .backReference .dict
          else .dict (settled (es.map fun (k, v) => (k, inner v)))
      | none => .null

/-- The value of a datum seen by itself. -/
def value (doc : Document) (d : Datum) : Value := doc.within (doc.objects.length + 1) [] d

end Document

/-- The document of a text; nothing stands at the root where the text holds none. -/
def document (text : List Char) : Except Fault Document :=
  if text.all isAllowed then do
    match ← Node.ofTokens (← tokens text) with
    | none => return ⟨.plain .null, []⟩
    | some (root, g) => Document.ofGraph root g
  else malformed

end AgentControl.Yaml
