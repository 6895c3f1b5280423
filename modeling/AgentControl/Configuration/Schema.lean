import AgentControl.Configuration.Wire

/-! # The schema of the wire form

Schemas of the few kinds that the wire form needs, what it means for a value to satisfy one, and the
JSON document that publishes one. The schema describes types and presence; the ranges of the numbers
are not part of it.
-/

namespace AgentControl

/-- A schema with the texts it is published under; `optional` is null or what another schema, known
by its title, describes. -/
inductive Schema where
  | integer (title description : String)
  | enumeration (title description : String) (names : List String)
  | object (title description : String) (required : List String)
      (properties : List (String × Schema))
  | optional (reference description : String)

namespace Schema

/-- Schemas by the names under which others refer to them. -/
abbrev Definitions := List (String × Schema)

/-! ## Meaning -/

mutual

/-- Whether a value satisfies a schema; references are followed `depth` deep. -/
def accepts (defs : Definitions) : (depth : Nat) → Schema → Value → Bool
  | _, .integer _ _, v => match v with | .int _ => true | _ => false
  | _, .enumeration _ _ names, v => match v with | .str s => names.contains s | _ => false
  | depth, .object _ _ required properties, v =>
      match v with
      | .dict entries =>
          required.all (fun k => (Value.lookup k entries).isSome) &&
            acceptsProperties defs depth properties entries
      | _ => false
  | 0, .optional _ _, v => match v with | .null => true | _ => false
  | depth + 1, .optional reference _, v =>
      match v, defs.lookup reference with
      | .null, _ => true
      | v, some s => accepts defs depth s v
      | _, none => false

def acceptsProperties (defs : Definitions) (depth : Nat) :
    List (String × Schema) → Value.Entries → Bool
  | [], _ => true
  | (k, s) :: rest, entries =>
      (match Value.lookup k entries with
        | some v => accepts defs depth s v
        | none => true) &&
      acceptsProperties defs depth rest entries

end

/-! ## Publication -/

def strings (xs : List String) : Json := .array (xs.map Json.str)

mutual

/-- The members of a schema's document, in alphabetical order. -/
def members : Schema → List (String × Json)
  | .integer title description =>
      [("description", .str description), ("title", .str title), ("type", .str "integer")]
  | .enumeration title description names =>
      [("description", .str description), ("enum", strings names), ("title", .str title),
        ("type", .str "string")]
  | .object title description required properties =>
      [("description", .str description), ("properties", .object (propertyMembers properties)),
        ("required", strings required), ("title", .str title), ("type", .str "object")]
  | .optional reference description =>
      [("anyOf", .array [.object [("$ref", .str ("#/$defs/" ++ reference))],
          .object [("type", .str "null")]]),
        ("default", .null), ("description", .str description)]

def propertyMembers : List (String × Schema) → List (String × Json)
  | [] => []
  | (k, s) :: rest => (k, .object (members s)) :: propertyMembers rest

end

/-- The document of a schema with those it refers to. -/
def document (defs : Definitions) (s : Schema) : Json :=
  .object (("$defs", .object (propertyMembers defs)) :: members s)

/-! ## The wire form -/

def upperAscii (c : Char) : Char :=
  if 0x61 ≤ c.toNat ∧ c.toNat ≤ 0x7A then Char.ofNat (c.toNat - 32) else c

/-- A capital first letter and small ones after it. -/
def titleOf (name : String) : String :=
  String.ofList (match name.toList with
    | [] => []
    | c :: cs => upperAscii c :: cs.map Decimal.lowerAscii)

def integerField (f : FieldName) (description : String) : String × Schema :=
  (f.wire, .integer (titleOf f.wire) description)

def level : Schema :=
  .enumeration "LogLevel"
    ("Maximum log level the agent emits.\n\n" ++
      "Members are ordered from most restrictive to most verbose, so\n" ++
      "``LogLevel.ERROR < LogLevel.DEBUG``. Plain level names compare the same\n" ++
      "way, and unknown names fall back to string comparison.")
    (LogLevel.all.map LogLevel.name)

def pool : Schema :=
  .object Model.pool.title "Pool of reusable outbound connections held by the agent."
    [FieldName.checkInterval.wire, FieldName.fillInterval.wire, FieldName.maxPoolSize.wire]
    [integerField .checkInterval "Interval between health checks of idle pooled connections",
      integerField .fillInterval "Interval between attempts to refill the pool toward capacity",
      integerField .maxPoolSize
        "Upper bound on simultaneously held pooled connections (0 disables pooling)"]

/-- A configuration as the description shows it. -/
def exampleWire : Json :=
  .object [(FieldName.port.wire, .int 8080), (FieldName.workers.wire, .int 4),
    (FieldName.maxLogLevel.wire, .str LogLevel.info.name),
    (FieldName.pool.wire, (⟨30, 10, 100⟩ : ConnectionPool).toWire)]

def configuration : Schema :=
  .object Model.configuration.title
    ("Desired agent runtime settings.\n\n" ++
      "A snapshot to hand to the agent, not observed agent state. Fields may be\n" ++
      "reassigned after construction; assignments are validated like\nconstruction.\n\n" ++
      "Example wire form:\n```json\n" ++ exampleWire.print (some 2) ++ "\n```")
    [FieldName.port.wire, FieldName.workers.wire]
    [integerField .port "TCP port the agent listens on",
      integerField .workers "Number of worker threads the agent runs",
      (FieldName.maxLogLevel.wire, .optional "LogLevel" "Log level ceiling (unset: agent default)"),
      (FieldName.pool.wire,
        .optional Model.pool.title "Connection pool settings (unset: agent default)")]

def definitions : Definitions := [(Model.pool.title, pool), ("LogLevel", level)]

/-- Whether a value satisfies the schema of the wire form. -/
def describes (v : Value) : Bool := accepts definitions 1 configuration v

/-- The published schema. -/
def wireDocument : Json := document definitions configuration

end Schema
end AgentControl
