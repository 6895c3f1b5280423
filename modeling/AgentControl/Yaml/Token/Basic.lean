/-! # YAML tokens

The pieces of a YAML text: marks of structure, made explicit where indentation implies them, and the
scalars, anchors and tags between them.
-/

namespace AgentControl.Yaml

/-- A tag as it is written: under a handle or whole. -/
structure TagName where
  handle : Option String
  rest : String
deriving DecidableEq, Repr

inductive Token where
  | streamEnd
  | version (major minor : Nat)
  | tagHandle (handle replacement : String)
  | otherDirective
  | documentStart
  | documentEnd
  | blockSequenceStart
  | blockMappingStart
  | blockEnd
  | flowSequenceStart
  | flowSequenceEnd
  | flowMappingStart
  | flowMappingEnd
  | blockEntry
  | flowEntry
  | key
  | value
  | aliasOf (name : String)
  | anchor (name : String)
  | tag (name : TagName)
  | scalar (text : String) (plain : Bool)
  | noCharacter (code : Nat)
deriving DecidableEq, Repr

end AgentControl.Yaml
