import AgentControl.Text.Blank

/-! # Paths

The way to a file, from the working directory, the home directory or the root. Empty
parts and parts that stay where they are do not count; steps up are kept, because they
need what they leave to exist.
-/

namespace AgentControl

/-- Where a path starts; at a root written with two slashes both are kept. -/
inductive Anchor where
  | here
  | home
  | root (doubled : Bool)
deriving DecidableEq, Repr

structure Path where
  anchor : Anchor
  parts : List String
deriving DecidableEq, Repr

namespace Path

def partsOf (cs : List Char) : List String :=
  ((Text.splitOn '/' cs).map String.ofList).filter fun p => p != "" && p != "."

def ofText (s : String) : Path :=
  match s.toList with
  | '/' :: '/' :: '/' :: cs => ⟨.root false, partsOf cs⟩
  | '/' :: '/' :: cs => ⟨.root true, partsOf cs⟩
  | '/' :: cs => ⟨.root false, partsOf cs⟩
  | cs => ⟨.here, partsOf cs⟩

/-- The text of the way from the root. -/
def fromRoot (parts : List String) : String := "/" ++ Text.join "/" parts

/-- The text of a path, where the home directory is known. -/
def text (home : List String) (p : Path) : String :=
  match p.anchor with
  | .here => if p.parts.isEmpty then "." else Text.join "/" p.parts
  | .home => fromRoot (home ++ p.parts)
  | .root doubled => (if doubled then "/" else "") ++ fromRoot p.parts

/-- A path that starts with `~` starts at home. The homes of others are not known. -/
def expand (p : Path) : Option Path :=
  match p.anchor, p.parts with
  | .here, first :: rest =>
      if first = "~" then some ⟨.home, rest⟩
      else if first.toList.head? = some '~' then none
      else some p
  | _, _ => some p

/-- A dot with what follows it at the end of a name, unless it starts or ends the name. -/
def suffixOf (name : List Char) : List Char :=
  let after := (name.reverse.takeWhile (· != '.')).reverse
  if after.isEmpty || name.length ≤ after.length + 1 then [] else '.' :: after

/-- The suffix of the last part. -/
def suffix (p : Path) : List Char :=
  match p.parts.getLast? with
  | some name => suffixOf name.toList
  | none => []

/-- The path without its last part. -/
def parent (p : Path) : Path := { p with parts := p.parts.dropLast }

end Path
end AgentControl
