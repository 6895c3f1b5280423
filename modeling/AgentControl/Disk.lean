import AgentControl.Disk.Path
import AgentControl.Text.Utf8

/-! # Disk

Files and directories by the names on the way to them from the root, with the home directory and the
directory that a program works in.
-/

namespace AgentControl

/-- The bytes that a file was given with, and the text that has been written behind them. -/
structure File where
  bytes : List UInt8
  written : String := ""
deriving DecidableEq, Repr

namespace File

def size (f : File) : Nat := f.bytes.length + f.written.utf8ByteSize

def append (f : File) (s : String) : File := { f with written := f.written ++ s }

/-- The text of a file. -/
def text (f : File) : String := (Utf8.decode? f.bytes).getD "" ++ f.written

/-- All bytes of a file. -/
def content (f : File) : List UInt8 := f.bytes ++ Utf8.encode f.written.toList

end File

inductive Entry where
  | directory
  | file (f : File)
deriving DecidableEq, Repr

/-- The root is there without an entry. -/
structure Disk where
  home : List String
  here : List String
  entries : List (List String × Entry)
deriving DecidableEq, Repr

/-- What a path leads to. -/
inductive Spot where
  | directory (parts : List String)
  | file (parts : List String) (f : File)
  | missing
  | underFile
  | nameTooLong
deriving DecidableEq, Repr

namespace Disk

def find? (d : Disk) (parts : List String) : Option Entry := d.entries.lookup parts

/-- One step from a directory; the one above the root is the root. -/
def step (d : Disk) (name : String) (parts : List String) : Spot :=
  if name = ".." then .directory parts.dropLast
  else if 255 < name.utf8ByteSize then .nameTooLong
  else match d.find? (parts ++ [name]) with
    | some .directory => .directory (parts ++ [name])
    | some (.file f) => .file (parts ++ [name]) f
    | none => .missing

def walk (d : Disk) : List String → List String → Spot
  | [], parts => .directory parts
  | name :: rest, parts =>
      match d.step name parts with
      | .directory below => walk d rest below
      | .file parts f => if rest.isEmpty then .file parts f else .underFile
      | spot => spot

/-- The directory that a path starts from. -/
def start (d : Disk) : Anchor → List String
  | .here => d.here
  | .home => d.home
  | .root _ => []

/-- What a path leads to. -/
def locate (d : Disk) (p : Path) : Spot := d.walk p.parts (d.start p.anchor)

/-- Puts an entry in place, new ones behind the others. -/
def put (parts : List String) (e : Entry) (d : Disk) : Disk :=
  { d with entries := d.entries.filter (·.1 != parts) ++ [(parts, e)] }

def remove (parts : List String) (d : Disk) : Disk :=
  { d with entries := d.entries.filter (·.1 != parts) }

/-- The directories on the way to an entry. -/
def parents (parts : List String) : List (List String) :=
  (List.range parts.length).tail.map fun n => parts.take n

/-- Puts an entry with all directories on the way to it. -/
def deposit (parts : List String) (e : Entry) (d : Disk) : Disk :=
  put parts e ((parents parts).foldl (fun d ps => put ps .directory d) d)

/-- A disk with one directory, in which the program works. -/
def ofHome (home : List String) : Disk := deposit home .directory ⟨home, home, []⟩

end Disk
end AgentControl
