import AgentControl.Disk
import AgentControl.Value.Shown

/-! # Making directories and opening files

A directory is made with all that are missing above it; one that is there already is left alone. A
file is opened by its name from the root on, steps up taken beforehand.
-/

namespace AgentControl

/-- Why a file cannot be written. A path is kept as messages show it. -/
inductive DiskFault where
  | noHome
  | nullCharacter
  | fileExists (path : String)
  | notDirectory (path : String)
  | noDirectory (path : String)
  | isDirectory (path : String)
  | nameTooLong (path : String)
deriving DecidableEq, Repr

def DiskFault.message : DiskFault → String
  | noHome => "Could not determine home directory."
  | nullCharacter => "embedded null byte"
  | fileExists path => "[Errno 17] File exists: " ++ quoted path
  | notDirectory path => "[Errno 20] Not a directory: " ++ quoted path
  | noDirectory path => "[Errno 2] No such file or directory: " ++ quoted path
  | isDirectory path => "[Errno 21] Is a directory: " ++ quoted path
  | nameTooLong path => "[Errno 36] File name too long: " ++ quoted path

namespace Disk

/-- Makes one directory; `none` if the one above it is missing. -/
def makeDirectory (d : Disk) (start above : List String) (name shown : String) :
    Option (Except DiskFault Disk) :=
  match d.walk above start with
  | .missing => none
  | .file _ _ | .underFile => some (.error (.notDirectory shown))
  | .nameTooLong => some (.error (.nameTooLong shown))
  | .directory parts =>
      match d.step name parts with
      | .directory _ => some (.ok d)
      | .file _ _ => some (.error (.fileExists shown))
      | .nameTooLong => some (.error (.nameTooLong shown))
      | _ => some (.ok (d.put (parts ++ [name]) .directory))

/-- Makes the directory that a path leads to, its parts last first. What was made
before a fault stays. -/
def makeDirectories (anchor : Anchor) (d : Disk) : List String → Disk × Option DiskFault
  | [] => (d, none)
  | name :: above =>
      let shown := (Path.mk anchor (above.reverse ++ [name])).text d.home
      match d.makeDirectory (d.start anchor) above.reverse name shown with
      | some (.ok d) => (d, none)
      | some (.error fault) => (d, some fault)
      | none =>
          match makeDirectories anchor d above with
          | (d, some fault) => (d, some fault)
          | (d, none) =>
              match d.makeDirectory (d.start anchor) above.reverse name shown with
              | some (.ok d) => (d, none)
              | some (.error fault) => (d, some fault)
              | none => (d, some (.noDirectory shown))

/-- The way from the root with its steps up taken. -/
def settled (parts : List String) : List String :=
  (parts.foldl (fun (done : List String) name => if name = ".." then done.tail else name :: done)
    []).reverse

/-- The way from the root that a path is written for, whatever the disk holds. -/
def absolute (d : Disk) (p : Path) : List String := settled (d.start p.anchor ++ p.parts)

/-- Opens a file to write behind its end, and makes it where it is missing. -/
def openFile (d : Disk) (parts : List String) : Except DiskFault Disk :=
  let shown := Path.fromRoot parts
  match d.walk parts [] with
  | .directory _ => .error (.isDirectory shown)
  | .file _ _ => .ok d
  | .missing =>
      if (d.walk parts.dropLast []) matches .directory _ then .ok (d.put parts (.file ⟨[], ""⟩))
      else .error (.noDirectory shown)
  | .underFile => .error (.notDirectory shown)
  | .nameTooLong => .error (.nameTooLong shown)

/-- Writes behind the end of a file. -/
def append (d : Disk) (parts : List String) (s : String) : Disk :=
  match d.find? parts with
  | some (.file f) => d.put parts (.file (f.append s))
  | _ => d

/-- Moves a file; what was there makes way. -/
def move (d : Disk) (source target : List String) : Disk :=
  match d.find? source with
  | some e => (d.remove source).put target e
  | none => d

end Disk
end AgentControl
