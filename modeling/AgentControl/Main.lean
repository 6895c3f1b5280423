import AgentControl.CommandLine.Run
import Std.Time.Zoned

/-! # The program

What the words of a command line name is read from the disk, the request is carried out on it, and
what has changed is written back. A console that is started mounts its root and ends.
-/

namespace AgentControl.CommandLine

/-- A number with two digits at least. -/
def twoDigits (n : Nat) : String := (if n < 10 then "0" else "") ++ toString n

/-- The time of day as the lines of a log start with it. -/
def timeOfDay : IO String := do
  let t ← Std.Time.PlainDateTime.now
  return toString t.year.toInt ++ "-" ++ twoDigits t.month.toNat ++ "-" ++
    twoDigits t.day.toNat ++ " " ++ twoDigits t.hour.toNat ++ ":" ++
    twoDigits t.minute.toNat ++ ":" ++ twoDigits t.second.toNat

/-- The names of a path that leads from the root. -/
def namesOf (text : String) : List String := (Path.ofText text).parts

/-- Puts what is found on the way from a directory, if anything, on a disk. -/
def fetch (d : Disk) (start : List String) : List String → IO Disk
  | [] => return d
  | name :: rest => do
      if name = ".." then fetch d start.dropLast rest
      else
        let parts := start ++ [name]
        match ← (IO.FS.readBinFile (Path.fromRoot parts)).toBaseIO with
        | .ok bytes => return d.put parts (.file ⟨bytes.toList, ""⟩)
        | .error (.inappropriateType ..) => fetch (d.put parts .directory) parts rest
        | .error _ => return d

def fetchPath (d : Disk) (text : String) : IO Disk :=
  match (Path.ofText text).expand with
  | some p => fetch d (d.start p.anchor) p.parts
  | none => return d

/-- Fetches what a word may name, whole or behind an equals sign. -/
def fetchWord (d : Disk) (word : String) : IO Disk := do
  let d ← fetchPath d word
  match Grammar.splitValue word.toList with
  | (_, some value) => fetchPath d (String.ofList value)
  | (_, none) => return d

/-- Fetches a log file and those that were put aside. -/
def fetchLog (d : Disk) : LogHandler → IO Disk
  | .screen | .other _ => return d
  | .file parts _ _ backups => do
      let mut d ← fetch d [] parts
      for n in [1:backups + 1] do
        let aside := LogSystem.numbered parts n
        d ← fetch d [] aside
        if (d.find? aside).isNone then break
      return d

/-- Writes what has changed. -/
def store (before after : Disk) : IO Unit := do
  for (parts, e) in after.entries do
    if before.find? parts != some e then
      match e with
      | .directory => IO.FS.createDirAll (Path.fromRoot parts)
      | .file f => IO.FS.writeBinFile (Path.fromRoot parts) ⟨f.content.toArray⟩
  for (parts, _) in before.entries do
    if (after.find? parts).isNone then IO.FS.removeFile (Path.fromRoot parts)

/-- A disk with the home and the working directory. -/
def emptyDisk : IO Disk := do
  let here := namesOf (← IO.currentDir).toString
  let home := match ← IO.getEnv "HOME" with
    | some text => namesOf text
    | none => here
  return { Disk.ofHome home with here }.deposit here .directory

end AgentControl.CommandLine

open AgentControl AgentControl.CommandLine in
/-- Runs a command line. What the log needs from the disk shows in a first run, whose
outcome is dropped. -/
def main (words : List String) : IO UInt32 := do
  let env : Surroundings :=
    ⟨← timeOfDay, fun console => let ((ended, _), records) := console.run; (ended, records)⟩
  let disk ← (Settings.defaultFile :: words).foldlM fetchWord (← emptyDisk)
  let disk ← (run env disk words).logs.handlers.foldlM fetchLog disk
  let outcome := run env disk words
  store disk outcome.logs.disk
  IO.print outcome.stdout
  IO.eprint outcome.stderr
  if let some crash := outcome.crash then IO.eprintln ("Error: " ++ crash.message)
  return outcome.exitCode.toUInt32
