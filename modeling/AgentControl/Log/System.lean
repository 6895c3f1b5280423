import AgentControl.Disk.Directories
import AgentControl.Log.Record
import AgentControl.Settings.Basic

/-! # Logging

Records go to the handlers of the root, if they weigh enough for the logger and for the handler. The
console logs to one file, which is put aside under a number before it reaches its limit; commands
that print log to the screen.
-/

namespace AgentControl

/-- Where the records of the root go: to a file that is put aside when it is full, to the screen, or
to a handler that someone else put there, told from others by a number. -/
inductive LogHandler where
  | file (parts : List String) (weight maxBytes backups : Nat)
  | screen
  | other (n : Nat)
deriving DecidableEq, Repr

def LogHandler.isFile : LogHandler → Bool
  | file _ _ _ _ => true
  | screen => false
  | other _ => false

/-- The disk that is logged to, the root with its handlers, those that were closed, loggers with
weights of their own, and what the screen shows. -/
structure LogSystem where
  disk : Disk
  rootWeight : Nat := 30
  handlers : List LogHandler := []
  closed : List LogHandler := []
  weights : List (String × Nat) := []
  screen : String := ""

namespace LogSystem

/-- The loggers that are kept quiet once the console logs. -/
def quietLoggers : List (String × Nat) := [("asyncio", 30), ("markdown_it", 30)]

def verbosity (verbose : Bool) (weight : Nat) : Nat := if verbose then 10 else weight

/-- Removes a handler where it first stands and closes it, if it is for a file. -/
def dropFile (s : LogSystem) (h : LogHandler) : LogSystem :=
  if h.isFile then { s with handlers := s.handlers.erase h, closed := s.closed ++ [h] } else s

/-- Removes and closes the file handlers, going through a copy of the list that
they are taken from. -/
def withoutFiles (s : LogSystem) : LogSystem := s.handlers.foldl dropFile s

/-- Makes the way to the log file and opens it. -/
def openLog (d : Disk) (file : String) : Disk × Except DiskFault (List String) :=
  match (Path.ofText file).expand with
  | none => (d, .error .noHome)
  | some path =>
      if file.toList.any fun c => c.toNat == 0 then (d, .error .nullCharacter)
      else match d.makeDirectories path.anchor path.parent.parts.reverse with
        | (d, some fault) => (d, .error fault)
        | (d, none) =>
            let parts := d.absolute path
            match d.openFile parts with
            | .ok d => (d, .ok parts)
            | .error fault => (d, .error fault)

/-- Sends the records of the console to its log file. What was done before a fault stays done. -/
def setup (s : LogSystem) (settings : LoggingSettings) (verbose : Bool) :
    LogSystem × Option DiskFault :=
  let weight := verbosity verbose settings.level.weight
  let s := { s.withoutFiles with rootWeight := weight }
  match openLog s.disk settings.file with
  | (disk, .error fault) => ({ s with disk }, some fault)
  | (disk, .ok parts) =>
      ({ s with
        disk
        handlers := s.handlers ++ [.file parts weight settings.maxBytes settings.backupCount]
        weights := quietLoggers }, none)

/-- Sends records to the screen, unless they go somewhere already. -/
def setupScreen (s : LogSystem) (verbose : Bool) : LogSystem :=
  if s.handlers.isEmpty then
    { s with handlers := [.screen], rootWeight := verbosity verbose 20 } else s

/-! ## Records -/

/-- A logger and those it belongs to, the nearest first. -/
def lineage : List String → List String
  | [] => []
  | name :: above => Text.join "." (above.reverse ++ [name]) :: lineage above

/-- The least weight that a logger lets pass. -/
def weightOf (s : LogSystem) (logger : String) : Nat :=
  let names := lineage ((Text.splitOn '.' logger.toList).map String.ofList).reverse
  (names.findSome? fun n => s.weights.lookup n).getD s.rootWeight

/-- A text filled up with blanks to a width. -/
def padded (width : Nat) (text : String) : String :=
  text ++ String.ofList (List.replicate (width - text.length) ' ')

/-- The name that a logger's records go by. -/
def nameOf (logger : String) : String := if logger.isEmpty then "root" else logger

/-- The line of a record. -/
def line (time : String) (r : LogRecord) : String :=
  time ++ " | " ++ padded 8 (Weight.name r.weight) ++ " | " ++ nameOf r.logger ++ " | " ++
    r.message ++ "\n"

/-- The parts of the file that a log file becomes when it is put aside for the `n`th time. -/
def numbered (parts : List String) (n : Nat) : List String :=
  match parts.getLast? with
  | some name => parts.dropLast ++ [name ++ "." ++ toString n]
  | none => parts

/-- Moves every file that was put aside to its next number, the highest first. -/
def shift (parts : List String) : (n : Nat) → Disk → Disk
  | 0, d => d
  | n + 1, d => shift parts n (d.move (numbered parts (n + 1)) (numbered parts (n + 2)))

/-- Puts the log file aside and starts it anew. -/
def rollOver (parts : List String) (backups : Nat) (d : Disk) : Disk :=
  let aside :=
    if 0 < backups then (shift parts (backups - 1) d).move parts (numbered parts 1) else d
  match aside.find? parts with
  | some _ => aside
  | none => aside.put parts (.file ⟨[], ""⟩)

/-- Writes a line to a log file, put aside before if the line would fill it up. -/
def write (parts : List String) (maxBytes backups : Nat) (text : String) (d : Disk) : Disk :=
  let size := match d.find? parts with
    | some (.file f) => f.size
    | _ => 0
  (if maxBytes ≤ size + text.length then rollOver parts backups d else d).append parts text

def deliver (s : LogSystem) (text : String) (weight : Nat) : LogHandler → LogSystem
  | .screen => { s with screen := s.screen ++ text }
  | .other _ => s
  | .file parts least maxBytes backups =>
      if least ≤ weight then { s with disk := write parts maxBytes backups text s.disk } else s

/-- Logs a record at a time of day. -/
def log (s : LogSystem) (time : String) (r : LogRecord) : LogSystem :=
  if s.weightOf r.logger ≤ r.weight then
    s.handlers.foldl (fun s h => s.deliver (line time r) r.weight h) s
  else s

def logAll (s : LogSystem) (time : String) (rs : List LogRecord) : LogSystem :=
  rs.foldl (fun s r => s.log time r) s

end LogSystem
end AgentControl
