import AgentControl.Value.Basic
import AgentControl.Text.Printable
import AgentControl.Text.Utf8

/-! # How values are shown

The text by which an error message quotes a value, the name of the value's type, and the excerpt
that stands for a long text: its first 25 and last 24 bytes, cut back to whole characters. A value
that holds an integer of too many digits cannot be quoted.
-/

namespace AgentControl

def hexDigit (n : Nat) : Char := (Nat.toDigits 16 (n % 16)).headD '0'

/-- The lowest `width` hexadecimal digits. -/
def hex (width n : Nat) : List Char :=
  match width with
  | 0 => []
  | w + 1 => hex w (n / 16) ++ [hexDigit n]

/-- A character inside quotes of the given kind. -/
def quotedChar (quote c : Char) : List Char :=
  let n := c.toNat
  if c = '\\' ∨ c = quote then ['\\', c]
  else if c = '\n' then ['\\', 'n']
  else if c = '\r' then ['\\', 'r']
  else if c = '\t' then ['\\', 't']
  else if Text.isPrintable c then [c]
  else if n < 0x100 then '\\' :: 'x' :: hex 2 n
  else if n < 0x10000 then '\\' :: 'u' :: hex 4 n
  else '\\' :: 'U' :: hex 8 n

/-- The quote that needs fewer escapes, the single one by preference. -/
def quoteFor (cs : List Char) : Char :=
  if cs.contains '\'' && !cs.contains '"' then '"' else '\''

def quoted (s : String) : String :=
  let q := quoteFor s.toList
  String.ofList (q :: s.toList.flatMap (quotedChar q) ++ [q])

def quotedByte (quote : Char) (b : UInt8) : List Char :=
  let c := Char.ofNat b.toNat
  if b < 0x7F ∧ 0x20 ≤ b ∨ c = '\n' ∨ c = '\r' ∨ c = '\t' then quotedChar quote c
  else '\\' :: 'x' :: hex 2 b.toNat

def quotedBytes (bs : List UInt8) : String :=
  let q := quoteFor (bs.map fun b => Char.ofNat b.toNat)
  String.ofList ('b' :: q :: bs.flatMap (quotedByte q) ++ [q])

/-- A call with its arguments. -/
def callText (name : String) (args : List String) : String :=
  name ++ "(" ++ Text.join ", " args ++ ")"

/-- A span of seconds, with whole days before a remainder that is not negative. -/
def spanText (seconds : Int) : String :=
  let days := seconds.fdiv 86400
  let rest := seconds.fmod 86400
  callText "datetime.timedelta"
    ((if days = 0 then [] else ["days=" ++ Decimal.ofInt days]) ++
      (if rest = 0 then [] else ["seconds=" ++ Decimal.ofInt rest]))

def Date.shown (d : Date) : String :=
  callText "datetime.date" ([d.year, d.month, d.day].map fun (n : Nat) => Decimal.ofInt n)

def DateTime.shown (t : DateTime) : String :=
  let small :=
    if t.microsecond ≠ 0 then [t.second, t.microsecond]
    else if t.second ≠ 0 then [t.second]
    else []
  let zone := match t.offset with
    | none => []
    | some 0 => ["tzinfo=datetime.timezone.utc"]
    | some s => ["tzinfo=" ++ callText "datetime.timezone" [spanText s]]
  callText "datetime.datetime"
    (([t.date.year, t.date.month, t.date.day, t.hour, t.minute] ++ small).map
      (fun (n : Nat) => Decimal.ofInt n) ++ zone)

def LogLevel.shown (l : LogLevel) : String :=
  "<LogLevel." ++ l.name ++ ": '" ++ l.name ++ "'>"

def ConnectionPool.shown (p : ConnectionPool) : Except Decimal.Overlong String := do
  return callText "ConnectionPoolConfiguration"
    ["check_interval=" ++ (← Decimal.text p.checkInterval),
      "fill_interval=" ++ (← Decimal.text p.fillInterval),
      "max_pool_size=" ++ (← Decimal.text p.maxPoolSize)]

def Configuration.shown (c : Configuration) : Except Decimal.Overlong String := do
  return callText "Configuration"
    ["agent_server_port=" ++ (← Decimal.text c.port),
      "worker_thread_number=" ++ (← Decimal.text c.workers),
      "max_log_level=" ++ (match c.maxLogLevel with | none => "None" | some l => l.shown),
      "connection_pool_configuration=" ++
        (← match c.pool with | none => .ok "None" | some p => p.shown)]

namespace Collection

/-- What a collection is shown as inside itself. -/
def mark : Collection → String
  | list => "[...]"
  | tuple => "(...)"
  | dict => "\x7b...\x7d"

def name : Collection → String
  | list => "list"
  | tuple => "tuple"
  | dict => "dict"

end Collection

namespace Value

mutual

/-- The text by which a value is quoted. -/
def shown : Value → Except Decimal.Overlong String
  | null => .ok "None"
  | bool b => .ok (if b then "True" else "False")
  | int n => Decimal.text n
  | float x => .ok (Decimal.ofFloat x)
  | str s => .ok (quoted s)
  | bytes bs => .ok (quotedBytes bs)
  | list xs => do return "[" ++ Text.join ", " (← shownList xs) ++ "]"
  | tuple xs =>
      match xs with
      | [x] => do return "(" ++ (← shown x) ++ ",)"
      | xs => do return "(" ++ Text.join ", " (← shownList xs) ++ ")"
  | set xs =>
      match xs with
      | [] => .ok "set()"
      | xs => do return "\x7b" ++ Text.join ", " (← shownList xs) ++ "\x7d"
  | dict entries => do return "\x7b" ++ Text.join ", " (← shownEntries entries) ++ "\x7d"
  | date d => .ok d.shown
  | dateTime t => .ok t.shown
  | level l => .ok l.shown
  | pool p => p.shown
  | configuration c => c.shown
  | theme t => .ok ("Theme(name=" ++ quoted t.name ++ ")")
  | backReference kind => .ok kind.mark

def shownList : List Value → Except Decimal.Overlong (List String)
  | [] => .ok []
  | x :: xs => do return (← shown x) :: (← shownList xs)

def shownEntries : List (Value × Value) → Except Decimal.Overlong (List String)
  | [] => .ok []
  | (k, v) :: rest => do return ((← shown k) ++ ": " ++ (← shown v)) :: (← shownEntries rest)

end

/-- The name of a value's type, as messages use it. -/
def typeName : Value → String
  | null => "NoneType"
  | bool _ => "bool"
  | int _ => "int"
  | float _ => "float"
  | str _ => "str"
  | bytes _ => "bytes"
  | list _ => "list"
  | tuple _ => "tuple"
  | set _ => "set"
  | dict _ => "dict"
  | date _ => "date"
  | dateTime _ => "datetime"
  | level _ => "LogLevel"
  | pool _ => "ConnectionPoolConfiguration"
  | configuration _ => "Configuration"
  | theme _ => "Theme"
  | backReference kind => kind.name

end Value

/-- The longest beginning that has at most `limit` bytes. -/
def leading (limit : Nat) : List Char → List Char
  | [] => []
  | c :: cs => if c.utf8Size ≤ limit then c :: leading (limit - c.utf8Size) cs else []

/-- A text of at most 50 bytes whole, a longer one by its ends. -/
def excerpt (s : String) : String :=
  if s.utf8ByteSize ≤ 50 then s
  else
    String.ofList (leading 25 s.toList) ++ "..." ++
      String.ofList (leading 24 s.toList.reverse).reverse

/-- What a message holds of a value. One that cannot be quoted is called by its type. -/
def Value.quotation (v : Value) : String :=
  excerpt
    (match v.shown with
      | .ok s => s
      | .error _ => "<unprintable " ++ v.typeName ++ " object>")

end AgentControl
