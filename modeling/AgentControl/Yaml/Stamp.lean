import AgentControl.Yaml.Fault
import AgentControl.Yaml.Cursor

/-! # Timestamps

A date, or a date and a time of day with a fraction and an offset, as YAML writes them. Every part
is kept as its digits, because how many there are decides whether a word counts as a date.
-/

namespace AgentControl.Yaml

/-- An offset from universal time: `Z`, or a sign with hours and perhaps minutes. -/
inductive Zone where
  | universal
  | offset (negative : Bool) (hours : List Char) (minutes : List Char)
deriving DecidableEq, Repr

structure Clock where
  hour : List Char
  minute : List Char
  second : List Char
  fraction : List Char
  zone : Option Zone
deriving DecidableEq, Repr

structure Stamp where
  year : List Char
  month : List Char
  day : List Char
  clock : Option Clock
deriving DecidableEq, Repr

namespace Stamp

/-- From `least` to `most` digits, as many as there are. -/
def digits? (least most : Nat) (cs : List Char) : Option (List Char × List Char) :=
  let ds := (cs.take most).takeWhile Decimal.isAsciiDigit
  if least ≤ ds.length then some (ds, cs.drop ds.length) else none

def mark? (c : Char) : List Char → Option (List Char)
  | d :: cs => if d = c then some cs else none
  | [] => none

/-- The end of the text; a line feed may stand there. -/
def atEnd (cs : List Char) : Bool := cs == [] || cs == ['\n']

def zone? (cs : List Char) : Option (Option Zone) :=
  if atEnd cs then some none
  else match cs.dropWhile isSpaceOrTab with
    | 'Z' :: rest => if atEnd rest then some (some .universal) else none
    | c :: rest =>
        if c = '+' ∨ c = '-' then do
          let (hours, rest) ← digits? 1 2 rest
          if atEnd rest then return some (.offset (c == '-') hours [])
          let (minutes, rest) ← digits? 2 2 (← mark? ':' rest)
          if atEnd rest then return some (.offset (c == '-') hours minutes) else none
        else none
    | [] => none

def clock? (cs : List Char) : Option Clock := do
  let (hour, cs) ← digits? 1 2 cs
  let (minute, cs) ← digits? 2 2 (← mark? ':' cs)
  let (second, cs) ← digits? 2 2 (← mark? ':' cs)
  let (fraction, cs) := match cs with
    | '.' :: cs => (cs.takeWhile Decimal.isAsciiDigit, cs.dropWhile Decimal.isAsciiDigit)
    | cs => ([], cs)
  return ⟨hour, minute, second, fraction, ← zone? cs⟩

/-- What parts a text from a date from a time: a `T` or blanks. -/
def afterDate? : List Char → Option (List Char)
  | [] => none
  | c :: cs =>
      if c = 'T' ∨ c = 't' then some cs
      else if isSpaceOrTab c then some (cs.dropWhile isSpaceOrTab)
      else none

/-- The timestamp that a text is, with months and days of one digit allowed. -/
def ofText? (cs : List Char) : Option Stamp := do
  let (year, cs) ← digits? 4 4 cs
  let (month, cs) ← digits? 1 2 (← mark? '-' cs)
  let (day, cs) ← digits? 1 2 (← mark? '-' cs)
  if atEnd cs then return ⟨year, month, day, none⟩
  return ⟨year, month, day, some (← clock? (← afterDate? cs))⟩

/-- Whether a plain word is taken for a timestamp: a date alone needs all its digits. -/
def isPlain (cs : List Char) : Bool :=
  match ofText? cs with
  | none => false
  | some s => s.clock.isSome || (s.month.length == 2 && s.day.length == 2)

def number (ds : List Char) : Nat := Decimal.ofDigits 10 (ds.filterMap Decimal.digit?)

/-- A fraction of a second to six places; what stands behind them is dropped. -/
def microseconds (fraction : List Char) : Nat :=
  let six := fraction.take 6
  number (six ++ List.replicate (6 - six.length) '0')

def offset : Option Zone → Except Fault (Option Int)
  | none => .ok none
  | some .universal => .ok (some 0)
  | some (.offset negative hours minutes) =>
      let n := number hours * 3600 + number minutes * 60
      let seconds : Int := if negative then -n else n
      if n < 86400 then .ok (some seconds) else .error (.offsetRange seconds)

def ofCalendar {α : Type} (x : Except Calendar.Fault α) : Except Fault α := x.mapError .calendar

/-- The date or time of day that a timestamp names, if the calendar has it. -/
def value (s : Stamp) : Except Fault Value :=
  let date := Calendar.date (number s.year) (number s.month) (number s.day)
  match s.clock with
  | none => do return .date (← ofCalendar date)
  | some c => do
      let offset ← offset c.zone
      let day ← ofCalendar date
      return .dateTime (← ofCalendar (Calendar.dateTime day (number c.hour) (number c.minute)
        (number c.second) (microseconds c.fraction) offset))

end Stamp
end AgentControl.Yaml
