/-! # Calendar dates

Dates of the Gregorian calendar from year 1 to 9999 and times of day on them, with an offset from
universal time or without one.
-/

namespace AgentControl

structure Date where
  year : Nat
  month : Nat
  day : Nat
deriving DecidableEq, Repr

structure DateTime where
  date : Date
  hour : Nat
  minute : Nat
  second : Nat
  microsecond : Nat
  offset : Option Int
deriving DecidableEq, Repr

namespace Calendar

inductive Fault where
  | yearRange (year : Nat)
  | monthRange
  | dayRange
  | hourRange
  | minuteRange
  | secondRange
deriving DecidableEq, Repr

def isLeap (year : Nat) : Bool := year % 4 == 0 && (year % 100 != 0 || year % 400 == 0)

def daysIn (year month : Nat) : Nat :=
  if month = 2 then if isLeap year then 29 else 28
  else if month = 4 ∨ month = 6 ∨ month = 9 ∨ month = 11 then 30
  else 31

/-- Year, month and day, faulted in this order. -/
def date (year month day : Nat) : Except Fault Date :=
  if year < 1 ∨ 9999 < year then .error (.yearRange year)
  else if month < 1 ∨ 12 < month then .error .monthRange
  else if day < 1 ∨ daysIn year month < day then .error .dayRange
  else .ok ⟨year, month, day⟩

def dateTime (date : Date) (hour minute second microsecond : Nat) (offset : Option Int) :
    Except Fault DateTime :=
  if 23 < hour then .error .hourRange
  else if 59 < minute then .error .minuteRange
  else if 59 < second then .error .secondRange
  else .ok ⟨date, hour, minute, second, microsecond, offset⟩

def Fault.message : Fault → String
  | yearRange year => "year " ++ toString year ++ " is out of range"
  | monthRange => "month must be in 1..12"
  | dayRange => "day is out of range for month"
  | hourRange => "hour must be in 0..23"
  | minuteRange => "minute must be in 0..59"
  | secondRange => "second must be in 0..59"

/-- Decimal digits, filled up with zeros to a width. -/
def padded (width n : Nat) : String :=
  let ds := Nat.toDigits 10 n
  String.ofList (List.replicate (width - ds.length) '0' ++ ds)

/-- The days of a year that lie before a month. -/
def daysBefore (year : Nat) : (month : Nat) → Nat
  | 0 => 0
  | m + 1 => daysBefore year m + if m = 0 then 0 else daysIn year m

end Calendar

/-- The number of days since the calendar began. -/
def Date.dayNumber (d : Date) : Nat :=
  let y := d.year - 1
  y * 365 + y / 4 - y / 100 + y / 400 + Calendar.daysBefore d.year d.month + d.day

/-- The microseconds since the calendar began, in universal time where there is an offset. -/
def DateTime.instant (t : DateTime) : Int :=
  let seconds := ((t.date.dayNumber * 24 + t.hour) * 60 + t.minute) * 60 + t.second
  ((seconds : Int) - t.offset.getD 0) * 1000000 + t.microsecond

/-- Whether two times are one moment; one without an offset is none with an offset. -/
def DateTime.sameMoment (s t : DateTime) : Bool :=
  s.offset.isSome == t.offset.isSome && s.instant == t.instant

def Date.iso (d : Date) : String :=
  Calendar.padded 4 d.year ++ "-" ++ Calendar.padded 2 d.month ++ "-" ++ Calendar.padded 2 d.day

/-- An offset as sign, hours and minutes, and seconds where there are any. -/
def offsetText (seconds : Int) : String :=
  let n := seconds.natAbs
  let rest := if n % 60 = 0 then "" else ":" ++ Calendar.padded 2 (n % 60)
  (if seconds < 0 then "-" else "+") ++ Calendar.padded 2 (n / 3600) ++ ":" ++
    Calendar.padded 2 (n / 60 % 60) ++ rest

def DateTime.iso (t : DateTime) : String :=
  t.date.iso ++ "T" ++ Calendar.padded 2 t.hour ++ ":" ++ Calendar.padded 2 t.minute ++ ":" ++
    Calendar.padded 2 t.second ++
    (if t.microsecond = 0 then "" else "." ++ Calendar.padded 6 t.microsecond) ++
    (match t.offset with | none => "" | some s => offsetText s)

end AgentControl
