import MigrationSetup.Text.Digit

/-! Dates and moments as settings files write them.

A moment is a date with a time of day and, if the file gave one, its offset from
UTC in seconds. A moment with an offset names an instant; one without names a wall
clock only, and the two are never the same. -/
namespace MigrationSetup

structure Date where
  year : Nat
  month : Nat
  day : Nat
deriving DecidableEq, Repr

structure Moment where
  date : Date
  hour : Nat
  minute : Nat
  second : Nat
  micro : Nat
  /-- Seconds east of UTC. -/
  offset : Option Int
deriving DecidableEq, Repr

/-! ### The calendar -/

def isLeap (year : Nat) : Bool := year % 4 == 0 && (year % 100 != 0 || year % 400 == 0)

def daysIn (year month : Nat) : Nat :=
  match month with
  | 2 => if isLeap year then 29 else 28
  | 4 | 6 | 9 | 11 => 30
  | _ => 31

/-- Why a date or a time does not exist. The first field that is off is named. -/
inductive CalendarFault
  | year (given : Nat)
  | month
  | day
  | hour
  | minute
  | second
  | offset (seconds : Int)
deriving DecidableEq, Repr

def Date.check (d : Date) : Except CalendarFault Unit :=
  if d.year < 1 ∨ 9999 < d.year then .error (.year d.year)
  else if d.month < 1 ∨ 12 < d.month then .error .month
  else if d.day < 1 ∨ daysIn d.year d.month < d.day then .error .day
  else .ok ()

/-- A moment exists if its date and its time of day do. Whether the offset is less than
a day is looked at first. -/
def Moment.check (t : Moment) : Except CalendarFault Unit := do
  match t.offset with
  | some o => if 86400 ≤ o.natAbs then throw (.offset o)
  | none => pure ()
  t.date.check
  if 23 < t.hour then throw .hour
  if 59 < t.minute then throw .minute
  if 59 < t.second then throw .second

/-- The days from the first day of the year one. -/
def Date.ordinal (d : Date) : Nat :=
  let past := d.year - 1
  let months := (List.range (d.month - 1)).map fun m => daysIn d.year (m + 1)
  past * 365 + past / 4 - past / 100 + past / 400 + months.foldl (· + ·) 0 + d.day

/-- Microseconds on the wall clock since the year one. -/
def Moment.wallClock (t : Moment) : Int :=
  (((t.date.ordinal * 24 + t.hour) * 60 + t.minute) * 60 + t.second) * 1000000 + t.micro

/-- Microseconds in UTC since the year one, for a moment with an offset. -/
def Moment.instant? (t : Moment) : Option Int :=
  t.offset.map fun o => t.wallClock - o * 1000000

/-! ### Writing -/

def Date.text (d : Date) : String :=
  Text.padded 4 d.year ++ "-" ++ Text.padded 2 d.month ++ "-" ++ Text.padded 2 d.day

/-- An offset as sign, hours and minutes, with seconds if there are any. -/
def offsetText (seconds : Int) : String :=
  let n := seconds.natAbs
  (if seconds < 0 then "-" else "+") ++ Text.padded 2 (n / 3600) ++ ":" ++
    Text.padded 2 (n / 60 % 60) ++
    (if n % 60 = 0 then "" else ":" ++ Text.padded 2 (n % 60))

def Moment.text (t : Moment) : String :=
  t.date.text ++ "T" ++ Text.padded 2 t.hour ++ ":" ++ Text.padded 2 t.minute ++ ":" ++
    Text.padded 2 t.second ++ (if t.micro = 0 then "" else "." ++ Text.padded 6 t.micro) ++
    (match t.offset with | none => "" | some o => offsetText o)

/-! ### Shown in messages -/

def Date.shown (d : Date) : String :=
  s!"datetime.date({d.year}, {d.month}, {d.day})"

/-- A span of seconds, split into days and the seconds of the last day. -/
def spanShown (seconds : Int) : String :=
  let days := Int.fdiv seconds 86400
  let rest := Int.fmod seconds 86400
  let parts := (if days = 0 then [] else [s!"days={days}"]) ++
    (if rest = 0 then [] else [s!"seconds={rest}"])
  "datetime.timedelta(" ++ (if parts.isEmpty then "0" else ", ".intercalate parts) ++ ")"

def offsetShown (seconds : Int) : String :=
  if seconds = 0 then "datetime.timezone.utc"
  else "datetime.timezone(" ++ spanShown seconds ++ ")"

/-- Seconds and microseconds are left out while they are zero. -/
def Moment.shown (t : Moment) : String :=
  let clock := [t.hour, t.minute] ++
    (if t.micro ≠ 0 then [t.second, t.micro] else if t.second ≠ 0 then [t.second] else [])
  let fields := [t.date.year, t.date.month, t.date.day] ++ clock
  "datetime.datetime(" ++ ", ".intercalate (fields.map toString) ++
    (match t.offset with | none => "" | some o => ", tzinfo=" ++ offsetShown o) ++ ")"

def CalendarFault.message : CalendarFault → String
  | .year given => s!"year {given} is out of range"
  | .month => "month must be in 1..12"
  | .day => "day is out of range for month"
  | .hour => "hour must be in 0..23"
  | .minute => "minute must be in 0..59"
  | .second => "second must be in 0..59"
  | .offset seconds =>
    "offset must be a timedelta strictly between -timedelta(hours=24) and timedelta(hours=24), not "
      ++ spanShown seconds ++ "."

example : (Date.mk 2024 2 29).check.isOk = true := by decide
example : (Date.mk 2023 2 29).check.isOk = false := by decide
example : (Date.mk 1 1 1).ordinal = 1 := by decide

end MigrationSetup
