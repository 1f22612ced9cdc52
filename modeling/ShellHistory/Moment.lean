/-! Calendar dates, alone or with a time of day and an offset from universal time. -/

namespace ShellHistory

structure Date where
  year : Nat
  month : Nat
  day : Nat
  deriving DecidableEq, Repr

/-- A time of day. `offset` is in minutes east of universal time, where it is known. -/
structure Clock where
  hour : Nat
  minute : Nat
  second : Nat
  microsecond : Nat
  offset : Option Int
  deriving DecidableEq, Repr

structure Moment where
  date : Date
  clock : Option Clock
  deriving DecidableEq, Repr

inductive MomentError
  | year (n : Nat)
  | month
  | day
  | hour
  | minute
  | second
  /-- An offset of a whole day or more. -/
  | offset (minutes : Int)
  deriving DecidableEq, Repr

def spanShown (minutes : Int) : String :=
  let days := minutes.fdiv 1440
  let seconds := minutes.fmod 1440 * 60
  let parts := (if days = 0 then [] else ["days=" ++ toString days]) ++
    (if seconds = 0 then [] else ["seconds=" ++ toString seconds])
  "datetime.timedelta(" ++ (if parts = [] then "0" else String.intercalate ", " parts) ++ ")"

def MomentError.message : MomentError → String
  | year n => "year " ++ toString n ++ " is out of range"
  | month => "month must be in 1..12"
  | day => "day is out of range for month"
  | hour => "hour must be in 0..23"
  | minute => "minute must be in 0..59"
  | second => "second must be in 0..59"
  | offset minutes =>
    "offset must be a timedelta strictly between -timedelta(hours=24) and timedelta(hours=24), " ++
      "not " ++ spanShown minutes ++ "."

namespace Moment

def isLeap (year : Nat) : Bool :=
  year % 4 = 0 && (year % 100 ≠ 0 || year % 400 = 0)

def daysIn (year month : Nat) : Nat :=
  match month with
  | 2 => if isLeap year then 29 else 28
  | 4 | 6 | 9 | 11 => 30
  | _ => 31

def check (m : Moment) : Except MomentError Moment := do
  if let some minutes := m.clock.bind Clock.offset then
    if 1440 ≤ minutes.natAbs then throw (.offset minutes)
  if m.date.year = 0 then throw (.year m.date.year)
  if m.date.month = 0 ∨ 12 < m.date.month then throw .month
  if m.date.day = 0 ∨ daysIn m.date.year m.date.month < m.date.day then throw .day
  match m.clock with
  | none => return m
  | some c =>
    if 23 < c.hour then throw .hour
    if 59 < c.minute then throw .minute
    if 59 < c.second then throw .second
    return m

/-- How many days have passed from the first day of the year 1 on, that day included. -/
def dayNumber (d : Date) : Nat :=
  let years := d.year - 1
  let months := (List.range (d.month - 1)).foldl (fun n month => n + daysIn d.year (month + 1)) 0
  years * 365 + years / 4 - years / 100 + years / 400 + months + d.day

/-- The moment in microseconds, at the offset zero if it has one. -/
def instant (m : Moment) : Int :=
  match m.clock with
  | none => dayNumber m.date
  | some c =>
    let minutes : Int := (dayNumber m.date * 24 + c.hour) * 60 + c.minute - c.offset.getD 0
    (minutes * 60 + c.second) * 1000000 + c.microsecond

/-- Whether two moments can be compared: both are dates, both have an offset, or both lack one. -/
def comparable (m n : Moment) : Bool :=
  match m.clock, n.clock with
  | none, none => true
  | some c, some d => c.offset.isSome = d.offset.isSome
  | _, _ => false

/-- Whether two moments are the same, at whatever offset they are told. -/
def same (m n : Moment) : Bool := comparable m n && m.instant = n.instant

def padded (width n : Nat) : String :=
  let ds := Nat.toDigits 10 n
  String.ofList (List.replicate (width - ds.length) '0' ++ ds)

def dateText (d : Date) : String :=
  padded 4 d.year ++ "-" ++ padded 2 d.month ++ "-" ++ padded 2 d.day

def clockText (c : Clock) : String :=
  let fraction := if c.microsecond = 0 then "" else "." ++ padded 6 c.microsecond
  let offset := match c.offset with
    | none => ""
    | some minutes =>
      let size := minutes.natAbs
      (if minutes < 0 then "-" else "+") ++ padded 2 (size / 60) ++ ":" ++ padded 2 (size % 60)
  padded 2 c.hour ++ ":" ++ padded 2 c.minute ++ ":" ++ padded 2 c.second ++ fraction ++ offset

/-- The moment in the usual order, a blank before the time of day. -/
def toText (m : Moment) : String :=
  match m.clock with
  | none => dateText m.date
  | some c => dateText m.date ++ " " ++ clockText c

def shown (m : Moment) : String :=
  let date := [m.date.year, m.date.month, m.date.day].map toString
  match m.clock with
  | none => "datetime.date(" ++ String.intercalate ", " date ++ ")"
  | some c =>
    let seconds :=
      if c.microsecond = 0 then (if c.second = 0 then [] else [toString c.second])
      else [toString c.second, toString c.microsecond]
    let zone := match c.offset with
      | none => []
      | some 0 => ["tzinfo=datetime.timezone.utc"]
      | some minutes => ["tzinfo=datetime.timezone(" ++ spanShown minutes ++ ")"]
    let time := [toString c.hour, toString c.minute] ++ seconds
    "datetime.datetime(" ++ String.intercalate ", " (date ++ time ++ zone) ++ ")"

end Moment
end ShellHistory
