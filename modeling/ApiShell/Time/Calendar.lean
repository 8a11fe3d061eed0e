import ApiShell.Text.Split

/-!
# Calendar dates and moments

Dates of the proleptic Gregorian calendar from year 1 to year 9999, and moments of a day with
microseconds and an optional distance to universal time.  A moment with such a distance has a place
on the line of universal time, counted in microseconds, and moments are compared there.
-/

namespace ApiShell.Time

/-- A day of the calendar. -/
structure Date where
  year : Nat
  month : Nat
  day : Nat
deriving DecidableEq, Repr

/-- A point of time on a day; `offset` is the local clock's lead over universal time in seconds. -/
structure Moment where
  date : Date
  hour : Nat
  minute : Nat
  second : Nat
  micro : Nat
  offset : Option Int
deriving DecidableEq, Repr

/-- Why numbers make no date or moment. -/
inductive CalendarError where
  | year (year : Nat)
  | month
  | day
  | hour
  | minute
  | second
  | offset (minutes : Int)
deriving DecidableEq, Repr

/-- Decimal text of a number, filled up with zeros on the left. -/
def padded (width n : Nat) : String :=
  let digits := (Nat.repr n).toList
  String.ofList (List.replicate (width - digits.length) '0' ++ digits)

/-- A length of time as its days and seconds, the seconds never negative. -/
def lengthText (seconds : Int) : String :=
  let days := seconds.fdiv 86400
  let rest := seconds.fmod 86400
  let fields := (if days = 0 then [] else [s!"days={days}"]) ++
    (if rest = 0 then [] else [s!"seconds={rest}"])
  let inner := if fields.isEmpty then "0" else Text.join ", " fields
  s!"datetime.timedelta({inner})"

/-- The text of an error. -/
def CalendarError.message : CalendarError → String
  | .year y => s!"year {y} is out of range"
  | .month => "month must be in 1..12"
  | .day => "day is out of range for month"
  | .hour => "hour must be in 0..23"
  | .minute => "minute must be in 0..59"
  | .second => "second must be in 0..59"
  | .offset m => "offset must be a timedelta strictly between -timedelta(hours=24) and " ++
      s!"timedelta(hours=24), not {lengthText (m * 60)}."

/-- Leap years have a 29th of February. -/
def isLeap (year : Nat) : Bool := year % 4 == 0 && (year % 100 != 0 || year % 400 == 0)

/-- The number of days of a month. -/
def daysInMonth (year month : Nat) : Nat :=
  if month = 2 then (if isLeap year then 29 else 28)
  else if month = 4 || month = 6 || month = 9 || month = 11 then 30 else 31

/-- Check the numbers of a date. -/
def Date.make (year month day : Nat) : Except CalendarError Date :=
  if year < 1 || year > 9999 then .error (.year year)
  else if month < 1 || month > 12 then .error .month
  else if day < 1 || day > daysInMonth year month then .error .day
  else .ok ⟨year, month, day⟩

/-- Check the numbers of a moment. -/
def Moment.make (date : Date) (hour minute second micro : Nat) (offset : Option Int) :
    Except CalendarError Moment :=
  if hour > 23 then .error .hour
  else if minute > 59 then .error .minute
  else if second > 59 then .error .second
  else .ok ⟨date, hour, minute, second, micro, offset⟩

/-- Days of a year before a month begins. -/
def daysBeforeMonth (year month : Nat) : Nat :=
  (List.range (month - 1)).foldl (fun days m => days + daysInMonth year (m + 1)) 0

/-- Days before a year begins, counted from year 1. -/
def daysBeforeYear (year : Nat) : Nat :=
  let y := year - 1
  y * 365 + y / 4 - y / 100 + y / 400

/-- The number of a day, the first of January of year 1 being day 0. -/
def Date.number (d : Date) : Nat :=
  daysBeforeYear d.year + daysBeforeMonth d.year d.month + (d.day - 1)

/-- Walk through the months from `month` on, with `rest` days to go. -/
def monthOfDay (year rest : Nat) : Nat → Nat → Nat × Nat
  | 0, month => (month, rest + 1)
  | fuel + 1, month =>
    if rest < daysInMonth year month then (month, rest + 1)
    else monthOfDay year (rest - daysInMonth year month) fuel (month + 1)

/-- The day with a number, unless it lies behind year 9999. -/
def Date.ofNumber? (n : Nat) : Option Date :=
  let guess := n / 366 + 1
  let year := ((List.range 30).map (guess + ·)).foldl
    (fun y k => if daysBeforeYear k ≤ n then k else y) guess
  if year > 9999 then none
  else
    let (month, day) := monthOfDay year (n - daysBeforeYear year) 11 1
    some ⟨year, month, day⟩

/-- Microseconds of local time since the beginning of year 1. -/
def Moment.localMicros (m : Moment) : Nat :=
  (((m.date.number * 24 + m.hour) * 60 + m.minute) * 60 + m.second) * 1000000 + m.micro

/-- The place on the line of universal time, in microseconds; a moment without a distance is taken as
universal. -/
def Moment.instant (m : Moment) : Int := m.localMicros - m.offset.getD 0 * 1000000

/-- The moment of universal time at a place on the line, unless it lies outside the calendar. -/
def Moment.ofInstant? (micros : Int) : Option Moment :=
  if micros < 0 then none
  else
    let n := micros.toNat
    let seconds := n / 1000000
    (Date.ofNumber? (seconds / 86400)).map fun date =>
      { date
        hour := seconds / 3600 % 24
        minute := seconds / 60 % 60
        second := seconds % 60
        micro := n % 1000000
        offset := some 0 }

/-- `2024-01-02`. -/
def Date.text (d : Date) : String := s!"{padded 4 d.year}-{padded 2 d.month}-{padded 2 d.day}"

/-- `+02:00`, with seconds only where there are some. -/
def offsetText (seconds : Int) : String :=
  let n := seconds.natAbs
  let sign := if seconds < 0 then "-" else "+"
  let rest := if n % 60 = 0 then "" else s!":{padded 2 (n % 60)}"
  s!"{sign}{padded 2 (n / 3600)}:{padded 2 (n / 60 % 60)}{rest}"

/-- `03:04:05`, with a fraction only where it is not zero. -/
def Moment.clock (m : Moment) : String :=
  let fraction := if m.micro = 0 then "" else s!".{padded 6 m.micro}"
  s!"{padded 2 m.hour}:{padded 2 m.minute}:{padded 2 m.second}{fraction}"

/-- `2024-01-02T03:04:05+00:00`, with a chosen separator between date and time. -/
def Moment.text (m : Moment) (sep : String) : String :=
  m.date.text ++ sep ++ m.clock ++ (m.offset.map offsetText).getD ""

/-- `2024-01-02T03:04:05Z`: universal time is marked by a letter. -/
def Moment.shortText (m : Moment) : String :=
  m.date.text ++ "T" ++ m.clock ++
    (match m.offset with
      | none => ""
      | some 0 => "Z"
      | some s => offsetText s)

end ApiShell.Time
