import ApiShell.Checked
import ApiShell.Time.Duration

/-!
# Reading moments

A moment is written as a date and a time with a letter, blank or underscore between them and possibly a
distance to universal time, as a date alone, or as a number of seconds or milliseconds since 1970.
-/

namespace ApiShell.Time

/-- The number that digits of the decimal system write. -/
def digitsValue? (cs : List Char) : Option Nat :=
  if !cs.isEmpty && cs.all Char.isDigit then
    some (cs.foldl (fun n c => 10 * n + (c.toNat - 48)) 0)
  else none

/-- The number that a fixed count of digits at the beginning writes. -/
def takeDigits? (count : Nat) (cs : List Char) : Option (Nat × List Char) :=
  let digits := cs.take count
  if digits.length = count then (digitsValue? digits).map (·, cs.drop count) else none

/-- The text behind a character at its beginning. -/
def takeChar? (p : Char → Bool) : List Char → Option (List Char)
  | c :: cs => if p c then some cs else none
  | [] => none

/-- The date at the beginning. -/
def takeDate? (cs : List Char) : Option (Date × List Char) := do
  let (year, cs) ← takeDigits? 4 cs
  let (month, cs) ← takeDigits? 2 (← takeChar? (· == '-') cs)
  let (day, cs) ← takeDigits? 2 (← takeChar? (· == '-') cs)
  match Date.make year month day with
  | .ok date => some (date, cs)
  | .error _ => none

/-- The seconds and microseconds at the beginning, zero where there are none.  What is finer than a
microsecond is dropped. -/
def takeSeconds? (cs : List Char) : Option ((Nat × Nat) × List Char) :=
  match takeChar? (· == ':') cs with
  | none => some ((0, 0), cs)
  | some cs => do
    let (second, cs) ← takeDigits? 2 cs
    match takeChar? (fun c => c == '.' || c == ',') cs with
    | none => return ((second, 0), cs)
    | some cs =>
      let digits := cs.takeWhile Char.isDigit
      let micro ← digitsValue? (digits.take 6 ++ List.replicate (6 - digits.length) '0')
      if digits.isEmpty then none
      return ((second, micro), cs.drop digits.length)

/-- The distance to universal time that fills a text, in seconds. -/
def offsetOf? (cs : List Char) : Option (Option Int) :=
  match cs with
  | [] => some none
  | ['Z'] | ['z'] => some (some 0)
  | sign :: cs => do
    let (hours, cs) ← takeDigits? 2 cs
    let (minutes, cs) ← takeDigits? 2 ((takeChar? (· == ':') cs).getD cs)
    if !cs.isEmpty || hours > 23 || minutes > 59 then none
    let seconds : Int := 3600 * hours + 60 * minutes
    match sign with
    | '+' => some (some seconds)
    | '-' | '−' => some (some (-seconds))
    | _ => none

/-- The moment that a date and a time write. -/
def stampOf? (cs : List Char) : Option Moment := do
  let (date, cs) ← takeDate? cs
  let cs ← takeChar? (fun c => ['T', 't', ' ', '_'].contains c) cs
  let (hour, cs) ← takeDigits? 2 cs
  let (minute, cs) ← takeDigits? 2 (← takeChar? (· == ':') cs)
  let ((second, micro), cs) ← takeSeconds? cs
  let offset ← offsetOf? cs
  match Moment.make date hour minute second micro offset with
  | .ok m => some m
  | .error _ => none

/-- The beginning of the year 1970, in microseconds. -/
def epoch : Int := (Moment.mk ⟨1970, 1, 1⟩ 0 0 0 0 none).instant

/-- Numbers above this one count milliseconds. -/
def millisecondsFrom : Nat := 20000000000

/-- The moment that lies a number of seconds, or of milliseconds, behind the beginning of 1970. -/
def ofNumber? (n : Int) : Option Moment :=
  let unit : Int := if n.natAbs > millisecondsFrom then 1000 else 1000000
  Moment.ofInstant? (epoch + n * unit)

/-- The beginning of a day. -/
def Date.midnight (d : Date) : Moment := ⟨d, 0, 0, 0, 0, none⟩

/-- The whole number that a text writes. -/
def wholeOf? : List Char → Option Int
  | '-' :: cs => (digitsValue? cs).map fun n => -(n : Int)
  | '+' :: cs => (digitsValue? cs).map Int.ofNat
  | cs => (digitsValue? cs).map Int.ofNat

/-- The moment that a text writes. -/
def momentOfText? (cs : List Char) : Option Moment :=
  match stampOf? cs with
  | some m => some m
  | none => match wholeOf? cs with
    | some n => ofNumber? n
    | none => match takeDate? cs with
      | some (date, []) => some date.midnight
      | _ => none

end ApiShell.Time

namespace ApiShell

/-- A moment. -/
def Checked.moment (location : List String) (v : Value) : Checked Time.Moment :=
  let found (m : Option Time.Moment) : Checked Time.Moment := match m with
    | some m => .ok m
    | none => Checked.fault location "datetime_from_date_parsing"
  match v with
  | .text s => found (Time.momentOfText? s.toList)
  | .int n => found (Time.ofNumber? n)
  | .float x => match Decimal.dyadic? x with
    | some d => found (Time.ofNumber? d.truncate)
    | none => Checked.fault location "datetime_from_date_parsing"
  | .scalar (.moment m) => .ok m
  | .scalar (.date d) => .ok d.midnight
  | _ => Checked.fault location "datetime_type"

end ApiShell
