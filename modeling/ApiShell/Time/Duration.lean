import ApiShell.Decimal.Binary

/-!
# Durations

A duration is a whole number of microseconds, at most 999999999 days and the rest of that day.  A
number of seconds that is no whole number of microseconds goes to the nearest one, a half to the even
one.
-/

namespace ApiShell.Time

/-- A length of time in microseconds. -/
structure Duration where
  micros : Nat
deriving DecidableEq, Repr

namespace Duration

/-- Why a number of seconds is no duration. -/
inductive RangeError where
  | tooLong
  | notANumber
deriving DecidableEq, Repr

def microsPerSecond : Nat := 1000000

def microsPerDay : Nat := 86400 * microsPerSecond

/-- The greatest number of whole days. -/
def maxDays : Nat := 999999999

/-- The whole days. -/
def days (d : Duration) : Nat := d.micros / microsPerDay

/-- The whole seconds of the last day. -/
def seconds (d : Duration) : Nat := d.micros % microsPerDay / microsPerSecond

/-- The microseconds of the last second. -/
def microseconds (d : Duration) : Nat := d.micros % microsPerSecond

/-- A number of microseconds, if the duration is in range. -/
def ofMicros (n : Nat) : Except RangeError Duration :=
  if n / microsPerDay ≤ maxDays then .ok ⟨n⟩ else .error .tooLong

/-- A whole number of seconds. -/
def ofSeconds (n : Nat) : Except RangeError Duration := ofMicros (n * microsPerSecond)

/-- A number of seconds that is not negative.  The part below a second is first multiplied by a
million as a floating-point number and then rounded. -/
def ofFloat (x : Float) : Except RangeError Duration :=
  match Decimal.dyadic? x with
  | none => .error (if Decimal.isNotANumber x then .notANumber else .tooLong)
  | some d =>
    let fraction := Decimal.nearest false (d.num % d.den) d.den
    let micros := match Decimal.dyadic? (fraction * 1000000.0) with
      | some m => Decimal.roundHalfEven m.num m.den
      | none => 0
    ofMicros (d.whole * microsPerSecond + micros)

/-- The number of seconds, as the nearest floating-point number. -/
def totalSeconds (d : Duration) : Float := Decimal.nearest false d.micros microsPerSecond

theorem ofMicros_eq_ok {n : Nat} {d : Duration} (h : ofMicros n = .ok d) : d.micros = n := by
  unfold ofMicros at h
  split at h
  · cases h; rfl
  · cases h

end Duration

end ApiShell.Time
