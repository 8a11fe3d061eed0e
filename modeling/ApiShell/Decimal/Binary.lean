/-!
# Binary floating-point numbers as exact values

A finite 64-bit floating-point number is a natural mantissa times a power of two, with a sign.  This
file takes numbers apart into that form and builds the number nearest to a given fraction, a half
going to the even mantissa, so that everything said about decimal texts can be said in exact
arithmetic.
-/

namespace ApiShell.Decimal

/-- The exact value `±mantissa · 2 ^ exponent`. -/
structure Dyadic where
  negative : Bool
  mantissa : Nat
  exponent : Int
deriving DecidableEq, Repr

/-- The exact value of a finite number; infinities and values that are no number have none. -/
def dyadic? (x : Float) : Option Dyadic :=
  let bits : Nat := x.toBits.toNat
  let biased : Nat := bits / Nat.pow 2 52 % Nat.pow 2 11
  let fraction : Nat := bits % Nat.pow 2 52
  let negative := bits / Nat.pow 2 63 == 1
  if biased = 2047 then none
  else if biased = 0 then some ⟨negative, fraction, -1074⟩
  else some ⟨negative, fraction + Nat.pow 2 52, (biased : Int) - 1075⟩

/-- Positive infinity. -/
def infinity : Float := Float.ofBits 0x7FF0000000000000

/-- The value that is no number. -/
def notANumber : Float := Float.ofBits 0x7FF8000000000000

/-- Whether a value is no number. -/
def isNotANumber (x : Float) : Bool := x.toBits.toNat % Nat.pow 2 63 > 2047 * Nat.pow 2 52

/-- Whether the sign bit of a number is set. -/
def isNegative (x : Float) : Bool := x.toBits.toNat / Nat.pow 2 63 == 1

/-- The numerator of `mantissa · 2 ^ exponent`. -/
def Dyadic.num (d : Dyadic) : Nat := d.mantissa * Nat.pow 2 d.exponent.toNat

/-- The denominator of `mantissa · 2 ^ exponent`. -/
def Dyadic.den (d : Dyadic) : Nat := Nat.pow 2 (-d.exponent).toNat

/-- The absolute value cut down to a natural number. -/
def Dyadic.whole (d : Dyadic) : Nat := d.num / d.den

/-- The value cut towards zero. -/
def Dyadic.truncate (d : Dyadic) : Int := if d.negative then -(d.whole : Int) else d.whole

/-- The value is a whole number. -/
def Dyadic.isWhole (d : Dyadic) : Bool := d.num % d.den == 0

/-- The natural number nearest to `num / den`; of two nearest ones, the even one. -/
def roundHalfEven (num den : Nat) : Nat :=
  let q := num / den
  let r := num % den
  if 2 * r < den then q
  else if 2 * r > den then q + 1
  else if q % 2 = 0 then q else q + 1

/-- The nearest natural number is at most half a unit away. -/
theorem roundHalfEven_near (num den : Nat) (h : 0 < den) :
    2 * num ≤ 2 * roundHalfEven num den * den + den ∧
      2 * roundHalfEven num den * den ≤ 2 * num + den := by
  have hq : den * (num / den) + num % den = num := Nat.div_add_mod num den
  have hr : num % den < den := Nat.mod_lt _ h
  have key : ∀ q : Nat, 2 * q * den = 2 * (den * q) := fun q => by
    rw [Nat.mul_assoc, Nat.mul_comm q den]
  have keySucc : ∀ q : Nat, 2 * (q + 1) * den = 2 * (den * q) + 2 * den := fun q => by
    rw [key, Nat.mul_add, Nat.mul_one, Nat.mul_add]
  simp only [roundHalfEven]
  split
  · rw [key]; omega
  · split
    · rw [keySucc]; omega
    · split
      · rw [key]; omega
      · rw [keySucc]; omega

/-- The bits of the number nearest to `num / den`, which is not negative. -/
def nearestBits (num den : Nat) : Nat :=
  if num = 0 then 0
  else
    let guess : Int := (num.log2 : Int) - (den.log2 : Int) - 53
    let scaled (e : Int) : Nat × Nat := (num * Nat.pow 2 (-e).toNat, den * Nat.pow 2 e.toNat)
    let low := max guess (-1074)
    let (n, d) := scaled low
    let e := if n / d ≥ Nat.pow 2 53 then low + 1 else low
    let (n, d) := scaled e
    min ((e + 1074).toNat * Nat.pow 2 52 + roundHalfEven n d) (2047 * Nat.pow 2 52)

/-- The number nearest to `num / den`, negated on demand; too large a fraction gives infinity. -/
def nearest (negative : Bool) (num den : Nat) : Float :=
  Float.ofBits (UInt64.ofNat (nearestBits num den + if negative then Nat.pow 2 63 else 0))

/-- The number nearest to `±digits · 10 ^ exponent`.  Powers far outside the range of the numbers are
not computed: there the answer is infinity or zero. -/
def ofDecimal (negative : Bool) (digits : Nat) (exponent : Int) : Float :=
  let magnitude : Int := (Nat.repr digits).length + exponent
  if digits = 0 || magnitude < -400 then nearest negative 0 1
  else if magnitude > 400 then nearest negative (Nat.pow 2 1024) 1
  else nearest negative (digits * Nat.pow 10 exponent.toNat) (Nat.pow 10 (-exponent).toNat)

/-- The number nearest to an integer, unless the integer is out of range. -/
def ofInt? (n : Int) : Option Float :=
  let x := nearest (n < 0) n.natAbs 1
  (dyadic? x).map fun _ => x

/-- A number is equal to an integer. -/
def eqInt (x : Float) (n : Int) : Bool :=
  match dyadic? x with
  | some d => d.isWhole && d.truncate == n
  | none => false

end ApiShell.Decimal
