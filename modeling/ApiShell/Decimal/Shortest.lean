import ApiShell.Decimal.Binary

/-!
# Shortest decimals

Of all decimal numbers that read back as a given floating-point number, the one with the fewest
digits is written, and of those the nearest.  A decimal grid has a point that reads back exactly when
one of the two grid points next to the number does, so each grid needs two tests.
-/

namespace ApiShell.Decimal

/-- The positive decimal `digits · 10 ^ (point - count)`, where `count` is the number of digits: the
decimal point stands `point` places to the right of the first digit's left edge. -/
structure Digits where
  digits : List Char
  point : Int
deriving DecidableEq, Repr

/-- The reals that round to a number, times a common scale: `low ≤ x ≤ high`, ends included iff
`closed`. -/
structure Interval where
  low : Nat
  value : Nat
  high : Nat
  scale : Nat
  closed : Bool

/-- The interval of the reals that round to `mantissa · 2 ^ exponent`.  Below a power of two the
numbers lie twice as close. -/
def Interval.ofDyadic (d : Dyadic) : Interval :=
  let step := Nat.pow 2 (d.exponent - 2).toNat
  let below := if d.mantissa = Nat.pow 2 52 && d.exponent > -1074 then 1 else 2
  { low := (4 * d.mantissa - below) * step
    value := 4 * d.mantissa * step
    high := (4 * d.mantissa + 2) * step
    scale := Nat.pow 2 (2 - d.exponent).toNat
    closed := d.mantissa % 2 = 0 }

/-- The decimal `c · 10 ^ e` rounds to the number of the interval. -/
def Interval.holds (i : Interval) (c : Nat) (e : Int) : Bool :=
  let x := c * Nat.pow 10 e.toNat * i.scale
  let s := Nat.pow 10 (-e).toNat
  if i.closed then i.low * s ≤ x && x ≤ i.high * s else i.low * s < x && x < i.high * s

/-- The number of places before the decimal point of a positive fraction above `10 ^ (-400)`:
the least `p` with `value < 10 ^ p`. -/
def placesBefore (num den : Nat) : Int :=
  ((Nat.repr (num * Nat.pow 10 400 / den)).length : Int) - 400

/-- The decimal on the grid of `10 ^ e` that reads back as the number, the nearer of two. -/
def Interval.onGrid? (i : Interval) (e : Int) : Option Nat :=
  let num := i.value * Nat.pow 10 (-e).toNat
  let den := i.scale * Nat.pow 10 e.toNat
  let c := num / den
  match i.holds c e, i.holds (c + 1) e with
  | true, true => some (roundHalfEven num den)
  | true, false => some c
  | false, true => some (c + 1)
  | false, false => none

/-- Drop the zeros at the end of a list of digits. -/
def dropTrailingZeros (cs : List Char) : List Char := (cs.reverse.dropWhile (· == '0')).reverse

/-- Try grids of more and more digits: `count` of them now, and at most `fuel` grids. -/
def Interval.shortestFrom (i : Interval) (places : Int) : Nat → Nat → Digits
  | 0, _ => ⟨['0'], 1⟩
  | fuel + 1, count =>
    let e := places - count
    match i.onGrid? e with
    | some c =>
      let text := (Nat.repr c).toList
      ⟨dropTrailingZeros text, e + text.length⟩
    | none => i.shortestFrom places fuel (count + 1)

/-- The shortest decimal that reads back as a positive number.  Seventeen digits always suffice. -/
def shortest (d : Dyadic) : Digits :=
  if d.mantissa = 0 then ⟨['0'], 1⟩
  else
    let i := Interval.ofDyadic d
    i.shortestFrom (placesBefore i.value i.scale) 17 1

/-- How a floating-point number is written: which positions of the decimal point are written without
an exponent, whether a point stands before an exponent, and the texts of the special values. -/
structure Layout where
  firstPlain : Int
  lastPlain : Int
  pointBeforeExponent : Bool
  notANumber : String
  infinity : String
  minusInfinity : String

/-- At least two digits of an exponent, with its sign. -/
def exponentText (e : Int) : List Char :=
  let digits := (Nat.repr e.natAbs).toList
  (if e < 0 then '-' else '+') :: (if digits.length < 2 then '0' :: digits else digits)

/-- Digits and a decimal point, or one digit before the point and an exponent. -/
def Layout.place (layout : Layout) (d : Digits) : List Char :=
  if layout.firstPlain ≤ d.point && d.point ≤ layout.lastPlain then
    if d.point ≤ 0 then '0' :: '.' :: List.replicate (-d.point).toNat '0' ++ d.digits
    else
      let count := d.point.toNat
      let whole := d.digits.take count
      let rest := d.digits.drop count
      whole ++ List.replicate (count - whole.length) '0' ++ '.' ::
        (if rest.isEmpty then ['0'] else rest)
  else
    let tail := d.digits.drop 1
    let fraction :=
      if !tail.isEmpty then '.' :: tail
      else if layout.pointBeforeExponent then ['.', '0'] else []
    d.digits.take 1 ++ fraction ++ 'e' :: exponentText (d.point - 1)

/-- The text of a number in a layout. -/
def Layout.write (layout : Layout) (x : Float) : List Char :=
  match dyadic? x with
  | some d => (if d.negative then ['-'] else []) ++ layout.place (shortest d)
  | none =>
    if isNotANumber x then layout.notANumber.toList
    else if isNegative x then layout.minusInfinity.toList
    else layout.infinity.toList

/-- The layout of displayed numbers: an exponent below `1e-4` and from `1e16` on. -/
def displayLayout : Layout := ⟨-3, 16, false, "nan", "inf", "-inf"⟩

/-- The digits of a positive fraction rounded to `count` significant ones. -/
def significant (count num den : Nat) : Digits :=
  if num = 0 then ⟨['0'], 1⟩
  else
    let e := placesBefore num den - count
    let c := roundHalfEven (num * Nat.pow 10 (-e).toNat) (den * Nat.pow 10 e.toNat)
    let text := (Nat.repr c).toList
    ⟨dropTrailingZeros text, e + text.length⟩

/-- Six significant digits without trailing zeros; an exponent below `1e-4` and from `1e6` on. -/
def general (x : Float) : List Char :=
  match dyadic? x with
  | some d =>
    let r := significant 6 d.num d.den
    let text := (Layout.mk (-3) 6 false "nan" "inf" "-inf").place r
    let text := if text.drop (text.length - 2) == ['.', '0'] then text.take (text.length - 2) else text
    (if d.negative then ['-'] else []) ++ text
  | none => displayLayout.write x

end ApiShell.Decimal
