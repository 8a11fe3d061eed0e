import ApiShell.Decimal.Binary
import ApiShell.Text.Blank
import ApiShell.Text.Digit
import ApiShell.Text.Lower

/-!
# Numerals of people

Numbers as people write them into a text field: blanks around them, a sign, digits of any script, and
single underscores between digits.
-/

namespace ApiShell.Decimal

/-- The blanks that a number may have around it: all but the separators among the control characters. -/
def isPadding (c : Char) : Bool := Text.isBlank c && !(0x1C ≤ c.toNat && c.toNat ≤ 0x1F)

/-- A sign and what follows it. -/
def takeSign : List Char → Bool × List Char
  | '-' :: cs => (true, cs)
  | '+' :: cs => (false, cs)
  | cs => (false, cs)

/-- The value of a digit in a base up to 36. -/
def digitIn? (base : Nat) (c : Char) : Option Nat :=
  let value? :=
    match Text.decimalDigit? c with
    | some n => some n
    | none =>
      let l := c.toLower
      if 'a' ≤ l && l ≤ 'z' then some (l.toNat - 'a'.toNat + 10) else none
  value?.filter (· < base)

/-- Digits with single underscores between them; `last` says whether a digit came just before. -/
def groupedDigits (base : Nat) (last : Bool) : List Char → Option (List Nat)
  | [] => if last then some [] else none
  | '_' :: cs => if last then groupedDigits base false cs else none
  | c :: cs => do
    let d ← digitIn? base c
    let ds ← groupedDigits base true cs
    return d :: ds

/-- The number that digits stand for. -/
def ofDigits (base : Nat) (ds : List Nat) : Nat := ds.foldl (fun n d => base * n + d) 0

/-- The integer that a text writes in a base. -/
def integer? (base : Nat) (cs : List Char) : Option Int := do
  let (negative, digits) := takeSign (Text.trimOf isPadding cs)
  let ds ← groupedDigits base false digits
  let n : Int := ofDigits base ds
  return if negative then -n else n

/-- The digits before `stop`, which may be none, and what follows them. -/
def someGrouped (cs : List Char) : Option (List Nat × List Char) :=
  let run := cs.takeWhile fun c => Text.isDecimal c || c == '_'
  if run.isEmpty then some ([], cs)
  else (groupedDigits 10 false run).map fun ds => (ds, cs.drop run.length)

/-- A number without its sign: special names, or digits with a point and an exponent. -/
def unsignedFloat? (negative : Bool) (cs : List Char) : Option Float :=
  let name := String.ofList (Text.lowerChars cs)
  if name == "inf" || name == "infinity" then some (if negative then -infinity else infinity)
  else if name == "nan" then some notANumber
  else do
    let (whole, rest) ← someGrouped cs
    let (fraction, rest) ← match rest with
      | '.' :: rest => someGrouped rest
      | rest => some ([], rest)
    if whole.isEmpty && fraction.isEmpty then none
    else
      let exponent ← match rest with
        | [] => some 0
        | e :: rest =>
          if e == 'e' || e == 'E' then
            let (minus, digits) := takeSign rest
            (groupedDigits 10 false digits).map fun ds =>
              let n : Int := ofDigits 10 ds
              if minus then -n else n
          else none
      return ofDecimal negative (ofDigits 10 (whole ++ fraction)) (exponent - fraction.length)

/-- The floating-point number that a text writes. -/
def float? (cs : List Char) : Option Float :=
  let (negative, rest) := takeSign (Text.trimOf isPadding cs)
  unsignedFloat? negative rest

end ApiShell.Decimal
