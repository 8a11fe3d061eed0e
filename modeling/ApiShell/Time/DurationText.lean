import ApiShell.Display
import ApiShell.Fault
import ApiShell.Text.Blank
import ApiShell.Text.Digit
import ApiShell.Time.Duration

/-!
# Reading durations

A duration is written as a number of seconds, or as a text: digits alone are seconds, and otherwise a
chain of parts, each a decimal number with a unit, such as `1h30m`.  Units may come in any order and
more than once, and nothing stands between two parts.  Bytes are read where they are digits alone.
-/

namespace ApiShell.Time

/-- The units of a part. -/
inductive DurationUnit where
  | millisecond
  | second
  | minute
  | hour
  | day
deriving DecidableEq, Repr

/-- The length of a unit in seconds. -/
def DurationUnit.seconds : DurationUnit → Float
  | millisecond => 0.001
  | second => 1.0
  | minute => 60.0
  | hour => 3600.0
  | day => 86400.0

/-- Why a value is no duration. -/
inductive DurationError where
  | negative (shown : String)
  | empty
  | malformed (shown : String)
  | strangeDigits (shown : String)
  | notANumber
  | tooLong
  | notText
  | wrongKind
deriving DecidableEq, Repr

/-- The defect that an unchecked error amounts to. -/
def DurationError.defect : DurationError → Defect
  | negative shown => .badValue s!"negative duration: {shown}"
  | empty => .badValue "empty duration"
  | malformed shown => .badValue s!"invalid duration: {shown}"
  | strangeDigits shown => .badValue s!"invalid literal for int() with base 10: {shown}"
  | notANumber => .badValue "cannot convert float NaN to integer"
  | tooLong => .outOfRange
  | notText => .notText
  | wrongKind => .wrongKind

/-- The error of a number of seconds. -/
def DurationError.ofRange : Duration.RangeError → DurationError
  | .tooLong => .tooLong
  | .notANumber => .notANumber

/-- A part of a chain: the digits before and after the point, and the unit. -/
structure DurationPart where
  whole : List Char
  fraction : List Char
  unit : DurationUnit
deriving DecidableEq, Repr

/-- The unit at the beginning of a text.  Of two units the longer one is meant. -/
def takeUnit : List Char → Option (DurationUnit × List Char)
  | 'm' :: 's' :: cs => some (.millisecond, cs)
  | 's' :: cs => some (.second, cs)
  | 'm' :: cs => some (.minute, cs)
  | 'h' :: cs => some (.hour, cs)
  | 'd' :: cs => some (.day, cs)
  | _ => none

/-- The digits behind a point, if there are some. -/
def takeFraction (cs : List Char) : List Char × List Char :=
  match cs with
  | '.' :: rest =>
    match rest.span Text.isDecimal with
    | ([], _) => ([], cs)
    | r => r
  | _ => ([], cs)

/-- The part at the beginning of a text. -/
def takePart (cs : List Char) : Option (DurationPart × List Char) :=
  match cs.span Text.isDecimal with
  | ([], _) => none
  | (whole, rest) =>
    let (fraction, rest) := takeFraction rest
    (takeUnit rest).map fun r => (⟨whole, fraction, r.1⟩, r.2)

/-- The parts of a whole text. -/
def partsFrom : Nat → List Char → Option (List DurationPart)
  | 0, _ => none
  | fuel + 1, cs =>
    if cs.isEmpty then some []
    else do
      let (part, rest) ← takePart cs
      let parts ← partsFrom fuel rest
      return part :: parts

/-- The parts of a chain that fills the whole text. -/
def durationParts (cs : List Char) : Option (List DurationPart) := partsFrom (cs.length + 1) cs

/-- The number that the digits of a part write. -/
def DurationPart.number (p : DurationPart) : Float :=
  Decimal.ofDecimal false ((Text.decimalValue? (p.whole ++ p.fraction)).getD 0) (-p.fraction.length)

/-- The seconds of a chain, added from left to right. -/
def chainSeconds (parts : List DurationPart) : Float :=
  parts.foldl (fun sum p => sum + p.number * p.unit.seconds) 0.0

/-- The duration that a text writes. -/
def durationOfText (s : String) : Except DurationError Duration :=
  let cs := Text.trimOf Text.isBlank s.toList
  if cs.isEmpty then .error .empty
  else if cs.all Text.isDigit then
    match Text.decimalValue? cs with
    | some n => (Duration.ofSeconds n).mapError .ofRange
    | none => .error (.strangeDigits (Text.quoted (String.ofList cs)))
  else match durationParts cs with
    | some parts => (Duration.ofFloat (chainSeconds parts)).mapError .ofRange
    | none => .error (.malformed (Text.quoted s))

/-- Blanks among bytes: spaces, tabs and line breaks. -/
def isByteBlank (c : Char) : Bool := c == ' ' || ('\t' ≤ c && c ≤ '\r')

/-- The duration that bytes write.  Of them only digits are read. -/
def durationOfBytes (bs : List UInt8) : Except DurationError Duration :=
  let cs := Text.trimOf isByteBlank (bs.map fun b => Char.ofNat b.toNat)
  if cs.isEmpty then .error .empty
  else match Text.decimalValue? cs with
    | some n => (Duration.ofSeconds n).mapError .ofRange
    | none => .error .wrongKind

/-- The duration that a value stands for: numbers are seconds, and a truth value counts as one. -/
def durationOf : Value → Except DurationError Duration
  | .bool b => (Duration.ofSeconds (if b then 1 else 0)).mapError .ofRange
  | .int n =>
    if n < 0 then .error (.negative (toString n))
    else (Duration.ofSeconds n.toNat).mapError .ofRange
  | .float x =>
    if x < 0.0 then .error (.negative (floatText x))
    else (Duration.ofFloat x).mapError .ofRange
  | .text s => durationOfText s
  | .scalar (.bytes bs) => durationOfBytes bs
  | _ => .error .notText

end ApiShell.Time
