import ApiShell.Time.Calendar
import ApiShell.Yaml.Cursor

/-!
# Types of plain scalars

A plain scalar without a tag gets its type from its spelling: truth values, null, integers in several
bases, floating-point numbers, dates and moments, the merge key `<<` and the default value `=`.  All
other spellings are texts.
-/

namespace ApiShell.Yaml

/-- The standard tag of a name. -/
def standardTag (name : String) : String := "tag:yaml.org,2002:" ++ name

/-- The spellings of truth values. -/
def boolWords : List String :=
  ["yes", "Yes", "YES", "no", "No", "NO", "true", "True", "TRUE", "false", "False", "FALSE",
   "on", "On", "ON", "off", "Off", "OFF"]

/-- The spellings of null. -/
def nullWords : List String := ["~", "null", "Null", "NULL", ""]

/-- Drop a sign. -/
def dropSign : List Char → List Char
  | '+' :: cs => cs
  | '-' :: cs => cs
  | cs => cs

/-- Digits and underscores that begin with a digit of a class. -/
def digitsFrom (first : Char → Bool) : List Char → Option (List Char)
  | c :: cs => if first c then some (cs.dropWhile fun c => isDecimal c || c == '_') else none
  | [] => none

/-- Sixtieths: colons with one digit or two digits up to 59 behind each of them, at least one. -/
def sixtieths : List Char → Option (List Char)
  | ':' :: a :: b :: cs =>
    if '0' ≤ a && a ≤ '5' && isDecimal b then some ((sixtieths cs).getD cs)
    else if isDecimal a then some ((sixtieths (b :: cs)).getD (b :: cs))
    else none
  | ':' :: a :: [] => if isDecimal a then some [] else none
  | _ => none

/-- An integer: binary, octal, decimal, hexadecimal or in base sixty. -/
def isIntSpelling (cs : List Char) : Bool :=
  let cs := dropSign cs
  match cs with
  | '0' :: 'b' :: ds => !ds.isEmpty && ds.all fun c => c == '0' || c == '1' || c == '_'
  | '0' :: 'x' :: ds => !ds.isEmpty && ds.all fun c => isHexadecimal c || c == '_'
  | '0' :: ds => ds.all fun c => ('0' ≤ c && c ≤ '7') || c == '_'
  | _ =>
    match digitsFrom (fun c => '1' ≤ c && c ≤ '9') cs with
    | some [] => true
    | some rest => sixtieths rest == some []
    | none => false

/-- An exponent with a sign, or nothing. -/
def isExponentOrEmpty : List Char → Bool
  | [] => true
  | e :: sign :: ds =>
    (e == 'e' || e == 'E') && (sign == '+' || sign == '-') && !ds.isEmpty && ds.all isDecimal
  | _ => false

/-- Digits and underscores, then perhaps an exponent. -/
def isFractionSpelling (cs : List Char) : Bool :=
  isExponentOrEmpty (cs.dropWhile fun c => isDecimal c || c == '_')

/-- A floating-point number: with a point, perhaps in base sixty, or one of the special values. -/
def isFloatSpelling (cs : List Char) : Bool :=
  let plain := dropSign cs
  let special := [".inf", ".Inf", ".INF"].map String.toList
  let missing := [".nan", ".NaN", ".NAN"].map String.toList
  special.contains plain || missing.contains cs ||
    (match cs with
      | '.' :: c :: rest => isDecimal c && isFractionSpelling rest
      | _ => false) ||
    (match digitsFrom isDecimal plain with
      | some ('.' :: rest) => isFractionSpelling rest
      | some rest => match sixtieths rest with
        | some ('.' :: rest) => rest.all fun c => isDecimal c || c == '_'
        | _ => false
      | none => false)

/-! ### Dates and moments -/

/-- The numbers of a spelled date or moment. -/
structure Timestamp where
  year : Nat
  month : Nat
  day : Nat
  /-- Hour, minute, second and microseconds. -/
  clock : Option (Nat × Nat × Nat × Nat)
  /-- Minutes before or after universal time. -/
  offset : Option Int
  /-- Month and day have two digits each. -/
  full : Bool
deriving DecidableEq, Repr

/-- The value of ASCII digits. -/
def numberOf (cs : List Char) : Nat := cs.foldl (fun n c => 10 * n + (c.toNat - '0'.toNat)) 0

/-- Between `least` and `most` digits, as many as there are. -/
def someDigits (least most : Nat) (cs : List Char) : Option (List Char × List Char) :=
  let ds := (cs.take most).takeWhile isDecimal
  if ds.length < least then none else some (ds, cs.drop ds.length)

/-- A character that must come next. -/
def expect (c : Char) : List Char → Option (List Char)
  | d :: cs => if c = d then some cs else none
  | [] => none

/-- The distance to universal time at the end of a moment, after space that only a distance may
follow. -/
def zone? (cs : List Char) : Option (Option Int) :=
  if cs.isEmpty then some none
  else match cs.dropWhile fun c => c == ' ' || c == '\t' with
    | ['Z'] => some (some 0)
    | sign :: rest =>
      if sign == '+' || sign == '-' then do
        let (hours, rest) ← someDigits 1 2 rest
        let minutes ← match rest with
          | [] => some 0
          | ':' :: rest => match someDigits 2 2 rest with
            | some (m, []) => some (numberOf m)
            | _ => none
          | _ => none
        let total : Int := numberOf hours * 60 + minutes
        return some (if sign == '-' then -total else total)
      else none
    | [] => none

/-- The microseconds that the digits behind a point stand for. -/
def microsOf (fraction : List Char) : Nat :=
  let six := fraction.take 6
  numberOf (six ++ List.replicate (6 - six.length) '0')

/-- The numbers of a spelled date or moment. -/
def timestamp? (cs : List Char) : Option Timestamp := do
  let (year, cs) ← someDigits 4 4 cs
  let cs ← expect '-' cs
  let (month, cs) ← someDigits 1 2 cs
  let cs ← expect '-' cs
  let (day, cs) ← someDigits 1 2 cs
  let full := month.length == 2 && day.length == 2
  let date : Timestamp := ⟨numberOf year, numberOf month, numberOf day, none, none, full⟩
  match cs with
  | [] => return date
  | c :: rest =>
    let rest ←
      if c == 'T' || c == 't' then some rest
      else if c == ' ' || c == '\t' then some (rest.dropWhile fun c => c == ' ' || c == '\t')
      else none
    let (hour, rest) ← someDigits 1 2 rest
    let rest ← expect ':' rest
    let (minute, rest) ← someDigits 2 2 rest
    let rest ← expect ':' rest
    let (second, rest) ← someDigits 2 2 rest
    let (fraction, rest) := match rest with
      | '.' :: rest => rest.span isDecimal
      | rest => ([], rest)
    let offset ← zone? rest
    let clock := (numberOf hour, numberOf minute, numberOf second, microsOf fraction)
    return { date with clock := some clock, offset }

/-- A date has two digits for month and day; a moment may have fewer. -/
def isTimestampSpelling (cs : List Char) : Bool :=
  match timestamp? cs with
  | some t => t.clock.isSome || t.full
  | none => false

/-- The tag of a plain scalar. -/
def implicitTag (text : String) : String :=
  let cs := text.toList
  if boolWords.contains text then standardTag "bool"
  else if isFloatSpelling cs then standardTag "float"
  else if isIntSpelling cs then standardTag "int"
  else if text == "<<" then standardTag "merge"
  else if nullWords.contains text then standardTag "null"
  else if isTimestampSpelling cs then standardTag "timestamp"
  else if text == "=" then standardTag "value"
  else standardTag "str"

end ApiShell.Yaml
