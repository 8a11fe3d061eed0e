import ApiShell.Display

/-!
# Writing JSON

One writer for all JSON texts of the library: on one line or indented, with or without characters
beyond ASCII.  Values that JSON does not know are refused or shown as text, as the style says.
-/

namespace ApiShell.Json

/-- How a JSON text is laid out. -/
structure Style where
  /-- Every character beyond ASCII is written by its code. -/
  asciiOnly : Bool
  /-- What stands between two items of a line. -/
  comma : String
  /-- What stands between a key and its value. -/
  colon : String
  /-- The number of spaces by which a nested line is indented; without it all is one line. -/
  indent : Option Nat
  /-- Values that JSON does not know are shown as text instead of refused. -/
  showsOthers : Bool
  /-- Infinities and values that are no number are written instead of refused. -/
  allowsSpecial : Bool

/-- One line of ASCII characters. -/
def asciiLine : Style := ⟨true, ", ", ": ", none, false, true⟩

/-- One line; unknown values are shown as text. -/
def displayLine : Style := ⟨false, ", ", ": ", none, true, true⟩

/-- Two spaces of indentation; unknown values are shown as text. -/
def pretty : Style := ⟨false, ",", ": ", some 2, true, true⟩

/-- The shortest form that is JSON in the strict sense. -/
def compact : Style := ⟨false, ",", ":", none, false, false⟩

/-- Why a value has no JSON text. -/
inductive Unwritable where
  /-- A mapping has a key that is no text, number, truth value or null. -/
  | key
  /-- A value is of a kind that JSON does not know. -/
  | kind
  /-- A number is infinite or no number. -/
  | special
deriving DecidableEq, Repr

/-- The layout of numbers: that of displayed numbers but for the names of the special values. -/
def numberLayout : Decimal.Layout := ⟨-3, 16, false, "NaN", "Infinity", "-Infinity"⟩

/-- A code of four hexadecimal digits. -/
def unicodeCode (n : Nat) : List Char := '\\' :: 'u' :: Text.hexPadded 4 n

/-- A character of a string. -/
def stringChar (asciiOnly : Bool) (c : Char) : List Char :=
  if c == '"' then ['\\', '"']
  else if c == '\\' then ['\\', '\\']
  else if c == '\n' then ['\\', 'n']
  else if c == '\r' then ['\\', 'r']
  else if c == '\t' then ['\\', 't']
  else if c == '\x0c' then ['\\', 'f']
  else if c == '\x08' then ['\\', 'b']
  else if c.toNat < 32 || (asciiOnly && c.toNat == 127) then unicodeCode c.toNat
  else if asciiOnly && c.toNat > 127 then
    if c.toNat < 0x10000 then unicodeCode c.toNat
    else
      let n := c.toNat - 0x10000
      unicodeCode (0xD800 + n / 0x400) ++ unicodeCode (0xDC00 + n % 0x400)
  else [c]

/-- A string between quotes. -/
def stringText (asciiOnly : Bool) (cs : List Char) : List Char :=
  '"' :: cs.flatMap (stringChar asciiOnly) ++ ['"']

namespace Style

/-- A floating-point number. -/
def number (style : Style) (x : Float) : Except Unwritable (List Char) :=
  if style.allowsSpecial || (Decimal.dyadic? x).isSome then .ok (numberLayout.write x)
  else .error .special

/-- The text of a scalar as a key. -/
def keyText (style : Style) : Scalar → Except Unwritable (List Char)
  | .null => .ok "null".toList
  | .bool b => .ok (if b then "true" else "false").toList
  | .int n => .ok (toString n).toList
  | .float x => style.number x
  | .text s => .ok s.toList
  | _ => .error .key

/-- A value of a kind that JSON does not know. -/
def other (style : Style) (v : Value) : Except Unwritable (List Char) :=
  if style.showsOthers then .ok (stringText style.asciiOnly v.display.toList) else .error .kind

/-- A scalar. -/
def scalar (style : Style) : Scalar → Except Unwritable (List Char)
  | .null => .ok "null".toList
  | .bool b => .ok (if b then "true" else "false").toList
  | .int n => .ok (toString n).toList
  | .float x => style.number x
  | .text s => .ok (stringText style.asciiOnly s.toList)
  | s => style.other (.scalar s)

/-- The beginning of a nested line. -/
def newLine (style : Style) (depth : Nat) : List Char :=
  match style.indent with
  | none => []
  | some n => '\n' :: List.replicate (n * depth) ' '

/-- The parts of a list or mapping between its brackets. -/
def enclose (style : Style) (depth : Nat) (opening closing : Char) (parts : List (List Char)) :
    List Char :=
  if parts.isEmpty then [opening, closing]
  else
    let inner := Text.joinWith (style.comma.toList ++ style.newLine (depth + 1)) parts
    opening :: style.newLine (depth + 1) ++ inner ++ style.newLine depth ++ [closing]

mutual

/-- A value that stands `depth` levels deep. -/
def value (style : Style) (depth : Nat) : Value → Except Unwritable (List Char)
  | .scalar s => style.scalar s
  | .set ms => style.other (.set ms)
  | .pair a b => do
    let a ← value style (depth + 1) a
    let b ← value style (depth + 1) b
    return style.enclose depth '[' ']' [a, b]
  | .list items => do
    let parts ← values style (depth + 1) items
    return style.enclose depth '[' ']' parts
  | .mapping fields => do
    let parts ← members style (depth + 1) fields
    return style.enclose depth '{' '}' parts

/-- The items of a list. -/
def values (style : Style) (depth : Nat) : List Value → Except Unwritable (List (List Char))
  | [] => .ok []
  | v :: vs => do
    let part ← value style depth v
    let parts ← values style depth vs
    return part :: parts

/-- The fields of a mapping. -/
def members (style : Style) (depth : Nat) :
    List (Scalar × Value) → Except Unwritable (List (List Char))
  | [] => .ok []
  | (k, v) :: fs => do
    let key ← style.keyText k
    let part ← value style depth v
    let parts ← members style depth fs
    return (stringText style.asciiOnly key ++ style.colon.toList ++ part) :: parts

end

/-- The JSON text of a value. -/
def write (style : Style) (v : Value) : Except Unwritable String :=
  (value style 0 v).map String.ofList

end Style

end ApiShell.Json
