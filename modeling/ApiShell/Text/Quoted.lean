import ApiShell.Text.Printable

/-!
# Quoted literals

A text between quotes in which nothing invisible is left: single quotes unless the text holds single
and no double quotes, a backslash before the quote and before a backslash, and a code for every
character that is not printable.
-/

namespace ApiShell.Text

/-- The lower-case hexadecimal digit of a number below sixteen. -/
def hexDigit (n : Nat) : Char := Nat.digitChar n

/-- Hexadecimal digits of a number, filled up with zeros to a width. -/
def hexPadded : Nat → Nat → List Char
  | 0, _ => []
  | width + 1, n => hexPadded width (n / 16) ++ [hexDigit (n % 16)]

/-- The quote that needs the fewest backslashes. -/
def quoteFor (cs : List Char) : Char :=
  if cs.contains '\'' && !cs.contains '"' then '"' else '\''

/-- A character between quotes. -/
def quotedChar (quote c : Char) : List Char :=
  if c == quote || c == '\\' then ['\\', c]
  else if c == '\n' then ['\\', 'n']
  else if c == '\r' then ['\\', 'r']
  else if c == '\t' then ['\\', 't']
  else if isPrintable c then [c]
  else if c.toNat < 0x100 then '\\' :: 'x' :: hexPadded 2 c.toNat
  else if c.toNat < 0x10000 then '\\' :: 'u' :: hexPadded 4 c.toNat
  else '\\' :: 'U' :: hexPadded 8 c.toNat

/-- The quoted literal of a text. -/
def quotedChars (cs : List Char) : List Char :=
  let quote := quoteFor cs
  quote :: cs.flatMap (quotedChar quote) ++ [quote]

/-- The quoted literal of a text. -/
def quoted (s : String) : String := String.ofList (quotedChars s.toList)

/-- The quoted literal of a list of bytes, marked by a letter; bytes beyond ASCII are shown by code. -/
def quotedBytes (bs : List UInt8) : String :=
  let cs := bs.map fun b => Char.ofNat b.toNat
  let quote := quoteFor cs
  let inner := cs.flatMap fun c =>
    if c.toNat < 128 then quotedChar quote c else '\\' :: 'x' :: hexPadded 2 c.toNat
  String.ofList ('b' :: quote :: inner ++ [quote])

end ApiShell.Text
