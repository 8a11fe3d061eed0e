import ApiShell.Json.Reader
import ApiShell.Text.Utf8

/-!
# Percent encoding

A character that may not stand in a part of an address is written byte by byte, each byte as a percent
sign and two hexadecimal digits.
-/

namespace ApiShell.Percent

/-- An upper-case hexadecimal digit. -/
def hexDigit (n : Nat) : Char := if n < 10 then Char.ofNat (48 + n) else Char.ofNat (55 + n)

/-- A byte as a percent sign and two digits. -/
def escapeByte (b : UInt8) : List Char := ['%', hexDigit (b.toNat / 16), hexDigit (b.toNat % 16)]

/-- All bytes of a text escaped. -/
def escape (cs : List Char) : List Char := (Text.utf8 cs).flatMap escapeByte

/-- Letters, digits and the marks that may stand everywhere. -/
def isUnreserved (c : Char) : Bool := c.isAlphanum || ['-', '.', '_', '~'].contains c

/-- A text with every character escaped that is neither unreserved nor `safe`. -/
def encode (safe : Char → Bool) (cs : List Char) : List Char :=
  cs.flatMap fun c => if isUnreserved c || safe c then [c] else escape [c]

/-- A text with every reserved character escaped. -/
def encodeAll (cs : List Char) : List Char := encode (fun _ => false) cs

/-- A part of a form: as `encodeAll`, but a space is a plus sign. -/
def encodeForm (cs : List Char) : List Char :=
  cs.flatMap fun c => if c = ' ' then ['+'] else encodeAll [c]

/-- As `encode`, but a percent sign with two digits behind it stays as it is. -/
def encodeOnce (safe : Char → Bool) : List Char → List Char
  | '%' :: a :: b :: cs =>
    if (Json.hexValue? a).isSome && (Json.hexValue? b).isSome then
      '%' :: a :: b :: encodeOnce safe cs
    else encode safe ['%'] ++ encodeOnce safe (a :: b :: cs)
  | c :: cs => encode safe [c] ++ encodeOnce safe cs
  | [] => []

/-- The bytes that an encoded text stands for; a percent sign without two digits stands for itself. -/
def decode : List Char → List UInt8
  | '%' :: a :: b :: cs =>
    match Json.hexValue? a, Json.hexValue? b with
    | some x, some y => UInt8.ofNat (16 * x + y) :: decode cs
    | _, _ => Text.utf8 ['%'] ++ decode (a :: b :: cs)
  | c :: cs => Text.utf8 [c] ++ decode cs
  | [] => []

end ApiShell.Percent
