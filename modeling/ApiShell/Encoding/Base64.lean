/-!
# Base 64

Three bytes are written as four characters of an alphabet of 64; equals signs fill up the last four.
The reader skips characters outside the alphabet.
-/

namespace ApiShell.Base64

/-- The 64 characters. -/
def alphabet : List Char :=
  "ABCDEFGHIJKLMNOPQRSTUVWXYZabcdefghijklmnopqrstuvwxyz0123456789+/".toList

/-- The character of a number below 64. -/
def char (n : Nat) : Char := alphabet.getD n '='

/-- The number of a character of the alphabet. -/
def value? (c : Char) : Option Nat := alphabet.idxOf? c

/-- The characters of a list of bytes. -/
def encode : List UInt8 → List Char
  | a :: b :: c :: rest =>
    let n := a.toNat * 65536 + b.toNat * 256 + c.toNat
    char (n / 262144) :: char (n / 4096 % 64) :: char (n / 64 % 64) :: char (n % 64) :: encode rest
  | [a, b] =>
    let n := a.toNat * 65536 + b.toNat * 256
    [char (n / 262144), char (n / 4096 % 64), char (n / 64 % 64), '=']
  | [a] =>
    let n := a.toNat * 65536
    [char (n / 262144), char (n / 4096 % 64), '=', '=']
  | [] => []

/-- Read characters: `bits` holds the value of the last `count` characters that made no whole byte, and
`pads` the equals signs since then. -/
def decodeFrom (bits count pads : Nat) : List Char → Option (List UInt8)
  | [] => if count = 0 then some [] else none
  | c :: cs =>
    if c = '=' then
      if count ≥ 2 && count + pads + 1 ≥ 4 then some [] else decodeFrom bits count (pads + 1) cs
    else match value? c with
      | none => decodeFrom bits count pads cs
      | some v =>
        match count with
        | 0 => decodeFrom v 1 0 cs
        | 1 => (decodeFrom (v % 16) 2 0 cs).map (UInt8.ofNat (bits * 4 + v / 16) :: ·)
        | 2 => (decodeFrom (v % 4) 3 0 cs).map (UInt8.ofNat (bits * 16 + v / 4) :: ·)
        | _ => (decodeFrom 0 0 0 cs).map (UInt8.ofNat (bits * 64 + v) :: ·)

/-- The bytes of a text; nothing if the text ends inside a group of four. -/
def decode? (cs : List Char) : Option (List UInt8) := decodeFrom 0 0 0 cs

end ApiShell.Base64
