import ApiShell.Text.Lower
import ApiShell.Text.Utf8

/-!
# Character sets

The sets of characters that a text may be sent in, their names, and reading bytes in them.  Bytes that
stand for no character are read as replacement characters.
-/

namespace ApiShell.Text

/-- A set of characters and the way it is written in bytes. -/
inductive Charset where
  | utf8
  /-- UTF-8 that may begin with a byte order mark, which is no part of the text. -/
  | markedUtf8
  | ascii
  | latin1
  /-- Latin-1 with letters and marks in the place of the upper control characters. -/
  | windowsLatin1
deriving DecidableEq, Repr

namespace Charset

/-- The names of a set, in lower case and with `_` for every run of other characters than letters,
digits and points. -/
def names : Charset → List String
  | utf8 => ["utf_8", "utf8", "u8", "utf", "cp65001"]
  | markedUtf8 => ["utf_8_sig"]
  | ascii => ["ascii", "us_ascii", "us", "646", "ansi_x3.4_1968", "cp367", "iso646_us", "iso_646.irv_1991"]
  | latin1 => ["latin_1", "latin1", "latin", "l1", "iso_8859_1", "iso8859_1", "iso8859", "8859", "cp819",
      "ibm819", "csisolatin1", "iso_ir_100"]
  | windowsLatin1 => ["cp1252", "windows_1252", "1252"]

/-- All sets. -/
def all : List Charset := [utf8, markedUtf8, ascii, latin1, windowsLatin1]

/-- The character belongs to names of sets. -/
def isNameChar (c : Char) : Bool := c.isAlphanum || c == '.'

/-- A name as `names` spells it; `gap` says that characters between two words have been passed. -/
def plainName (gap : Bool) : List Char → List Char
  | [] => []
  | c :: cs =>
    if isNameChar c then (if gap then ['_', c.toLower] else [c.toLower]) ++ plainName false cs
    else plainName true cs

/-- The set of a name. -/
def ofName? (name : List Char) : Option Charset :=
  let plain := String.ofList (plainName false (name.dropWhile fun c => !isNameChar c))
  all.find? fun set => set.names.contains plain

/-- The characters of the bytes from `0x80` to `0x9F`. -/
def windowsLatin1Middle : List Char :=
  ['€', '\uFFFD', '‚', 'ƒ', '„', '…', '†', '‡', 'ˆ', '‰', 'Š', '‹', 'Œ', '\uFFFD', 'Ž', '\uFFFD',
   '\uFFFD', '‘', '’', '“', '”', '•', '–', '—', '˜', '™', 'š', '›', 'œ', '\uFFFD', 'ž', 'Ÿ']

/-- The text that bytes write. -/
def read (set : Charset) (bs : List UInt8) : List Char :=
  match set with
  | utf8 => ofUtf8Lenient bs
  | markedUtf8 => ofUtf8Lenient (if bs.take 3 == [0xEF, 0xBB, 0xBF] then bs.drop 3 else bs)
  | ascii => bs.map fun b => if b < 0x80 then Char.ofNat b.toNat else '\uFFFD'
  | latin1 => bs.map fun b => Char.ofNat b.toNat
  | windowsLatin1 => bs.map fun b =>
      if 0x80 ≤ b && b < 0xA0 then windowsLatin1Middle.getD (b.toNat - 0x80) '\uFFFD'
      else Char.ofNat b.toNat

end Charset

end ApiShell.Text
