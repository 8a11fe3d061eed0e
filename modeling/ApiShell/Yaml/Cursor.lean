/-!
# A place in a YAML text

The rest of the text with the position it starts at: characters before it, line, and column.  Reading
past the end yields the null character, which no YAML text contains.
-/

namespace ApiShell.Yaml

/-- Line breaks. -/
def isBreak (c : Char) : Bool :=
  c == '\r' || c == '\n' || c == '\u0085' || c == '\u2028' || c == '\u2029'

/-- Line breaks and the end of the text. -/
def isBreakOrEnd (c : Char) : Bool := c == '\x00' || isBreak c

/-- The space, line breaks and the end of the text. -/
def isSpaceOrEnd (c : Char) : Bool := c == ' ' || isBreakOrEnd c

/-- Spaces, tabs, line breaks and the end of the text. -/
def isBlankOrEnd (c : Char) : Bool := c == '\t' || isSpaceOrEnd c

/-- ASCII decimal digits. -/
def isDecimal (c : Char) : Bool := '0' ≤ c && c ≤ '9'

/-- ASCII hexadecimal digits. -/
def isHexadecimal (c : Char) : Bool :=
  isDecimal c || ('a' ≤ c && c ≤ 'f') || ('A' ≤ c && c ≤ 'F')

/-- The characters of anchors, tag handles and directive names. -/
def isNameChar (c : Char) : Bool := c.isAlphanum || c == '-' || c == '_'

/-- A place in a text. -/
structure Cursor where
  rest : List Char
  index : Nat
  line : Nat
  column : Nat

namespace Cursor

/-- The beginning of a text. -/
def start (text : List Char) : Cursor := ⟨text, 0, 0, 0⟩

/-- The character `n` places ahead. -/
def peek (c : Cursor) (n : Nat) : Char := c.rest.getD n '\x00'

/-- The next character. -/
def head (c : Cursor) : Char := c.rest.headD '\x00'

/-- Step over one character.  A line ends with its break; of a carriage return and a line feed the
second one ends it.  A byte order mark has no width. -/
def next (c : Cursor) : Cursor :=
  match c.rest with
  | [] => c
  | ch :: cs =>
    let ends := (isBreak ch && ch != '\r') || (ch == '\r' && cs.head? != some '\n')
    if ends then ⟨cs, c.index + 1, c.line + 1, 0⟩
    else ⟨cs, c.index + 1, c.line, if ch == '\uFEFF' then c.column else c.column + 1⟩

/-- Step over `n` characters. -/
def advance (c : Cursor) : Nat → Cursor
  | 0 => c
  | n + 1 => c.next.advance n

/-- The characters of a class up to the first other one, and the place behind them. -/
def takeWhile (c : Cursor) (p : Char → Bool) : List Char × Cursor :=
  let taken := c.rest.takeWhile p
  (taken, c.advance taken.length)

/-- Step over the characters of a class. -/
def skipWhile (c : Cursor) (p : Char → Bool) : Cursor := (c.takeWhile p).2

/-- A line break, written as a line feed unless it separates lines or paragraphs, and the place behind
it; nothing if there is none. -/
def lineBreak? (c : Cursor) : Option (Char × Cursor) :=
  match c.rest with
  | '\r' :: '\n' :: _ => some ('\n', c.advance 2)
  | ch :: _ =>
    if !isBreak ch then none
    else if ch == '\u2028' || ch == '\u2029' then some (ch, c.next)
    else some ('\n', c.next)
  | [] => none

/-- Three marks that stand alone begin or end a document. -/
def isDocumentMark (c : Cursor) (mark : Char) : Bool :=
  c.peek 0 == mark && c.peek 1 == mark && c.peek 2 == mark && isBlankOrEnd (c.peek 3)

/-- A document begins or ends here, the column aside. -/
def atSeparator (c : Cursor) : Bool := c.isDocumentMark '-' || c.isDocumentMark '.'

end Cursor

end ApiShell.Yaml
