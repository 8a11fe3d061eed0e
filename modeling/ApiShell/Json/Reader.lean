import ApiShell.Text.Split
import ApiShell.Value

/-!
# Reading JSON

A reader for JSON texts that also accepts the three floating-point values `NaN`, `Infinity` and
`-Infinity`, and integers of any size.  Of repeated keys the last value counts.  The reader works on
the rest of the text, so a failure is known by its problem and the number of characters from its
place to the end of the text.
-/

namespace ApiShell.Json

/-- What can be wrong with a JSON text. -/
inductive Problem where
  | value
  | propertyName
  | colon
  | comma
  | openString
  | controlCharacter
  | escape
  | unicodeEscape
  | extraData
  | byteOrderMark
deriving DecidableEq, Repr

/-- The wording of a problem. -/
def Problem.message : Problem → String
  | value => "Expecting value"
  | propertyName => "Expecting property name enclosed in double quotes"
  | colon => "Expecting ':' delimiter"
  | comma => "Expecting ',' delimiter"
  | openString => "Unterminated string starting at"
  | controlCharacter => "Invalid control character at"
  | escape => "Invalid \\escape"
  | unicodeEscape => "Invalid \\uXXXX escape"
  | extraData => "Extra data"
  | byteOrderMark => "Unexpected UTF-8 BOM (decode using utf-8-sig)"

/-- A problem and the number of characters from its place to the end of the text. -/
structure Failure where
  problem : Problem
  rest : Nat
deriving DecidableEq, Repr

/-- What was read and the rest of the text. -/
abbrev Rest (α : Type) := α × List Char

/-- The characters allowed between tokens. -/
def isSpace (c : Char) : Bool := c == ' ' || c == '\t' || c == '\n' || c == '\r'

/-- Drop the space before the next token. -/
def skipSpace (cs : List Char) : List Char := cs.dropWhile isSpace

/-- Fail at the beginning of the rest of the text. -/
def failAt {α : Type} (problem : Problem) (cs : List Char) : Except Failure (Rest α) :=
  .error ⟨problem, cs.length⟩

/-- The value of a hexadecimal digit. -/
def hexValue? (c : Char) : Option Nat :=
  if '0' ≤ c && c ≤ '9' then some (c.toNat - '0'.toNat)
  else if 'a' ≤ c && c ≤ 'f' then some (c.toNat - 'a'.toNat + 10)
  else if 'A' ≤ c && c ≤ 'F' then some (c.toNat - 'A'.toNat + 10)
  else none

/-- Four hexadecimal digits that do not end the text. -/
def hex4? : List Char → Option (Nat × List Char)
  | a :: b :: c :: d :: e :: cs => do
    let a ← hexValue? a
    let b ← hexValue? b
    let c ← hexValue? c
    let d ← hexValue? d
    return (((a * 16 + b) * 16 + c) * 16 + d, e :: cs)
  | _ => none

/-- The first half of a character written as two codes. -/
def isHighHalf (n : Nat) : Bool := 0xD800 ≤ n && n < 0xDC00

/-- The second half of a character written as two codes. -/
def isLowHalf (n : Nat) : Bool := 0xDC00 ≤ n && n < 0xE000

/-- The character of a code; a half that stands alone is replaced. -/
def codeChar (n : Nat) : Char := if isHighHalf n || isLowHalf n then '\uFFFD' else Char.ofNat n

/-- The character that follows a backslash and stands for one character. -/
def shortEscape? : Char → Option Char
  | '"' => some '"'
  | '\\' => some '\\'
  | '/' => some '/'
  | 'b' => some '\x08'
  | 'f' => some '\x0c'
  | 'n' => some '\n'
  | 'r' => some '\r'
  | 't' => some '\t'
  | _ => none

/-- The code after a backslash and the letter `u`; `cs` begins behind the letter.  A first half takes
the second half that follows it. -/
def unicodeEscape (cs : List Char) : Except Failure (Rest Char) :=
  match hex4? cs with
  | none => .error ⟨.unicodeEscape, cs.length + 1⟩
  | some (n, rest) =>
    match isHighHalf n, rest with
    | true, '\\' :: 'u' :: after =>
      if after.length < 5 then .ok (codeChar n, rest)
      else match hex4? after with
        | none => .error ⟨.unicodeEscape, after.length + 1⟩
        | some (m, rest') =>
          if isLowHalf m then .ok (Char.ofNat (0x10000 + (n - 0xD800) * 0x400 + (m - 0xDC00)), rest')
          else .ok (codeChar n, rest)
    | _, _ => .ok (codeChar n, rest)

/-- The rest of a string up to its closing quote.  `opening` is the number of characters from the
opening quote to the end of the text. -/
def stringTail (opening : Nat) : Nat → List Char → Except Failure (Rest (List Char))
  | 0, _ => .error ⟨.openString, opening⟩
  | _ + 1, [] => .error ⟨.openString, opening⟩
  | fuel + 1, c :: cs =>
    if c == '"' then .ok ([], cs)
    else if c == '\\' then
      match cs with
      | [] => .error ⟨.openString, opening⟩
      | 'u' :: cs => do
        let (ch, cs) ← unicodeEscape cs
        let (chars, cs) ← stringTail opening fuel cs
        return (ch :: chars, cs)
      | e :: cs =>
        match shortEscape? e with
        | none => .error ⟨.escape, cs.length + 2⟩
        | some ch => do
          let (chars, cs) ← stringTail opening fuel cs
          return (ch :: chars, cs)
    else if c.toNat < 32 then .error ⟨.controlCharacter, cs.length + 1⟩
    else do
      let (chars, cs) ← stringTail opening fuel cs
      return (c :: chars, cs)

/-- A string whose opening quote has just been read. -/
def string (cs : List Char) : Except Failure (Rest String) := do
  let (chars, rest) ← stringTail (cs.length + 1) (cs.length + 1) cs
  return (String.ofList chars, rest)

/-- ASCII decimal digits. -/
def isAsciiDigit (c : Char) : Bool := '0' ≤ c && c ≤ '9'

/-- The number written by ASCII decimal digits. -/
def digitsValue (cs : List Char) : Nat := cs.foldl (fun n c => 10 * n + (c.toNat - '0'.toNat)) 0

/-- The digits before the point: a zero alone or digits that begin with no zero. -/
def wholeDigits? : List Char → Option (List Char × List Char)
  | '0' :: cs => some (['0'], cs)
  | c :: cs => if isAsciiDigit c then some ((c :: cs).span isAsciiDigit) else none
  | [] => none

/-- The digits after a point that is followed by one; otherwise nothing is read. -/
def fractionDigits : List Char → List Char × List Char
  | '.' :: c :: cs => if isAsciiDigit c then (c :: cs).span isAsciiDigit else ([], '.' :: c :: cs)
  | cs => ([], cs)

/-- The exponent after an `e` that is followed by one; otherwise nothing is read. -/
def exponent? (cs : List Char) : Option (Int × List Char) :=
  match cs with
  | e :: cs =>
    if e == 'e' || e == 'E' then
      let (negative, digits) := match cs with
        | '-' :: ds => (true, ds)
        | '+' :: ds => (false, ds)
        | ds => (false, ds)
      match digits.span isAsciiDigit with
      | ([], _) => none
      | (ds, rest) =>
        let n : Int := digitsValue ds
        some (if negative then -n else n, rest)
    else none
  | [] => none

/-- A number: an integer unless it has a fraction or an exponent. -/
def number? (cs : List Char) : Option (Value × List Char) := do
  let (negative, cs) := match cs with
    | '-' :: ds => (true, ds)
    | ds => (false, ds)
  let (whole, cs) ← wholeDigits? cs
  let (fraction, cs) := fractionDigits cs
  let floating (e : Int) : Value :=
    .float (Decimal.ofDecimal negative (digitsValue (whole ++ fraction)) (e - fraction.length))
  match exponent? cs with
  | some (e, cs) => return (floating e, cs)
  | none =>
    if fraction.isEmpty then
      let n : Int := digitsValue whole
      return (.int (if negative then -n else n), cs)
    else return (floating 0, cs)

/-- The words that stand for a value. -/
def wordValues : List (String × Value) :=
  [("null", .null), ("true", .bool true), ("false", .bool false), ("NaN", .float Decimal.notANumber),
   ("Infinity", .float Decimal.infinity), ("-Infinity", .float (-Decimal.infinity))]

/-- A word or number at the beginning of the text. -/
def atom (cs : List Char) : Except Failure (Rest Value) :=
  match wordValues.findSome? fun w => (Text.dropStart? w.1.toList cs).map fun rest => (w.2, rest) with
  | some r => .ok r
  | none =>
    match number? cs with
    | some r => .ok r
    | none => failAt .value cs

mutual

/-- One value at the beginning of the text.  `fuel` bounds the number of nested calls. -/
def value : Nat → List Char → Except Failure (Rest Value)
  | 0, cs => failAt .value cs
  | fuel + 1, cs =>
    match cs with
    | '"' :: cs => do
      let (s, cs) ← string cs
      return (.text s, cs)
    | '{' :: cs =>
      match skipSpace cs with
      | '}' :: cs => .ok (.mapping [], cs)
      | cs => do
        let (fields, cs) ← members fuel cs
        return (.mapping (Value.fieldsOf fields), cs)
    | '[' :: cs =>
      match skipSpace cs with
      | ']' :: cs => .ok (.list [], cs)
      | cs => do
        let (items, cs) ← items fuel cs
        return (.list items, cs)
    | cs => atom cs

/-- The items of a list up to its closing bracket; there is at least one. -/
def items : Nat → List Char → Except Failure (Rest (List Value))
  | 0, cs => failAt .value cs
  | fuel + 1, cs => do
    let (v, cs) ← value fuel cs
    match skipSpace cs with
    | ']' :: cs => return ([v], cs)
    | ',' :: cs =>
      let (vs, cs) ← items fuel (skipSpace cs)
      return (v :: vs, cs)
    | cs => failAt .comma cs

/-- The fields of a mapping up to its closing brace; there is at least one. -/
def members : Nat → List Char → Except Failure (Rest (List (Scalar × Value)))
  | 0, cs => failAt .value cs
  | fuel + 1, cs =>
    match cs with
    | '"' :: cs => do
      let (key, cs) ← string cs
      match skipSpace cs with
      | ':' :: cs =>
        let (v, cs) ← value fuel (skipSpace cs)
        match skipSpace cs with
        | '}' :: cs => return ([(.text key, v)], cs)
        | ',' :: cs =>
          let (fields, cs) ← members fuel (skipSpace cs)
          return ((.text key, v) :: fields, cs)
        | cs => failAt .comma cs
      | cs => failAt .colon cs
    | cs => failAt .propertyName cs

end

/-- A whole text: one value with nothing but space around it. -/
def read (cs : List Char) : Except Failure Value :=
  match cs with
  | '\uFEFF' :: _ => .error ⟨.byteOrderMark, cs.length⟩
  | _ =>
    match value (2 * cs.length + 2) (skipSpace cs) with
    | .error e => .error e
    | .ok (v, rest) =>
      match skipSpace rest with
      | [] => .ok v
      | rest => .error ⟨.extraData, rest.length⟩

/-- The line and column of the place before which `before` stands. -/
def lineAndColumn (before : List Char) : Nat × Nat :=
  (before.count '\n' + 1, (before.reverse.takeWhile (· != '\n')).length + 1)

/-- A failure with its place in the text. -/
def Failure.message (e : Failure) (text : List Char) : String :=
  let position := text.length - e.rest
  let (line, column) := lineAndColumn (text.take position)
  e.problem.message ++ s!": line {line} column {column} (char {position})"

/-- Read a text, or say what is wrong with it and where. -/
def readText (s : String) : Except String Value :=
  match read s.toList with
  | .ok v => .ok v
  | .error e => .error (e.message s.toList)

end ApiShell.Json
