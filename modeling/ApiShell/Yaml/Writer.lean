import ApiShell.Display
import ApiShell.Text.Lower
import ApiShell.Yaml.Implicit

/-!
# Writing YAML

Values in block style: one line for every scalar of a list or mapping, two spaces of indentation.  A
text is written plain where that reads back as a text, else in single quotes, and in double quotes where
it has characters that need a code.  Long scalars are folded at their spaces.
-/

namespace ApiShell.Yaml

/-- The column behind which scalars are folded. -/
def foldColumn : Nat := 80

/-- The line breaks. -/
def isBreakChar (c : Char) : Bool := ['\n', '\x85', '\u2028', '\u2029'].contains c

/-- Characters that end an indicator. -/
def endsIndicator (c : Char) : Bool := isBreakChar c || ['\x00', ' ', '\t', '\r'].contains c

/-- The next character ends an indicator, or there is none. -/
def endsAhead (cs : List Char) : Bool := cs.head?.all endsIndicator

/-- Characters that stand for themselves in some style; the others need a code. -/
def isWritable (allowsUnicode : Bool) (c : Char) : Bool :=
  let n := c.toNat
  if c == '\n' || (0x20 ≤ n && n ≤ 0x7E) then true
  else allowsUnicode && (n == 0x85 || (0xA0 ≤ n && n ≤ 0xD7FF) || (0xE000 ≤ n && n ≤ 0xFFFD) ||
    (0x10000 ≤ n && n < 0x10FFFF)) && n != 0xFEFF

/-- Some two neighbours of a text pass a test. -/
def anyNeighbours (p : Char → Char → Bool) : List Char → Bool
  | a :: b :: cs => p a b || anyNeighbours p (b :: cs)
  | _ => false

/-- The text has an indicator behind its first character. -/
def hasInnerIndicator : List Char → Bool
  | a :: b :: cs =>
    (b == ':' && endsAhead cs) || (b == '#' && endsIndicator a) || hasInnerIndicator (b :: cs)
  | _ => false

/-- The text has an indicator, so that it would be read as something else than a plain scalar. -/
def hasIndicator (cs : List Char) : Bool :=
  let dots := cs.take 3 == ['-', '-', '-'] || cs.take 3 == ['.', '.', '.']
  let first := match cs with
    | c :: rest =>
      ['#', ',', '[', ']', '{', '}', '&', '*', '!', '|', '>', '\'', '"', '%', '@', '\x60'].contains c
        || (['?', ':', '-'].contains c && endsAhead rest)
    | [] => false
  dots || first || hasInnerIndicator cs

/-- The text goes over several lines. -/
def isMultiline (cs : List Char) : Bool := cs.any isBreakChar

/-- The text can stand in single quotes. -/
def allowsSingleQuotes (allowsUnicode : Bool) (cs : List Char) : Bool :=
  cs.all (isWritable allowsUnicode) &&
    !anyNeighbours (fun a b => (isBreakChar a && b == ' ') || (a == ' ' && isBreakChar b)) cs

/-- The text can stand without quotes. -/
def allowsPlain (allowsUnicode : Bool) (cs : List Char) : Bool :=
  allowsSingleQuotes allowsUnicode cs && !isMultiline cs && !hasIndicator cs &&
    cs.head? != some ' ' && cs.getLast? != some ' '

/-- The styles of scalars. -/
inductive ScalarStyle where
  | plain
  | singleQuoted
  | doubleQuoted
deriving DecidableEq, Repr

/-- The style of a text; `isKey` says that it has to stand on one line before a colon. -/
def textStyle (allowsUnicode isKey : Bool) (s : String) : ScalarStyle :=
  let cs := s.toList
  if implicitTag s == standardTag "str" && allowsPlain allowsUnicode cs &&
      !(isKey && cs.isEmpty) then .plain
  else if allowsSingleQuotes allowsUnicode cs && !(isKey && isMultiline cs) then .singleQuoted
  else .doubleQuoted

/-- The text being written. -/
structure Pen where
  column : Nat := 0
  /-- The last character was a blank or an indicator that needs none behind it. -/
  blank : Bool := true
  /-- Nothing but indentation and indicators stands on the line. -/
  fresh : Bool := true
  /-- The document ends with a plain scalar. -/
  openEnded : Bool := false
  /-- What has been written, the last character first. -/
  written : List Char := []

namespace Pen

/-- Write characters of the current line. -/
def put (p : Pen) (cs : List Char) : Pen :=
  { p with column := p.column + cs.length, written := cs.reverse ++ p.written }

/-- Begin a new line. -/
def lineBreak (p : Pen) (c : Char) : Pen :=
  { p with column := 0, blank := true, fresh := true, written := c :: p.written }

/-- Go to a column, on a new line unless nothing stands at or behind that column. -/
def indentTo (p : Pen) (n : Nat) : Pen :=
  let p := if !p.fresh || p.column > n || (p.column == n && !p.blank) then p.lineBreak '\n' else p
  if p.column < n then { p.put (List.replicate (n - p.column) ' ') with blank := true } else p

/-- Write an indicator, with a blank before it where one is needed. -/
def indicator (p : Pen) (c : Char) (needsBlank blankAfter keepsFresh : Bool) : Pen :=
  let p' := p.put (if p.blank || !needsBlank then [c] else [' ', c])
  { p' with blank := blankAfter, fresh := p.fresh && keepsFresh, openEnded := false }

/-- Write the runs of a plain scalar. -/
def plainRuns (split : Bool) (indent : Nat) : Pen → List (List Char) → Pen
  | p, [] => p
  | p, run :: runs =>
    if run == [' '] && p.column > foldColumn && split then
      plainRuns split indent { p.indentTo indent with blank := false, fresh := false } runs
    else plainRuns split indent (p.put run) runs

/-- Write the runs of a scalar in single quotes; `inner` says that a run came before. -/
def quotedRuns (split : Bool) (indent : Nat) (inner : Bool) : Pen → List (List Char) → Pen
  | p, [] => p
  | p, run :: runs =>
    if run == [' '] && p.column > foldColumn && split && inner && !runs.isEmpty then
      quotedRuns split indent true (p.indentTo indent) runs
    else match run with
      | c :: _ =>
        if isBreakChar c then
          let p := if c == '\n' then p.lineBreak '\n' else p
          let p := (run.foldl Pen.lineBreak p).indentTo indent
          quotedRuns split indent true p runs
        else
          let doubled := run.flatMap fun c => if c == '\'' then ['\'', '\''] else [c]
          quotedRuns split indent true (p.put doubled) runs
      | [] => quotedRuns split indent inner p runs

end Pen

/-- What the runs of a scalar are made of. -/
def runClass (c : Char) : Nat := if c == ' ' then 0 else if isBreakChar c then 1 else 2

/-- Cut a text into maximal runs of spaces, of line breaks and of other characters. -/
def scalarRuns : List Char → List (List Char)
  | [] => []
  | c :: cs =>
    match scalarRuns cs with
    | (d :: run) :: runs =>
      if runClass c == runClass d then (c :: d :: run) :: runs else [c] :: (d :: run) :: runs
    | runs => [c] :: runs

/-- The letter that names a character in double quotes. -/
def escapeLetter? (c : Char) : Option Char :=
  ([('\x00', '0'), ('\x07', 'a'), ('\x08', 'b'), ('\t', 't'), ('\n', 'n'), ('\x0b', 'v'),
    ('\x0c', 'f'), ('\r', 'r'), ('\x1b', 'e'), ('"', '"'), ('\\', '\\'), ('\x85', 'N'), ('\xa0', '_'),
    ('\u2028', 'L'), ('\u2029', 'P')].find? (·.1 == c)).map Prod.snd

/-- Upper-case hexadecimal digits, filled up with zeros. -/
def upperHex (width n : Nat) : List Char := (Text.hexPadded width n).map Char.toUpper

/-- The code of a character in double quotes. -/
def escapeCode (c : Char) : List Char :=
  match escapeLetter? c with
  | some letter => ['\\', letter]
  | none =>
    if c.toNat ≤ 0xFF then '\\' :: 'x' :: upperHex 2 c.toNat
    else if c.toNat ≤ 0xFFFF then '\\' :: 'u' :: upperHex 4 c.toNat
    else '\\' :: 'U' :: upperHex 8 c.toNat

/-- Characters that stand for themselves in double quotes. -/
def standsInDoubleQuotes (allowsUnicode : Bool) (c : Char) : Bool :=
  let n := c.toNat
  !(['"', '\\', '\x85', '\u2028', '\u2029', '\uFEFF'].contains c) &&
    ((0x20 ≤ n && n ≤ 0x7E) ||
      (allowsUnicode && ((0xA0 ≤ n && n ≤ 0xD7FF) || (0xE000 ≤ n && n ≤ 0xFFFD))))

/-- Fold a scalar in double quotes; the space that the next line would begin with is escaped. -/
def Pen.foldQuoted (p : Pen) (indent : Nat) (next : Option Char) : Pen :=
  let p := { (p.put ['\\']).indentTo indent with blank := false, fresh := false }
  if next == some ' ' then p.put ['\\'] else p

/-- Write the characters of a scalar in double quotes.  `inner` says that one came before, `coded` that
it was written as a code. -/
def doubleQuotedChars (allowsUnicode split : Bool) (indent : Nat) (inner coded : Bool) :
    Pen → List Char → Pen
  | p, [] => p
  | p, c :: cs =>
    let mayFold := inner && !cs.isEmpty && split
    if standsInDoubleQuotes allowsUnicode c then
      let p := if mayFold && (c == ' ' || coded) && p.column > foldColumn then
        p.foldQuoted indent (some c) else p
      doubleQuotedChars allowsUnicode split indent true false (p.put [c]) cs
    else
      let p := p.put (escapeCode c)
      let p := if mayFold && p.column > foldColumn + 1 then p.foldQuoted indent cs.head? else p
      doubleQuotedChars allowsUnicode split indent true true p cs

/-- Write a plain scalar. -/
def Pen.plain (p : Pen) (split isRoot : Bool) (indent : Nat) (cs : List Char) : Pen :=
  let p := { p with openEnded := p.openEnded || isRoot }
  if cs.isEmpty then p
  else
    let p := if p.blank then p else p.put [' ']
    Pen.plainRuns split indent { p with blank := false, fresh := false } (scalarRuns cs)

/-- Write a text. -/
def Pen.text (p : Pen) (allowsUnicode isKey isRoot : Bool) (indent : Nat) (s : String) : Pen :=
  match textStyle allowsUnicode isKey s with
  | .plain => p.plain (!isKey) isRoot indent s.toList
  | .singleQuoted =>
    let p := p.indicator '\'' true false false
    (Pen.quotedRuns (!isKey) indent false p (scalarRuns s.toList)).indicator '\'' false false false
  | .doubleQuoted =>
    let p := p.indicator '"' true false false
    (doubleQuotedChars allowsUnicode (!isKey) indent false false p s.toList).indicator
      '"' false false false

/-- The spelling of a floating-point number: an exponent needs a point before it. -/
def floatSpelling (x : Float) : String :=
  let cs := Decimal.Layout.write ⟨-3, 16, false, ".nan", ".inf", "-.inf"⟩ x
  if cs.contains '.' then String.ofList cs
  else String.ofList (cs.flatMap fun c => if c == 'e' then ['.', '0', 'e'] else [c])

/-- The spelling of a scalar that is no text, and the length of its tag. -/
def scalarSpelling : Scalar → String × Nat
  | .null => ("null", 6)
  | .bool b => (if b then "true" else "false", 6)
  | .int n => (toString n, 5)
  | .float x => (floatSpelling x, 7)
  | s => (s.display, 11)

/-- Write a scalar. -/
def Pen.scalar (p : Pen) (allowsUnicode isKey isRoot : Bool) (indent : Nat) : Scalar → Pen
  | .text s => p.text allowsUnicode isKey isRoot indent s
  | s => p.plain (!isKey) isRoot indent (scalarSpelling s).1.toList

/-- The greatest length of a key before a colon, its tag included. -/
def simpleKeyLength : Nat := 127

/-- The scalar can stand before a colon. -/
def isSimpleKey : Scalar → Bool
  | .text s => s ≠ "" && !isMultiline s.toList && s.length + 5 ≤ simpleKeyLength
  | s => (scalarSpelling s).1.length + (scalarSpelling s).2 ≤ simpleKeyLength

/-- The indentation of a part: two more than that of the whole. -/
def deeper : Option Nat → Nat
  | none => 0
  | some n => n + 2

/-- The indentation of the further lines of a scalar. -/
def scalarIndent (indent : Option Nat) : Nat := indent.getD 0 + 2

mutual

/-- Write a value inside a part that is indented by `indent`.  `inField` says that the value belongs to
a key: then a list is not indented further where its first item begins a new line. -/
def Pen.value (allowsUnicode : Bool) (indent : Option Nat) (inField : Bool) (p : Pen) : Value → Pen
  | .scalar s => p.scalar allowsUnicode false indent.isNone (scalarIndent indent) s
  | .set ms => p.scalar allowsUnicode false indent.isNone (scalarIndent indent)
      (.text (Value.set ms).literal)
  | .pair a b =>
    let depth := if inField && !p.fresh then indent.getD 0 else deeper indent
    let p := Pen.value allowsUnicode (some depth) false ((p.indentTo depth).indicator '-' true false true) a
    Pen.value allowsUnicode (some depth) false ((p.indentTo depth).indicator '-' true false true) b
  | .list items =>
    if items.isEmpty then (p.indicator '[' true true false).indicator ']' false false false
    else Pen.items allowsUnicode (if inField && !p.fresh then indent.getD 0 else deeper indent) p items
  | .mapping fields =>
    if fields.isEmpty then (p.indicator '{' true true false).indicator '}' false false false
    else Pen.fields allowsUnicode (deeper indent) p fields

/-- Write the items of a list. -/
def Pen.items (allowsUnicode : Bool) (depth : Nat) (p : Pen) : List Value → Pen
  | [] => p
  | v :: vs =>
    let p := (p.indentTo depth).indicator '-' true false true
    Pen.items allowsUnicode depth (Pen.value allowsUnicode (some depth) false p v) vs

/-- Write the fields of a mapping. -/
def Pen.fields (allowsUnicode : Bool) (depth : Nat) (p : Pen) : List (Scalar × Value) → Pen
  | [] => p
  | (k, v) :: fs =>
    let p := p.indentTo depth
    let p := if isSimpleKey k then
        (p.scalar allowsUnicode true false (depth + 2) k).indicator ':' false false false
      else
        let p := (p.indicator '?' true false true).scalar allowsUnicode false false (depth + 2) k
        (p.indentTo depth).indicator ':' true false true
    Pen.fields allowsUnicode depth (Pen.value allowsUnicode (some depth) true p v) fs

end

/-- The YAML text of a value. -/
def write (allowsUnicode : Bool) (v : Value) : String :=
  let p := Pen.value allowsUnicode none false {} v
  let isOpen := p.openEnded
  let p := p.indentTo 0
  let p := if isOpen then ((p.put ['.', '.', '.']).lineBreak '\n') else p
  String.ofList p.written.reverse

end ApiShell.Yaml
