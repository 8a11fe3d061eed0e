import ApiShell.Json.Reader
import ApiShell.Yaml.Cursor

/-!
# Tokens of a YAML text

The first stage of reading: the text becomes a list of tokens, in which indentation is made explicit
by tokens that begin and end block collections.  A colon may turn what stands before it on the line
into a key; such places are remembered as *candidates*, one for each level of brackets, and the tokens
of a key are inserted there when the colon comes.
-/

namespace ApiShell.Yaml

/-- A token. -/
inductive Token where
  | versionDirective (major minor : Nat)
  | tagDirective (handle prefixText : String)
  | otherDirective
  | documentStart
  | documentEnd
  | blockSequenceStart
  | blockMappingStart
  | blockEnd
  | flowSequenceStart
  | flowSequenceEnd
  | flowMappingStart
  | flowMappingEnd
  | blockEntry
  | flowEntry
  | key
  | value
  | alias (name : String)
  | anchor (name : String)
  | tag (handle : Option String) (suffix : String)
  | scalar (plain : Bool) (text : String)
deriving DecidableEq, Repr

/-- What can be wrong with a YAML text. -/
inductive Problem where
  | unprintable
  | token
  | arrangement
  | construction
deriving DecidableEq, Repr

/-- The text of a problem. -/
def Problem.message (_ : Problem) : String := "<yaml error>"

/-- What ends the reading of a YAML text: a problem of the text, or a scalar that cannot be converted. -/
inductive Trouble where
  | problem (p : Problem)
  | badValue (message : String)
  | outOfRange
  | missingKey
  | missingItem
  | notText
deriving DecidableEq, Repr

/-- What a scanning step yields: a token or part of one, and the place behind it. -/
abbrev Scan (α : Type) := Except Trouble (α × Cursor)

/-- A character that cannot stand where it does. -/
def badToken {α : Type} : Except Trouble α := .error (.problem .token)

/-! ### Directives, anchors and tags -/

/-- The rest of a line that may hold a comment only. -/
def ignoredLine (c : Cursor) : Except Trouble Cursor :=
  let c := c.skipWhile (· == ' ')
  let c := if c.head == '#' then c.skipWhile (!isBreakOrEnd ·) else c
  match c.lineBreak? with
  | some (_, c) => .ok c
  | none => if c.rest.isEmpty then .ok c else badToken

/-- A decimal number of a version. -/
def versionNumber (c : Cursor) : Except Trouble (Nat × Cursor) :=
  match c.takeWhile isDecimal with
  | ([], _) => badToken
  | (digits, c) => .ok (Json.digitsValue digits, c)

/-- The characters of a tag's text. -/
def isTagChar (c : Char) : Bool :=
  c.isAlphanum || "-;/?:@&=+$,_.!~*'()[]%".toList.contains c

/-- Bytes given by their hexadecimal codes after percent signs. -/
def escapedBytes : Nat → Cursor → Except Trouble (List UInt8 × Cursor)
  | 0, c => .ok ([], c)
  | fuel + 1, c =>
    if c.head != '%' then .ok ([], c)
    else match Json.hexValue? (c.peek 1), Json.hexValue? (c.peek 2) with
      | some a, some b => do
        let (bytes, c) ← escapedBytes fuel (c.advance 3)
        return (UInt8.ofNat (a * 16 + b) :: bytes, c)
      | _, _ => badToken

/-- The text of a tag, with escaped bytes decoded. -/
def tagText : Nat → Cursor → Except Trouble (List Char × Cursor)
  | 0, c => .ok ([], c)
  | fuel + 1, c =>
    if c.head == '%' then do
      let (bytes, c) ← escapedBytes c.rest.length c
      match String.fromUTF8? (ByteArray.mk bytes.toArray) with
      | none => badToken
      | some s =>
        let (more, c) ← tagText fuel c
        return (s.toList ++ more, c)
    else if isTagChar c.head then do
      let (more, c') ← tagText fuel c.next
      return (c.head :: more, c')
    else .ok ([], c)

/-- The text of a tag, which must not be empty. -/
def tagUri (c : Cursor) : Except Trouble (String × Cursor) := do
  let (text, c) ← tagText (c.rest.length + 1) c
  if text.isEmpty then badToken else return (String.ofList text, c)

/-- A handle such as `!`, `!!` or `!name!`. -/
def tagHandle (c : Cursor) : Except Trouble (String × Cursor) :=
  if c.head != '!' then badToken
  else if c.peek 1 == ' ' then .ok ("!", c.next)
  else
    let (name, c) := c.next.takeWhile isNameChar
    if c.head != '!' then badToken
    else .ok (String.ofList ('!' :: name ++ ['!']), c.next)

/-- A directive: a version, a tag handle or one that is ignored. -/
def directive (c : Cursor) : Except Trouble (Token × Cursor) := do
  let (name, c) := c.next.takeWhile isNameChar
  if name.isEmpty || !isSpaceOrEnd c.head then badToken
  else
    let spaces := c.skipWhile (· == ' ')
    match String.ofList name with
    | "YAML" =>
      let (major, c) ← versionNumber spaces
      if c.head != '.' then badToken
      else
        let (minor, c) ← versionNumber c.next
        if !isSpaceOrEnd c.head then badToken
        else return (.versionDirective major minor, ← ignoredLine c)
    | "TAG" =>
      let (handle, c) ← tagHandle spaces
      if c.head != ' ' then badToken
      else
        let (uri, c) ← tagUri (c.skipWhile (· == ' '))
        if !isSpaceOrEnd c.head then badToken
        else return (.tagDirective handle uri, ← ignoredLine c)
    | _ => return (.otherDirective, ← ignoredLine (c.skipWhile (!isBreakOrEnd ·)))

/-- The name of an anchor or alias. -/
def anchorName (c : Cursor) : Except Trouble (String × Cursor) :=
  match c.next.takeWhile isNameChar with
  | ([], _) => badToken
  | (name, c) =>
    if isBlankOrEnd c.head || "?:,]\x7d%@\x60".toList.contains c.head then
      .ok (String.ofList name, c)
    else badToken

/-- The characters up to the next space hold an exclamation mark behind the first one. -/
def hasHandle (c : Cursor) : Bool :=
  (c.next.rest.takeWhile (!isSpaceOrEnd ·)).contains '!'

/-- A tag. -/
def tagToken (c : Cursor) : Except Trouble (Token × Cursor) := do
  let (token, c) ←
    if c.peek 1 == '<' then do
      let (uri, c) ← tagUri (c.advance 2)
      if c.head != '>' then badToken else pure (Token.tag none uri, c.next)
    else if isBlankOrEnd (c.peek 1) then pure (Token.tag none "!", c.next)
    else if hasHandle c then do
      let (handle, c) ← tagHandle c
      let (uri, c) ← tagUri c
      pure (Token.tag (some handle) uri, c)
    else do
      let (uri, c) ← tagUri c.next
      pure (Token.tag (some "!") uri, c)
  if isSpaceOrEnd c.head then return (token, c) else badToken

/-! ### Block scalars -/

/-- What happens to the line breaks at the end of a block scalar. -/
inductive Chomping where
  | clip
  | strip
  | keep
deriving DecidableEq, Repr

/-- The sign that chooses the chomping. -/
def chomping? : Char → Option Chomping
  | '+' => some .keep
  | '-' => some .strip
  | _ => none

/-- A digit that gives the indentation; zero gives none. -/
def indentDigit? (c : Char) : Option (Except Trouble Nat) :=
  if isDecimal c then some (if c == '0' then badToken else .ok (c.toNat - '0'.toNat)) else none

/-- The signs after the mark of a block scalar, in either order. -/
def blockHeader (c : Cursor) : Except Trouble (Chomping × Option Nat × Cursor) := do
  let (chomping, increment, c) ←
    match chomping? c.head with
    | some chomping =>
      match indentDigit? (c.peek 1) with
      | some n => do pure (chomping, some (← n), c.advance 2)
      | none => pure (chomping, none, c.next)
    | none =>
      match indentDigit? c.head with
      | some n => do
        let n ← n
        match chomping? (c.peek 1) with
        | some chomping => pure (chomping, some n, c.advance 2)
        | none => pure (.clip, some n, c.next)
      | none => pure (.clip, none, c)
  if isSpaceOrEnd c.head then return (chomping, increment, c) else badToken

/-- The breaks of the empty lines before the first line of a block scalar, and the greatest column
reached in them. -/
def leadingBreaks : Nat → Nat → Cursor → List Char × Nat × Cursor
  | 0, widest, c => ([], widest, c)
  | fuel + 1, widest, c =>
    match c.lineBreak? with
    | some (br, c) =>
      let (breaks, widest, c) := leadingBreaks fuel widest c
      (br :: breaks, widest, c)
    | none =>
      if c.head == ' ' then leadingBreaks fuel (max widest c.next.column) c.next
      else ([], widest, c)

/-- Step over at most the indentation. -/
def skipIndent (indent : Nat) : Nat → Cursor → Cursor
  | 0, c => c
  | fuel + 1, c =>
    if c.column < indent && c.head == ' ' then skipIndent indent fuel c.next else c

/-- The breaks of the empty lines before the next line of a block scalar. -/
def emptyLines (indent : Nat) : Nat → Cursor → List Char × Cursor
  | 0, c => ([], c)
  | fuel + 1, c =>
    let c := skipIndent indent c.rest.length c
    match c.lineBreak? with
    | some (br, c) =>
      let (breaks, c) := emptyLines indent fuel c
      (br :: breaks, c)
    | none => ([], c)

/-- The lines of a block scalar; `breaks` stand before the next one. -/
def blockLines (folded : Bool) (chomping : Chomping) (indent : Nat) :
    Nat → List Char → Cursor → List Char × Cursor
  | 0, _, c => ([], c)
  | fuel + 1, breaks, c =>
    let startsDark := !(c.head == ' ' || c.head == '\t')
    let (line, c) := c.takeWhile (!isBreakOrEnd ·)
    let (lineBreak, c) := match c.lineBreak? with
      | some (br, c) => ([br], c)
      | none => ([], c)
    let (after, c) := emptyLines indent c.rest.length.succ c
    if c.column == indent && !c.rest.isEmpty then
      let folds := folded && lineBreak == ['\n'] && startsDark && !(c.head == ' ' || c.head == '\t')
      let glue := if folds then (if after.isEmpty then [' '] else []) else lineBreak
      let (more, c) := blockLines folded chomping indent fuel after c
      (breaks ++ line ++ glue ++ more, c)
    else
      let tail := match chomping with
        | .clip => lineBreak
        | .strip => []
        | .keep => lineBreak ++ after
      (breaks ++ line ++ tail, c)

/-- A block scalar inside a collection that is indented by `outer`. -/
def blockScalar (outer : Int) (c : Cursor) : Except Trouble (Token × Cursor) := do
  let folded := c.head == '>'
  let (chomping, increment, c) ← blockHeader c.next
  let c ← ignoredLine c
  let least := (max (outer + 1) 1).toNat
  let (indent, breaks, c) :=
    match increment with
    | none =>
      let (breaks, widest, c) := leadingBreaks c.rest.length.succ 0 c
      (max least widest, breaks, c)
    | some n =>
      let indent := least + n - 1
      let (breaks, c) := emptyLines indent c.rest.length.succ c
      (indent, breaks, c)
  if c.column == indent && !c.rest.isEmpty then
    let (text, c) := blockLines folded chomping indent c.rest.length.succ breaks c
    return (.scalar false (String.ofList text), c)
  else
    let text := if chomping == .keep then breaks else []
    return (.scalar false (String.ofList text), c)

/-! ### Quoted scalars -/

/-- The character that follows a backslash and stands for one code. -/
def escapeCode? : Char → Option Nat
  | '0' => some 0
  | 'a' => some 7
  | 'b' => some 8
  | 't' | '\t' => some 9
  | 'n' => some 10
  | 'v' => some 11
  | 'f' => some 12
  | 'r' => some 13
  | 'e' => some 27
  | ' ' => some 32
  | '"' => some 34
  | '\\' => some 92
  | '/' => some 47
  | 'N' => some 0x85
  | '_' => some 0xA0
  | 'L' => some 0x2028
  | 'P' => some 0x2029
  | _ => none

/-- The number of hexadecimal digits of a code after a letter. -/
def escapeWidth? : Char → Option Nat
  | 'x' => some 2
  | 'u' => some 4
  | 'U' => some 8
  | _ => none

/-- The text of a list of codes; the two halves of a character are put together. -/
def charsOfCodes : List Nat → List Char
  | [] => []
  | [n] => [Json.codeChar n]
  | m :: n :: ns =>
    if Json.isHighHalf m && Json.isLowHalf n then
      Char.ofNat (0x10000 + (m - 0xD800) * 0x400 + (n - 0xDC00)) :: charsOfCodes ns
    else Json.codeChar m :: charsOfCodes (n :: ns)

/-- The breaks of the empty lines inside a quoted scalar, which no document mark may interrupt. -/
def quotedBreaks : Nat → Cursor → Except Trouble (List Char × Cursor)
  | 0, c => .ok ([], c)
  | fuel + 1, c =>
    if c.atSeparator then badToken
    else
      let c := c.skipWhile fun ch => ch == ' ' || ch == '\t'
      match c.lineBreak? with
      | some (br, c) => do
        let (breaks, c) ← quotedBreaks fuel c
        return (br :: breaks, c)
      | none => .ok ([], c)

/-- The code of an escape; `c` stands behind the backslash. -/
def escapeSequence (c : Cursor) : Except Trouble (List Nat × Cursor) :=
  match escapeCode? c.head, escapeWidth? c.head with
  | some code, _ => .ok ([code], c.next)
  | none, some width =>
    let digits := (c.next.rest.take width).filterMap Json.hexValue?
    if digits.length < width then badToken
    else
      let code := digits.foldl (fun n d => n * 16 + d) 0
      if code ≥ 0x80000000 then .error .outOfRange
      else if code > 0x10FFFF then .error (.badValue "chr() arg not in range(0x110000)")
      else .ok ([code], c.advance (width + 1))
  | none, none =>
    match c.lineBreak? with
    | some (_, c) => do
      let (breaks, c) ← quotedBreaks c.rest.length.succ c
      return (breaks.map Char.toNat, c)
    | none => badToken

/-- The inside of a quoted scalar up to its closing quote, as codes. -/
def quotedCodes (double : Bool) : Nat → Cursor → Except Trouble (List Nat × Cursor)
  | 0, _ => badToken
  | fuel + 1, c => do
    let ch := c.head
    let add (codes : List Nat) (c : Cursor) : Except Trouble (List Nat × Cursor) := do
      let (more, c) ← quotedCodes double fuel c
      return (codes ++ more, c)
    if c.rest.isEmpty then badToken
    else if ch == ' ' || ch == '\t' || isBreak ch then
      let (spaces, c) := c.takeWhile fun ch => ch == ' ' || ch == '\t'
      match c.lineBreak? with
      | some (br, c) =>
        let (breaks, c) ← quotedBreaks c.rest.length.succ c
        let first := if br != '\n' then [br] else if breaks.isEmpty then [' '] else []
        add ((first ++ breaks).map Char.toNat) c
      | none => if c.rest.isEmpty then badToken else add (spaces.map Char.toNat) c
    else if double then
      if ch == '"' then return ([], c.next)
      else if ch == '\\' then
        let (codes, c) ← escapeSequence c.next
        add codes c
      else add [ch.toNat] c.next
    else if ch == '\'' then
      if c.peek 1 == '\'' then add [ch.toNat] (c.advance 2) else return ([], c.next)
    else add [ch.toNat] c.next

/-- A quoted scalar. -/
def quotedScalar (c : Cursor) : Except Trouble (Token × Cursor) := do
  let (codes, c') ← quotedCodes (c.head == '"') c.rest.length.succ c.next
  return (.scalar false (String.ofList (charsOfCodes codes)), c')

/-! ### Plain scalars -/

/-- A plain scalar may begin here. -/
def startsPlain (inFlow : Bool) (c : Cursor) : Bool :=
  let ch := c.head
  !(isBlankOrEnd ch || "-?:,[]\x7b\x7d#&*!|>'\"%@\x60".toList.contains ch) ||
    (!isBlankOrEnd (c.peek 1) && (ch == '-' || (!inFlow && (ch == '?' || ch == ':'))))

/-- The next character ends a word of a plain scalar. -/
def endsPlain (inFlow : Bool) : List Char → Bool
  | [] => true
  | ':' :: rest =>
    let after := rest.headD '\x00'
    isBlankOrEnd after || (inFlow && ",[]\x7b\x7d".toList.contains after)
  | ch :: _ => isBlankOrEnd ch || (inFlow && ",?[]\x7b\x7d".toList.contains ch)

/-- The characters of a word of a plain scalar. -/
def plainWord (inFlow : Bool) : List Char → List Char
  | [] => []
  | ch :: cs => if endsPlain inFlow (ch :: cs) then [] else ch :: plainWord inFlow cs

/-- The breaks of the empty lines inside a plain scalar; nothing if a document mark follows. -/
def plainBreaks : Nat → Cursor → Option (List Char) × Cursor
  | 0, c => (some [], c)
  | fuel + 1, c =>
    if c.head == ' ' then plainBreaks fuel c.next
    else match c.lineBreak? with
      | some (br, c) =>
        if c.atSeparator then (none, c)
        else match plainBreaks fuel c with
          | (some breaks, c) => (some (br :: breaks), c)
          | (none, c) => (none, c)
      | none => (some [], c)

/-- The space between two words of a plain scalar: the characters that stand for it, whether a line
was ended in it, and the place behind it.  Nothing means that the scalar ends. -/
def plainSpace (c : Cursor) : List Char × Bool × Cursor :=
  let (spaces, c) := c.takeWhile (· == ' ')
  match c.lineBreak? with
  | some (br, c) =>
    if c.atSeparator then ([], true, c)
    else match plainBreaks c.rest.length.succ c with
      | (none, c) => ([], true, c)
      | (some breaks, c) =>
        let first := if br != '\n' then [br] else if breaks.isEmpty then [' '] else []
        (first ++ breaks, true, c)
  | none => (spaces, false, c)

/-- The words of a plain scalar inside a collection that is indented by `outer`.  The second result
says whether the place behind it is on a new line. -/
def plainWords (inFlow : Bool) (outer : Int) : Nat → List Char → Cursor → List Char × Bool × Cursor
  | 0, _, c => ([], false, c)
  | fuel + 1, space, c =>
    let word := if c.head == '#' then [] else plainWord inFlow c.rest
    if word.isEmpty then ([], !space.isEmpty && c.column == 0, c)
    else
      let c := c.advance word.length
      let (after, broke, c) := plainSpace c
      if after.isEmpty || c.head == '#' || (!inFlow && (c.column : Int) < outer + 1) then
        (space ++ word, broke, c)
      else
        let (more, broke', c') := plainWords inFlow outer fuel after c
        (space ++ word ++ more, if more.isEmpty then broke else broke', c')

/-- A plain scalar, and whether a simple key may follow it. -/
def plainScalar (inFlow : Bool) (outer : Int) (c : Cursor) : Token × Bool × Cursor :=
  let (text, broke, c) := plainWords inFlow outer c.rest.length.succ [] c
  (.scalar true (String.ofList text), broke, c)

/-! ### The token list -/

/-- A place at which a key may have begun: the number of the next token there, and its position. -/
structure Candidate where
  token : Nat
  required : Bool
  index : Nat
  line : Nat
  column : Nat

/-- The state between two tokens. -/
structure Scanner where
  cursor : Cursor
  tokens : Array Token
  /-- The depth of brackets. -/
  depth : Nat
  /-- The column of the current block collection, and those around it. -/
  indent : Int
  indents : List Int
  keyAllowed : Bool
  /-- The candidate of each depth. -/
  candidates : List (Nat × Candidate)

namespace Scanner

/-- The state at the beginning of a text. -/
def start (text : List Char) : Scanner := ⟨.start text, #[], 0, -1, [], true, []⟩

/-- Add a token. -/
def push (s : Scanner) (t : Token) : Scanner := { s with tokens := s.tokens.push t }

/-- In brackets indentation means nothing. -/
def inFlow (s : Scanner) : Bool := s.depth != 0

/-- Drop the candidates that are too far away; one that had to become a key must not be dropped. -/
def dropStale (s : Scanner) : Except Trouble Scanner :=
  let stale (k : Candidate) : Bool :=
    k.line != s.cursor.line || s.cursor.index - k.index > 1024
  if s.candidates.any fun c => stale c.2 && c.2.required then badToken
  else .ok { s with candidates := s.candidates.filter fun c => !stale c.2 }

/-- Drop the candidate of the current depth. -/
def dropCandidate (s : Scanner) : Except Trouble Scanner :=
  if s.candidates.any fun c => c.1 == s.depth && c.2.required then badToken
  else .ok { s with candidates := s.candidates.filter (·.1 != s.depth) }

/-- Remember the place of the next token as the beginning of a possible key. -/
def saveCandidate (s : Scanner) : Except Trouble Scanner :=
  if !s.keyAllowed then .ok s
  else do
    let s ← s.dropCandidate
    let c := s.cursor
    let required := !s.inFlow && s.indent == (c.column : Int)
    return { s with
      candidates := (s.depth, ⟨s.tokens.size, required, c.index, c.line, c.column⟩) :: s.candidates }

/-- End the block collections that are indented by more than a column. -/
def unwind (column : Int) : Nat → Scanner → Scanner
  | 0, s => s
  | fuel + 1, s =>
    if s.inFlow || s.indent ≤ column then s
    else unwind column fuel
      { s.push .blockEnd with indent := s.indents.headD (-1), indents := s.indents.drop 1 }

/-- End block collections down to a column. -/
def unwindTo (s : Scanner) (column : Int) : Scanner := unwind column (s.indents.length + 1) s

/-- Begin a block collection at a column if it lies further right than the current one. -/
def indentTo? (s : Scanner) (column : Nat) : Option Scanner :=
  if s.indent < (column : Int) then
    some { s with indent := column, indents := s.indent :: s.indents }
  else none

/-- Step over space, comments and line breaks.  Behind a line break outside brackets a key may begin. -/
def skipSpace : Nat → Scanner → Scanner
  | 0, s => s
  | fuel + 1, s =>
    let c := s.cursor.skipWhile (· == ' ')
    let c := if c.head == '#' then c.skipWhile (!isBreakOrEnd ·) else c
    match c.lineBreak? with
    | some (_, c) =>
      skipSpace fuel { s with cursor := c, keyAllowed := s.keyAllowed || !s.inFlow }
    | none => { s with cursor := c }

/-- Go to the next token: a byte order mark may begin the text. -/
def toNextToken (s : Scanner) : Scanner :=
  let c := s.cursor
  let s := if c.index == 0 && c.head == '\uFEFF' then { s with cursor := c.next } else s
  skipSpace (s.cursor.rest.length + 1) s

/-- A token of fixed width. -/
def step (s : Scanner) (width : Nat) (t : Token) : Scanner :=
  { s.push t with cursor := s.cursor.advance width }

/-- A mark that begins or ends a document. -/
def documentMark (s : Scanner) (t : Token) : Except Trouble Scanner := do
  let s ← (s.unwindTo (-1)).dropCandidate
  return { s.step 3 t with keyAllowed := false }

/-- An opening bracket. -/
def flowStart (s : Scanner) (t : Token) : Except Trouble Scanner := do
  let s ← s.saveCandidate
  return { s.step 1 t with depth := s.depth + 1, keyAllowed := true }

/-- A closing bracket. -/
def flowEnd (s : Scanner) (t : Token) : Except Trouble Scanner := do
  let s ← s.dropCandidate
  return { s.step 1 t with depth := s.depth - 1, keyAllowed := false }

/-- A block collection begins at the current column, where a key must be allowed. -/
def openBlock (s : Scanner) (t : Token) : Except Trouble Scanner :=
  if s.inFlow then .ok s
  else if !s.keyAllowed then badToken
  else match s.indentTo? s.cursor.column with
    | some s => .ok (s.push t)
    | none => .ok s

/-- A dash before an item. -/
def blockEntry (s : Scanner) : Except Trouble Scanner := do
  let s ← s.openBlock .blockSequenceStart
  let s ← { s with keyAllowed := true }.dropCandidate
  return s.step 1 .blockEntry

/-- A question mark before a key. -/
def explicitKey (s : Scanner) : Except Trouble Scanner := do
  let s ← s.openBlock .blockMappingStart
  let s ← { s with keyAllowed := !s.inFlow }.dropCandidate
  return s.step 1 .key

/-- Put tokens before the one with a number. -/
def insertTokens (s : Scanner) (place : Nat) (ts : List Token) : Scanner :=
  let all := s.tokens.toList
  { s with tokens := (all.take place ++ ts ++ all.drop place).toArray }

/-- A colon before a value: it turns the candidate of the current depth into a key. -/
def mappingValue (s : Scanner) : Except Trouble Scanner := do
  match s.candidates.lookup s.depth with
  | some k =>
    let s := { s with candidates := s.candidates.filter (·.1 != s.depth), keyAllowed := false }
    let opened := if s.inFlow then none else s.indentTo? k.column
    let s := match opened with
      | some s => s.insertTokens k.token [.blockMappingStart, .key]
      | none => s.insertTokens k.token [.key]
    return s.step 1 .value
  | none =>
    let s ← s.openBlock .blockMappingStart
    let s ← { s with keyAllowed := !s.inFlow }.dropCandidate
    return s.step 1 .value

/-- A token that may be the beginning of a key and behind which none may begin. -/
def keyToken (s : Scanner) (scan : Cursor → Except Trouble (Token × Cursor)) :
    Except Trouble Scanner := do
  let s ← s.saveCandidate
  let (t, c) ← scan s.cursor
  return { s.push t with cursor := c, keyAllowed := false }

/-- The next token, if there is one. -/
def next? (s : Scanner) : Except Trouble (Option Scanner) := do
  let s ← s.toNextToken.dropStale
  let s := s.unwindTo s.cursor.column
  let c := s.cursor
  let ch := c.head
  if c.rest.isEmpty then return none
  else if ch == '%' && c.column == 0 then
    let s ← (s.unwindTo (-1)).dropCandidate
    let (t, c) ← directive s.cursor
    return some { s.push t with cursor := c, keyAllowed := false }
  else if c.column == 0 && c.isDocumentMark '-' then some <$> s.documentMark .documentStart
  else if c.column == 0 && c.isDocumentMark '.' then some <$> s.documentMark .documentEnd
  else if ch == '[' then some <$> s.flowStart .flowSequenceStart
  else if ch == '{' then some <$> s.flowStart .flowMappingStart
  else if ch == ']' then some <$> s.flowEnd .flowSequenceEnd
  else if ch == '}' then some <$> s.flowEnd .flowMappingEnd
  else if ch == ',' then
    let s ← { s with keyAllowed := true }.dropCandidate
    return some (s.step 1 .flowEntry)
  else if ch == '-' && isBlankOrEnd (c.peek 1) then some <$> s.blockEntry
  else if ch == '?' && (s.inFlow || isBlankOrEnd (c.peek 1)) then some <$> s.explicitKey
  else if ch == ':' && (s.inFlow || isBlankOrEnd (c.peek 1)) then some <$> s.mappingValue
  else if ch == '*' then
    some <$> s.keyToken fun c => (anchorName c).map fun r => (.alias r.1, r.2)
  else if ch == '&' then
    some <$> s.keyToken fun c => (anchorName c).map fun r => (.anchor r.1, r.2)
  else if ch == '!' then some <$> s.keyToken tagToken
  else if (ch == '|' || ch == '>') && !s.inFlow then
    let s ← { s with keyAllowed := true }.dropCandidate
    let (t, c) ← blockScalar s.indent s.cursor
    return some { s.push t with cursor := c }
  else if ch == '\'' || ch == '"' then some <$> s.keyToken quotedScalar
  else if startsPlain s.inFlow c then
    let s ← s.saveCandidate
    let (t, broke, c) := plainScalar s.inFlow s.indent s.cursor
    return some { s.push t with cursor := c, keyAllowed := broke }
  else badToken

/-- All tokens up to the end of the text. -/
def run : Nat → Scanner → Except Trouble Scanner
  | 0, s => .ok s
  | fuel + 1, s => do
    match ← s.next? with
    | some s => run fuel s
    | none => (s.toNextToken.unwindTo (-1)).dropCandidate

end Scanner

/-- The code points that a YAML text may hold. -/
def isAllowed (c : Char) : Bool :=
  let n := c.toNat
  n == 9 || n == 10 || n == 13 || (32 ≤ n && n ≤ 126) || n == 0x85 || (0xA0 ≤ n && n ≤ 0xD7FF) ||
    (0xE000 ≤ n && n ≤ 0xFFFD) || (0x10000 ≤ n && n ≤ 0x10FFFF)

/-- The tokens of a text. -/
def Token.ofText (text : List Char) : Except Trouble (List Token) :=
  if !text.all isAllowed then .error (.problem .unprintable)
  else (Scanner.run (text.length + 1) (.start text)).map (·.tokens.toList)

end ApiShell.Yaml
