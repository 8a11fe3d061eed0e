import ApiShell.Text.Blank
import ApiShell.Text.Lower
import ApiShell.Text.Split

/-!
# Identifiers

The values of a command travel under identifiers: words of lower-case ASCII letters, digits and
underscores that do not start with a digit and are no keyword.  `sanitize` makes one of any name, and
`unique` makes one that is not taken yet.
-/

namespace ApiShell.Command

/-- Words that are no identifiers. -/
def keywords : List String :=
  ["and", "as", "assert", "async", "await", "break", "class", "continue", "def", "del", "elif",
   "else", "except", "finally", "for", "from", "global", "if", "import", "in", "is", "lambda",
   "nonlocal", "not", "or", "pass", "raise", "return", "try", "while", "with", "yield"]

/-- Put an underscore where a lower-case letter or digit meets an upper-case letter. -/
def splitHumps : List Char → List Char
  | a :: b :: cs =>
    if (a.isLower || a.isDigit) && b.isUpper then a :: '_' :: splitHumps (b :: cs)
    else a :: splitHumps (b :: cs)
  | cs => cs

/-- Put an underscore before the last of several upper-case letters that a lower-case one follows. -/
def splitAcronyms : List Char → List Char
  | a :: b :: c :: cs =>
    if a.isUpper && b.isUpper && c.isLower then a :: '_' :: splitAcronyms (b :: c :: cs)
    else a :: splitAcronyms (b :: c :: cs)
  | cs => cs

/-- The characters of an identifier other than the underscore. -/
def isIdentifierChar (c : Char) : Bool := c.isLower || c.isDigit

/-- The runs of identifier characters joined by single underscores. -/
def joinRuns (cs : List Char) : List Char := Text.joinWith ['_'] (Text.runs isIdentifierChar cs)

/-- An identifier for a name. -/
def sanitize (name : String) : String :=
  let words := joinRuns (Text.lowerChars (splitAcronyms (splitHumps name.toList)))
  let word := if words.isEmpty then "param".toList else words
  let word := if word.head?.any Char.isDigit then '_' :: word else word
  let word := String.ofList word
  if keywords.contains word then word ++ "_" else word

/-- The candidates for an identifier after the first one. -/
def numbered (base : String) (n : Nat) : String := s!"{base}_{n}"

/-- The first candidate from number `n` on that is not taken, `tries` candidates being looked at. -/
def firstFree (base : String) (taken : List String) : Nat → Nat → String
  | 0, n => numbered base n
  | tries + 1, n =>
    if taken.contains (numbered base n) then firstFree base taken tries (n + 1)
    else numbered base n

/-- An identifier for a name that is not taken.  Of `taken.length + 1` candidates one is free. -/
def unique (name : String) (taken : List String) : String :=
  let base := sanitize name
  if taken.contains base then firstFree base taken taken.length 2 else base

/-- Identifiers for names, each of which is taken for the names after it. -/
def uniques (taken : List String) : List String → List String
  | [] => []
  | name :: names =>
    let identifier := unique name taken
    identifier :: uniques (identifier :: taken) names

/-- A word for a text: every character but lower-case letters, digits and underscores is replaced by
an underscore. -/
def slug (s : String) : String :=
  let cs := (Text.lowerChars s.toList).map fun c => if isIdentifierChar c then c else '_'
  let trimmed := Text.trimOf (· == '_') cs
  if trimmed.isEmpty then "cmd" else String.ofList trimmed

end ApiShell.Command
