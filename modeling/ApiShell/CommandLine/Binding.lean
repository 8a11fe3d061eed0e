import ApiShell.CommandLine.Words
import ApiShell.Decimal.Numeral
import ApiShell.Text.Blank
import ApiShell.Text.Lower
import ApiShell.Text.WordChar

/-!
# Values of options and arguments

What was typed becomes values under identifiers.  Options that make the program do something else come
first, then the options in the order in which they were typed, then the arguments: the first of them that
cannot be read ends it all.
-/

namespace ApiShell.CommandLine

open Command (FlagKind FlagValue)

/-- Drop zeros and the underscores between them from the front of digits, but not the last digit. -/
def dropZeros (cs : List Char) : Option (List Char) :=
  let leading := cs.takeWhile fun c => c == '0' || c == '_'
  match leading.reverse, cs.dropWhile fun c => c == '0' || c == '_' with
  | [], cs => some cs
  | last :: _, [] => some [last]
  | last :: _, '.' :: cs => some (last :: '.' :: cs)
  | _, c :: cs => if c.isDigit then some (c :: cs) else none

/-- Drop a point with nothing but zeros behind it. -/
def dropFraction (cs : List Char) : List Char :=
  match Text.cutAt? '.' cs with
  | some (whole, fraction) => if fraction.all (· == '0') then whole else cs
  | none => cs

/-- The number that digits with single underscores between them write. -/
def digitsValue? (cs : List Char) : Option Nat :=
  (Decimal.groupedDigits 10 false cs).map (Decimal.ofDigits 10)

/-- The most digits that a number may have. -/
def maxDigits : Nat := 4300

/-- Why a word is no number. -/
inductive NumberProblem where
  | malformed
  | tooLong
deriving DecidableEq, Repr

/-- The text of the problem with a number. -/
def NumberProblem.message : NumberProblem → String
  | malformed => "Input should be a valid integer, unable to parse string as an integer"
  | tooLong => "Unable to parse input string as an integer, exceeded maximum size"

/-- The integer that a word writes. -/
def integerOf (s : String) : Except NumberProblem Int :=
  let (negative, cs) := Decimal.takeSign (Text.trimOf Decimal.isPadding s.toList)
  let value? : Option Nat := do
    if !cs.head?.any Char.isDigit then none
    digitsValue? (dropFraction (← dropZeros cs))
  match value? with
  | none => .error .malformed
  | some n =>
    if cs.length > maxDigits then .error .tooLong
    else .ok (if negative then -(n : Int) else n)

/-- The truth value that a word writes. -/
def truth? (s : String) : Option Bool :=
  let word := Text.lower s
  if ["1", "true", "t", "yes", "y", "on"].contains word then some true
  else if ["0", "false", "f", "no", "n", "off"].contains word then some false
  else none

/-- The text of the problem with a truth value. -/
def badTruthText : String := "Input should be a valid boolean, unable to interpret input"

/-- The value of an option for which something was typed. -/
def OptionDecl.read (o : OptionDecl) (t : Typed) : Except UsageError FlagValue :=
  match t, o.kind with
  | .switch b, _ => .ok (.bool b)
  | .words all, .stringList => .ok (.stringList all)
  | .words _, _ => .error (.badValue o.hint badTruthText)
  | .word s, .string => .ok (.string s)
  | .word s, .stringList => .ok (.stringList [s])
  | .word s, .integer =>
    match integerOf s with
    | .ok n => .ok (.integer n)
    | .error problem => .error (.badValue o.hint problem.message)
  | .word s, .bool =>
    match truth? s with
    | some b => .ok (.bool b)
    | none => .error (.badValue o.hint badTruthText)

/-- The value of an option or argument, and whether it was given. -/
structure Bound where
  value : Option FlagValue
  isGiven : Bool
deriving DecidableEq, Repr

/-- Values under identifiers. -/
abbrev Values := List (String × Bound)

namespace Values

/-- The value under an identifier; an empty list counts as none. -/
def get? (values : Values) (identifier : String) : Option FlagValue :=
  match (Entries.get? values identifier).bind Bound.value with
  | some (.stringList []) => none
  | v => v

/-- The value under an identifier that was given on the command line. -/
def given? (values : Values) (identifier : String) : Option FlagValue :=
  if (Entries.get? values identifier).any Bound.isGiven then values.get? identifier else none

/-- The text under an identifier. -/
def text? (values : Values) (identifier : String) : Option String :=
  match values.get? identifier with
  | some (.string s) => some s
  | _ => none

/-- The texts under an identifier. -/
def texts (values : Values) (identifier : String) : List String :=
  match values.get? identifier with
  | some (.stringList all) => all
  | _ => []

/-- The switch under an identifier is on. -/
def isOn (values : Values) (identifier : String) : Bool :=
  values.get? identifier == some (.bool true)

end Values

/-- What keeps a command line from reaching its command. -/
inductive Stop where
  | misused (e : UsageError)
  | signalled (s : Signal)
deriving DecidableEq, Repr

namespace Interface

/-- What was typed, with the words for the arguments under their identifiers. -/
def withArguments (i : Interface) (c : Collected) : List (String × Typed) :=
  (i.arguments.zip c.others).foldl (fun typed a =>
    Entries.put typed a.1.identifier (.word a.2)) c.typed

/-- The value of an option, given or not. -/
def bindOption (typed : List (String × Typed)) (o : OptionDecl) : Except UsageError Bound :=
  match Entries.get? typed o.identifier with
  | some t => (o.read t).map fun v => ⟨some v, true⟩
  | none => .ok ⟨o.default, false⟩

/-- Stop at the first option that makes the program do something else. -/
def obeySignals (typed : List (String × Typed)) : List OptionDecl → Except Stop Unit
  | [] => .ok ()
  | o :: options => do
    let bound ← (bindOption typed o).mapError .misused
    match o.signal with
    | some signal => if bound.value = some (.bool true) then .error (.signalled signal)
    | none => pure ()
    obeySignals typed options

/-- The value of an argument. -/
def bindArgument (typed : List (String × Typed)) (a : ArgumentDecl) : Except UsageError Bound :=
  match Entries.get? typed a.identifier with
  | some (.word s) => .ok ⟨some (.string s), true⟩
  | _ => if a.isRequired then .error (.argumentMissing a.shownName) else .ok ⟨none, false⟩

/-- Bind what was typed.  The words beyond the arguments are left. -/
def bind (i : Interface) (c : Collected) : Except Stop (Values × List String) := do
  let typed := i.withArguments c
  let signals := c.used ++ i.allOptions.filter fun o => !c.used.contains o
  obeySignals typed (signals.filter (·.signal.isSome))
  let plain := c.used.filter (·.signal.isNone)
  let _ ← (plain.mapM (bindOption typed)).mapError .misused
  let arguments ← (i.arguments.mapM fun a => (bindArgument typed a).map fun b =>
    (a.identifier, b)).mapError .misused
  let options ← ((i.options.filter (·.signal.isNone)).mapM fun o =>
    (bindOption typed o).map fun b => (o.identifier, b)).mapError .misused
  return (arguments ++ options, c.others.drop i.arguments.length)

/-- Read the words behind a command: no word may be left. -/
def read (i : Interface) (words : List String) : Except Stop Values := do
  let c ← (collect i true {} words).mapError .misused
  let (values, left) ← i.bind c
  if left.isEmpty then return values
  else throw (.misused (.argumentsLeft left))

/-- Read the words behind a group of commands as far as they belong to the group. -/
def readGroup (i : Interface) (words : List String) : Except Stop (Values × List String) := do
  if words.isEmpty then throw (.misused .nothingGiven)
  let c ← (collect i false {} words).mapError .misused
  i.bind c

end Interface

/-- A letter or number of any script. -/
def isNameStart (c : Char) : Bool := Text.isWordChar c && c != '_'

/-- Choose a command of a group.  A word that is the name of none and does not start like a name is read
once more as belonging to the group. -/
def choose {α : Type} (i : Interface) (command? : String → Option α) (words : List String) :
    Except Stop (Values × String × α × List String) := do
  let (values, rest) ← i.readGroup words
  match rest with
  | [] => throw (.misused .commandMissing)
  | name :: rest =>
    match command? name with
    | some command => return (values, name, command, rest)
    | none =>
      if name.toList.head?.any fun c => !isNameStart c then
        let _ ← i.readGroup (name :: rest)
      throw (.misused (.unknownCommand name))

end ApiShell.CommandLine
