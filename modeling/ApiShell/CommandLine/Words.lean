import ApiShell.CommandLine.Interface
import ApiShell.Entries
import ApiShell.Text.Quoted
import ApiShell.Text.Split

/-!
# The words of a command line

The words behind a command are options with their values, and other words.  A long option is written
out, with its value behind an equals sign or in the next word.  Short options are letters behind one
hyphen; the first one of them that takes a value has the rest of the word for it, or the next word.  Two
hyphens end the options.  Behind a group of commands the first word that is no option ends them as well:
it and everything behind it belong to a command of the group.
-/

/-!
### Usage errors

What can be wrong with a command line.
-/

namespace ApiShell.CommandLine

/-- What is wrong with a command line. -/
inductive UsageError where
  /-- A group of commands is called without anything behind its name. -/
  | nothingGiven
  | unknownOption (name : String)
  | valueMissing (name : String)
  | valueRefused (name : String)
  | badValue (hint problem : String)
  | argumentMissing (name : String)
  | argumentsLeft (words : List String)
  | unknownCommand (name : String)
  | commandMissing
deriving DecidableEq, Repr

/-- The text of a usage error.  Where nothing is given, the help page says it all. -/
def UsageError.message : UsageError → String
  | nothingGiven => ""
  | unknownOption name => s!"No such option: {name}"
  | valueMissing name =>
    let shown := Text.quoted name
    s!"Option {shown} requires an argument."
  | valueRefused name =>
    let shown := Text.quoted name
    s!"Option {shown} does not take a value."
  | badValue hint problem => s!"Invalid value for {hint}: {problem}"
  | argumentMissing name => s!"Missing argument '{name}'."
  | argumentsLeft words =>
    let all := Text.join " " words
    s!"Got unexpected extra argument(s) ({all})"
  | unknownCommand name =>
    let shown := Text.quoted name
    s!"No such command {shown}."
  | commandMissing => "Missing command."

/-- The exit code of every usage error. -/
def UsageError.exitCode : Nat := 2

end ApiShell.CommandLine

/-! ### The words of a command line -/

namespace ApiShell.CommandLine

/-- What was typed for an option or argument. -/
inductive Typed where
  | word (s : String)
  | words (all : List String)
  | switch (b : Bool)
deriving DecidableEq, Repr

/-- One use of an option. -/
structure Use where
  option : OptionDecl
  typed : Typed
deriving DecidableEq, Repr

/-- The options in one word. -/
inductive Reading where
  | complete (uses : List Use)
  /-- The last option in the word has its value in the next word. -/
  | awaiting (uses : List Use) (option : OptionDecl) (name : String)
deriving DecidableEq, Repr

/-- A use of an option before those that were read already. -/
def Reading.after (use : Use) : Reading → Reading
  | complete uses => complete (use :: uses)
  | awaiting uses option name => awaiting (use :: uses) option name

/-- The end of the options. -/
def optionsEnd : String := "--"

/-- The word has options in it: it starts with a hyphen and has more than that. -/
def isOptionWord (word : String) : Bool :=
  match word.toList with
  | '-' :: _ :: _ => true
  | _ => false

/-- The reading of an option that was written out, with the value behind the equals sign. -/
def OptionDecl.readLong (o : OptionDecl) (isNegative : Bool) (name : String)
    (value : Option String) : Except UsageError Reading :=
  if o.takesValue then
    match value with
    | some v => .ok (.complete [⟨o, .word v⟩])
    | none => .ok (.awaiting [] o name)
  else if value.isSome then .error (.valueRefused name)
  else .ok (.complete [⟨o, .switch !isNegative⟩])

namespace Interface

/-- The options of single letters. -/
def readShort (i : Interface) : List Char → Except UsageError Reading
  | [] => .ok (.complete [])
  | c :: cs =>
    let name := String.ofList ['-', c]
    match i.letterOption? c with
    | none => .error (.unknownOption name)
    | some (option, isNegative) =>
      if option.takesValue then
        if cs.isEmpty then .ok (.awaiting [] option name)
        else .ok (.complete [⟨option, .word (String.ofList cs)⟩])
      else (readShort i cs).map (Reading.after ⟨option, .switch !isNegative⟩)

/-- The options in a word.  A name that is written out goes before single letters. -/
def readWord (i : Interface) (word : String) : Except UsageError Reading :=
  let (name, value) := match Text.cut? '=' word with
    | some (name, value) => (name, some value)
    | none => (word, none)
  match i.longOption? name with
  | some (option, isNegative) => option.readLong isNegative name value
  | none =>
    if Text.startsWith word optionsEnd then .error (.unknownOption name)
    else i.readShort (word.toList.drop 1)

end Interface

/-- What the words of a command line say. -/
structure Collected where
  /-- What was typed last under each identifier; for a list, everything that was typed. -/
  typed : List (String × Typed) := []
  /-- The options that were used, in the order of their first uses. -/
  used : List OptionDecl := []
  /-- The words that are no options. -/
  others : List String := []

namespace Collected

/-- What is typed under an identifier after one more use of an option. -/
def join (o : OptionDecl) (before : Option Typed) (t : Typed) : Typed :=
  match o.kind, t, before with
  | .stringList, .word s, some (.words all) => .words (all ++ [s])
  | .stringList, .word s, _ => .words [s]
  | _, t, _ => t

/-- One more use of an option. -/
def add (c : Collected) (use : Use) : Collected :=
  let o := use.option
  { c with
    typed := Entries.put c.typed o.identifier (join o (Entries.get? c.typed o.identifier) use.typed)
    used := if c.used.contains o then c.used else c.used ++ [o] }

/-- Some more uses of options. -/
def addAll (c : Collected) (uses : List Use) : Collected := uses.foldl add c

end Collected

/-- Collect what words say.  `mixed` tells whether options may follow other words. -/
def collect (i : Interface) (mixed : Bool) (c : Collected) :
    List String → Except UsageError Collected
  | [] => .ok c
  | word :: words =>
    if word = optionsEnd then .ok { c with others := c.others ++ words }
    else if isOptionWord word then
      match i.readWord word with
      | .error e => .error e
      | .ok (.complete uses) => collect i mixed (c.addAll uses) words
      | .ok (.awaiting uses option name) =>
        match words with
        | [] => .error (.valueMissing name)
        | value :: words =>
          collect i mixed ((c.addAll uses).add ⟨option, .word value⟩) words
    else if mixed then collect i mixed { c with others := c.others ++ [word] } words
    else .ok { c with others := c.others ++ word :: words }

end ApiShell.CommandLine
