import ApiShell.Command.FlagDefault
import ApiShell.Text.Wrap

/-!
# The interface of a command

What may follow the name of a command: options, each under a few names, and arguments that are known by
their place.  The values of both travel under identifiers.
-/

namespace ApiShell.CommandLine

open Command (FlagKind FlagValue)

/-- What an option makes the program do instead of running a command. -/
inductive Signal where
  | help
  | version
deriving DecidableEq, Repr

/-- The declaration of an option. -/
structure OptionDecl where
  identifier : String
  names : List String
  /-- The names that set a switch to false. -/
  negativeNames : List String := []
  kind : FlagKind
  /-- The value of the option where it is not given. -/
  default : Option FlagValue := none
  help : String := ""
  /-- The default is worth showing on a help page. -/
  showsDefault : Bool := true
  signal : Option Signal := none
deriving DecidableEq, Repr

namespace OptionDecl

/-- A word follows the option, unless it is a switch. -/
def takesValue (o : OptionDecl) : Bool := o.kind ≠ .bool

/-- How messages name the option. -/
def hint (o : OptionDecl) : String := Text.join " / " (o.names.map fun name => s!"'{name}'")

/-- The help text of the option, if it has one. -/
def shownHelp? (o : OptionDecl) : Option String :=
  if o.help = "" then none else some (Text.dedent o.help)

end OptionDecl

/-- The declaration of an argument. -/
structure ArgumentDecl where
  identifier : String
  /-- How messages and help pages name the argument. -/
  shownName : String
  help : String := ""
  isRequired : Bool := true
deriving DecidableEq, Repr

namespace ArgumentDecl

/-- The help text of the argument, if it has one. -/
def shownHelp? (a : ArgumentDecl) : Option String := if a.help = "" then none else some a.help

end ArgumentDecl

/-- The option that every command has: it asks for the help page. -/
def helpOption : OptionDecl :=
  { identifier := "help"
    names := ["--help"]
    kind := .bool
    default := some (.bool false)
    help := "Show this message and exit."
    signal := some .help }

/-- What may follow the name of a command. -/
structure Interface where
  arguments : List ArgumentDecl := []
  options : List OptionDecl := []
deriving DecidableEq, Repr

namespace Interface

/-- All options, the one for help last. -/
def allOptions (i : Interface) : List OptionDecl := i.options ++ [helpOption]

/-- The name is a single letter behind a single hyphen. -/
def isLetterName (name : String) : Bool :=
  match name.toList with
  | ['-', c] => c != '-'
  | _ => false

/-- The option of a name, and whether the name is a negative one.  The last declaration of a name
counts. -/
def option? (i : Interface) (name : String) : Option (OptionDecl × Bool) :=
  i.allOptions.reverse.findSome? fun o =>
    if o.negativeNames.contains name then some (o, true)
    else if o.names.contains name then some (o, false)
    else none

/-- The option of a name that is written out. -/
def longOption? (i : Interface) (name : String) : Option (OptionDecl × Bool) :=
  if isLetterName name then none else i.option? name

/-- The option of a letter. -/
def letterOption? (i : Interface) (c : Char) : Option (OptionDecl × Bool) :=
  let name := String.ofList ['-', c]
  if isLetterName name then i.option? name else none

end Interface

end ApiShell.CommandLine
