import ApiShell.Command.FlagDefault
import ApiShell.Command.Identifier
import ApiShell.Spec.Endpoint

/-!
# Flags and arguments

A parameter in the path of a request is a positional argument, every other parameter is a flag with
the name that the description gives it.
-/

namespace ApiShell.Command

open Spec (Parameter Location Schema)

/-- The names of the flags that every command has. -/
def reservedFlags : List String :=
  ["data", "header", "query", "form", "auth", "content-type", "output", "save", "extract", "filter",
   "verbose", "dry-run", "help"]

/-- The identifiers under which the values of those flags travel, and that of the context. -/
def reservedIdentifiers : List String :=
  ["ctx", "data", "header", "query", "form", "auth", "content_type", "output", "save", "extract",
   "filter", "verbose", "dry_run"]

/-- A positional argument. -/
structure Argument where
  name : String
  identifier : String
  help : String
deriving DecidableEq, Repr

/-- A flag. -/
structure Flag where
  name : String
  identifier : String
  location : Location
  kind : FlagKind
  default : FlagValue
  /-- The description declares a default of the flag's kind. -/
  declaredDefault : Bool
  required : Bool
  help : String
deriving DecidableEq, Repr

namespace Flag

/-- The flag can also be given in a negative form, which sets it to false. -/
def hasNegativeForm (f : Flag) : Bool :=
  match f.kind, f.default with
  | .bool, .bool b => b || f.required
  | .bool, _ => f.required
  | _, _ => false

/-- The names that the flag occupies. -/
def optionNames (f : Flag) : List String :=
  if f.hasNegativeForm then [f.name, s!"no-{f.name}"] else [f.name]

end Flag

/-- A character of a flag name. -/
def isFlagNameChar (c : Char) : Bool :=
  c.isAlphanum || ['_', '.', '-', '[', ']'].contains c

/-- A name that can be typed as a flag: a letter or digit, then letters, digits and `_.-[]`. -/
def isTypable : List Char → Bool
  | [] => false
  | c :: cs => c.isAlphanum && cs.all isFlagNameChar

/-- A name that is taken as a flag: one that can be typed, or one with a line break after it. -/
def isFlagName (cs : List Char) : Bool :=
  isTypable cs || (cs.getLast? == some '\n' && isTypable cs.dropLast)

/-- Why a parameter makes no flag. -/
inductive FlagRefusal where
  | pathParameter (name : String)
  | unusableName (name : String)
deriving DecidableEq, Repr

/-- The text of a refusal. -/
def FlagRefusal.message : FlagRefusal → String
  | pathParameter name =>
    let shown := Text.quoted name
    s!"path parameter {shown} is not a flag"
  | unusableName name =>
    let shown := Text.quoted name
    s!"{shown} is not a usable flag name"

/-- The reason why a parameter makes no flag, if there is one. -/
def flagRefusal? (p : Parameter) : Option FlagRefusal :=
  if p.location = .path then some (.pathParameter p.name)
  else if !isFlagName p.name.toList then some (.unusableName p.name)
  else none

/-- The kind of a parameter's flag.  Headers and cookies are texts whatever their schema says. -/
def flagKindFor (p : Parameter) : FlagKind :=
  match p.location with
  | .header | .cookie => .string
  | _ => .ofType ((p.schema?.map (·.type)).getD "")

/-- What a list of choices looks like in a help text. -/
def choicesText (choices : List Value) : Except Defect String :=
  (choices.mapM defaultText).map fun texts =>
    let all := Text.join ", " texts
    s!"(choices: {all})"

/-- The help text of a parameter. -/
def helpFor (p : Parameter) : Except Defect String := do
  let own := if p.description = "" then (p.schema?.map (·.description)).getD "" else p.description
  let choices ← match p.schema? with
    | some schema => if schema.choices.isEmpty then .ok [] else
        (choicesText schema.choices).map fun s => [s]
    | none => .ok []
  return Text.join " " ((if p.deprecated then ["[DEPRECATED]"] else []) ++
    (if own = "" then [] else [own]) ++ choices)

/-- End a computation where a part of it meets a defect. -/
def orStop {α : Type} : Except Defect α → Run α
  | .ok a => pure a
  | .error d => stop d

/-- The argument of a path parameter. -/
def argumentFor (p : Parameter) (taken : List String) : Run Argument := do
  let identifier := unique p.name taken
  let help ← orStop (helpFor p)
  return { name := p.name, identifier, help }

/-- The flag of a parameter that makes one. -/
def flagFor (p : Parameter) (taken : List String) : Run Flag := do
  let help ← orStop (helpFor p)
  let help := if !p.required then help
    else if help = "" then "[REQUIRED]" else s!"{help} [REQUIRED]"
  let kind := flagKindFor p
  let declared ← schemaDefault? kind p.schema?
  return {
    name := p.name
    identifier := unique p.name taken
    location := p.location
    kind
    default := declared.getD (.zero kind)
    declaredDefault := declared.isSome
    required := p.required
    help }

end ApiShell.Command
