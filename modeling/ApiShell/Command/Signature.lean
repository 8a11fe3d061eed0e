import ApiShell.Command.Page

/-!
# Signatures

A command is called through a definition that is generated for it.  The definition has a parameter
for the context of the call and one for each argument and flag of the command and for each option that
every command has.  A parameter refers to its type and its default by names; what these stand for is
said in a list of bindings beside the definition.

A definition is accepted if all of its names are identifiers and no two of its parameters have one
name.  What the command takes is then read off its parameters and the bindings.
-/

namespace ApiShell.Command

open CommandLine (OptionDecl ArgumentDecl Interface)

/-- What a name in a definition stands for. -/
inductive Meaning where
  | context
  | type (kind : FlagKind)
  | argument (a : ArgumentDecl)
  | option (o : OptionDecl)
  | callee
deriving DecidableEq, Repr

/-- A parameter of a definition, with the names of its type and its default. -/
structure Formal where
  name : String
  type : String
  default? : Option String
deriving DecidableEq, Repr

/-- A definition with the meanings of the names in it. -/
structure Definition where
  title : String
  name : String
  formals : List Formal
  bindings : List (String × Meaning)

/-! ### Generating definitions -/

/-- The name of the parameter for the context of a call. -/
def contextName : String := "ctx"

/-- The name of what a definition calls with the values of its parameters. -/
def calleeName : String := "_dispatch"

/-- The name of the type of a parameter. -/
def typeName (label : String) : String := s!"_ann_{label}"

/-- The name of the default of a parameter. -/
def defaultName (label : String) : String := s!"_default_{label}"

/-- A parameter for a value.  Its label sets the names of its type and default apart. -/
structure Slot where
  name : String
  label : String
  kind : FlagKind
  default : Meaning

/-- The parameter in the definition. -/
def Slot.formal (s : Slot) : Formal := ⟨s.name, typeName s.label, some (defaultName s.label)⟩

/-- What the names of the parameter's type and default stand for. -/
def Slot.bindings (s : Slot) : List (String × Meaning) :=
  [(typeName s.label, .type s.kind), (defaultName s.label, s.default)]

/-- The parameter for an argument. -/
def Argument.slot (i : Nat) (a : Argument) : Slot :=
  ⟨a.identifier, s!"arg_{i}", .string, .argument a.declaration⟩

/-- The parameter for a flag. -/
def Flag.slot (i : Nat) (f : Flag) : Slot :=
  ⟨f.identifier, s!"opt_{i}", f.kind, .option f.declaration⟩

/-- The parameter for an option that every command has. -/
def commonSlot (o : OptionDecl) : Slot := ⟨o.identifier, s!"gen_{o.identifier}", o.kind, .option o⟩

/-- The parameters for the values of a command. -/
def Leaf.slots (l : Leaf) : List Slot :=
  l.arguments.mapIdx Argument.slot ++ l.flags.mapIdx Flag.slot ++ commonOptions.map commonSlot

/-- The meanings of the names in the definition of a command. -/
def Leaf.bindings (l : Leaf) : List (String × Meaning) :=
  (typeName contextName, .context) :: l.slots.flatMap Slot.bindings ++ [(calleeName, .callee)]

/-- The definition of a command of an API. -/
def Leaf.definition (api : String) (l : Leaf) : Definition where
  title := s!"<ontap:{api}:{l.name}>"
  name :=
    let owner := slug api
    let command := slug l.name
    s!"_cmd_{owner}_{command}"
  formals := ⟨contextName, typeName contextName, none⟩ :: l.slots.map Slot.formal
  bindings := Entries.ofList l.bindings

/-! ### Accepting definitions -/

/-- A character of an identifier that may also come first. -/
def isLeadingChar (c : Char) : Bool := c.isAlpha || c == '_'

/-- A character of an identifier that may not come first. -/
def isTrailingChar (c : Char) : Bool := isLeadingChar c || c.isDigit

/-- ASCII letters, digits and underscores, no digit being the first of them. -/
def isIdentifierShaped : List Char → Bool
  | [] => false
  | c :: cs => isLeadingChar c && cs.all isTrailingChar

/-- Words that name something already wherever they stand. -/
def constants : List String := ["False", "None", "True", "__debug__"]

/-- A name that a definition may use. -/
def isIdentifier (name : String) : Bool :=
  isIdentifierShaped name.toList && !keywords.contains name && !constants.contains name

/-- Why a definition is not accepted. -/
inductive Rejection where
  /-- There is a zero character in the title. -/
  | zeroCharacter
  | noIdentifier (name : String)
  | repeatedParameter (name : String)
deriving DecidableEq, Repr

/-- The text of a rejection.  It refers to a definition by what follows the last slash in its title. -/
def Rejection.message (title : String) (r : Rejection) : String :=
  let place := ((Text.split '/' title).getLast?).getD ""
  match r with
  | zeroCharacter => "embedded null character"
  | noIdentifier _ => s!"invalid syntax ({place}, line 1)"
  | repeatedParameter name =>
    s!"duplicate argument '{name}' in function definition ({place}, line 1)"

/-- The first name that has stood before, or is among the names `seen`. -/
def firstRepeated? (seen : List String) : List String → Option String
  | [] => none
  | name :: names =>
    if seen.contains name then some name else firstRepeated? (name :: seen) names

/-- The names that a parameter brings into a definition. -/
def Formal.names (f : Formal) : List String := f.name :: f.type :: f.default?.toList

namespace Definition

/-- The names in a definition. -/
def names (d : Definition) : List String := d.name :: calleeName :: d.formals.flatMap Formal.names

/-- Why a definition is not accepted, if it is not. -/
def rejection? (d : Definition) : Option Rejection :=
  if d.title.toList.contains '\x00' then some .zeroCharacter
  else match d.names.find? (!isIdentifier ·) with
    | some name => some (.noIdentifier name)
    | none => (firstRepeated? [] (d.formals.map (·.name))).map .repeatedParameter

/-! ### Reading definitions -/

/-- What a name in a definition stands for. -/
def meaning (d : Definition) (name : String) : Except Defect Meaning :=
  match Entries.get? d.bindings name with
  | some m => .ok m
  | none => .error .missingKey

/-- What a parameter stands for: its name, its type and its default. -/
def parameter (d : Definition) (f : Formal) : Except Defect (String × Meaning × Option Meaning) := do
  let type ← d.meaning f.type
  match f.default? with
  | some name => return (f.name, type, some (← d.meaning name))
  | none => return (f.name, type, none)

/-- The argument that a parameter is. -/
def argument? : String × Meaning × Option Meaning → Option ArgumentDecl
  | (name, .type _, some (.argument a)) => some { a with identifier := name }
  | _ => none

/-- The option that a parameter is. -/
def option? : String × Meaning × Option Meaning → Option OptionDecl
  | (name, .type kind, some (.option o)) => some { o with identifier := name, kind }
  | _ => none

/-- What may follow the name of the command that is defined. -/
def interface (d : Definition) : Except Defect Interface := do
  let parameters ← d.formals.mapM d.parameter
  return {
    arguments := parameters.filterMap argument?
    options := parameters.filterMap option? }

end Definition

/-! ### Commands that can be called -/

/-- The command, unless its definition is not accepted. -/
def Leaf.usable? (api group : String) (l : Leaf) : Run (Option Leaf) := do
  let d := l.definition api
  match d.rejection? with
  | some rejection =>
    let reason := rejection.message d.title
    note .warning s!"Skipping command {group} {l.name}: {reason}"
    return none
  | none =>
    let _ ← orStop d.interface
    return some l

/-- Leave out the commands of a group that cannot be called. -/
def Group.usable (api : String) (g : Group) : Run Group := do
  let commands ← g.commands.mapM (Leaf.usable? api g.name)
  return { g with commands := commands.filterMap id }

/-- Leave out the commands that cannot be called. -/
def Tree.usable (t : Tree) : Run Tree := do
  let groups ← t.groups.mapM (Group.usable t.name)
  return { t with groups }

end ApiShell.Command
