import ApiShell.Command.Flag
import ApiShell.Entries
import ApiShell.Text.Shorten

/-!
# The command tree

The endpoints of an API become a tree of commands: the API, below it a group for each first tag, and
in a group a command for each endpoint.  Deprecated endpoints are left out; of two commands of one
name in a group the first one stays.
-/

namespace ApiShell.Command

open Spec (Endpoint Parameter)

/-- The group of endpoints without a tag. -/
def defaultTag : String := "default"

/-- A command: one endpoint with its arguments and flags. -/
structure Leaf where
  name : String
  help : String
  endpoint : Endpoint
  usage : String
  arguments : List Argument
  flags : List Flag

/-- The commands under one tag. -/
structure Group where
  name : String
  help : String
  commands : List Leaf

/-- The commands of an API. -/
structure Tree where
  name : String
  help : String
  groups : List Group

/-- The group of a name. -/
def Tree.group? (tree : Tree) (name : String) : Option Group := tree.groups.find? (·.name == name)

/-- The command of a name. -/
def Group.command? (g : Group) (name : String) : Option Leaf := g.commands.find? (·.name == name)

/-- The name of an endpoint's command: the name of the operation, or the method and the path with
hyphens for slashes. -/
def commandName (e : Endpoint) : String :=
  if e.operationId ≠ "" then e.operationId
  else
    let path := (e.path.toList.map fun c => if c = '/' then '-' else c).dropWhile (· == '-')
    let name := (Text.lower e.method.name).toList ++ '-' :: path
    String.ofList (Text.trimOf (· == '-') name)

/-- How a command is called: its name and, in brackets, its arguments. -/
def usageFor (name : String) (arguments : List String) : String :=
  if arguments.isEmpty then name
  else
    let all := Text.join " " arguments
    s!"{name} [{all}]"

/-- The descriptions of tags in a document.  Later entries replace earlier ones. -/
def tagDescriptions (document : Value) : List (String × String) :=
  match (document.getD "tags").orElse (.list []) with
  | .list tags =>
    tags.foldl (fun known t =>
      let name := t.getD "name"
      let description := t.getD "description"
      if name.isGiven && description.isGiven then
        Entries.put known name.display description.display
      else known) []
  | _ => []

/-- The width to which the first line of a description is shortened. -/
def summaryWidth : Nat := 80

/-- The help text of an endpoint's command: summary, description, then method and path. -/
def helpText (e : Endpoint) : String :=
  let method := e.method.name
  let target := s!"{method} {e.path}"
  let about :=
    if e.summary ≠ "" then
      if e.description ≠ "" then [e.summary, "", e.description] else [e.summary]
    else if e.description ≠ "" then
      let firstLine := String.ofList (e.description.toList.takeWhile (· != '\n'))
      [Text.shorten summaryWidth firstLine]
    else []
  Text.join "\n" (if about.isEmpty then [target] else about ++ ["", target])

/-- The parameters of an endpoint sorted into arguments and flags so far. -/
structure Sorted where
  identifiers : List String := reservedIdentifiers
  optionNames : List String := reservedFlags
  seen : List (String × Spec.Location) := []
  arguments : List Argument := []
  flags : List Flag := []

/-- Sort in one more parameter of the command `name`. -/
def Sorted.add (name : String) (s : Sorted) (p : Parameter) : Run Sorted := do
  let location := p.location.name
  if s.seen.contains (p.name, p.location) then
    note .warning s!"{name}: ignoring duplicate {location} parameter '{p.name}'"
    return s
  let s := { s with seen := (p.name, p.location) :: s.seen }
  if p.location = .path then
    let argument ← argumentFor p s.identifiers
    return { s with
      identifiers := argument.identifier :: s.identifiers
      arguments := s.arguments ++ [argument] }
  match flagRefusal? p with
  | some refusal =>
    let reason := refusal.message
    note .warning s!"{name}: skipping flag: {reason}"
    return s
  | none =>
    let flag ← flagFor p s.identifiers
    match flag.optionNames.find? s.optionNames.contains with
    | some clash =>
      note .warning
        s!"{name}: skipping {location} parameter '{p.name}', flag --{clash} is already taken"
      return s
    | none =>
      return { s with
        identifiers := flag.identifier :: s.identifiers
        optionNames := flag.optionNames ++ s.optionNames
        flags := s.flags ++ [flag] }

/-- The command of an endpoint. -/
def compileEndpoint (e : Endpoint) : Run Leaf := do
  let name := commandName e
  let sorted ← e.parameters.foldlM (Sorted.add name) {}
  return {
    name
    help := helpText e
    endpoint := e
    usage := usageFor name (sorted.arguments.map (·.name))
    arguments := sorted.arguments
    flags := sorted.flags }

/-- The group of an endpoint. -/
def groupName (e : Endpoint) : String :=
  match e.tags with
  | tag :: _ => if tag = "" then defaultTag else tag
  | [] => defaultTag

/-- Put an endpoint into its group; new groups come last. -/
def putInGroup (groups : List (String × List Endpoint)) (e : Endpoint) :
    List (String × List Endpoint) :=
  let name := groupName e
  if groups.any (·.1 == name) then
    groups.map fun g => if g.1 == name then (g.1, g.2 ++ [e]) else g
  else groups ++ [(name, [e])]

/-- Drop the deprecated endpoints and group the others. -/
def groupEndpoints (endpoints : List Endpoint) : Run (List (String × List Endpoint)) :=
  endpoints.foldlM (fun groups e =>
    if e.deprecated then do
      let method := e.method.name
      note .debug s!"Omitting deprecated {method} {e.path}"
      return groups
    else return putInGroup groups e) []

/-- Add the command of an endpoint to those of its group. -/
def addCommand (group : String) (commands : List Leaf) (e : Endpoint) : Run (List Leaf) := do
  let leaf ← compileEndpoint e
  if commands.any (·.name == leaf.name) then
    let method := e.method.name
    note .warning
      s!"Skipping {method} {e.path}: command '{leaf.name}' already exists under '{group}'"
    return commands
  return commands ++ [leaf]

/-- Compile one group. -/
def compileGroup (tagHelp : List (String × String)) (group : String × List Endpoint) :
    Run Group := do
  let commands ← group.2.foldlM (addCommand group.1) []
  let help := (Entries.get? tagHelp group.1).getD ""
  return {
    name := group.1
    help := if help = "" then s!"Operations tagged '{group.1}'." else help
    commands }

/-- The command tree of an API. -/
def compile (api : String) (endpoints : List Endpoint) (tagHelp : List (String × String))
    (help : String) : Run Tree := do
  let groups ← groupEndpoints endpoints
  let groups ← groups.mapM (compileGroup tagHelp)
  return {
    name := api
    help := if help = "" then s!"Commands for the {api} API." else help
    groups }

end ApiShell.Command
