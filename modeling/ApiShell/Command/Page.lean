import ApiShell.Command.Tree
import ApiShell.CommandLine.Interface
import ApiShell.Markup.Basic

/-!
# What commands take and show

A command takes its arguments, its flags, and the options that every command has.  Its help texts come
from a description, so nothing in them counts as markup.
-/

namespace ApiShell.Command

open CommandLine (OptionDecl ArgumentDecl Interface)

/-- The argument on a command line. -/
def Argument.declaration (a : Argument) : ArgumentDecl :=
  { identifier := a.identifier
    shownName := a.name
    help := Markup.escape a.help }

/-- The default of a flag that may be left out; an empty list is none. -/
def Flag.shownDefault? (f : Flag) : Option FlagValue :=
  if f.required then none
  else match f.default with
    | .stringList [] => none
    | v => some v

/-- The flag on a command line.  A name with a negative form beside it ends before a blank. -/
def Flag.declaration (f : Flag) : OptionDecl :=
  { identifier := f.identifier
    names := [if f.hasNegativeForm then Text.trimRight s!"--{f.name}" else s!"--{f.name}"]
    negativeNames := if f.hasNegativeForm then [s!"--no-{f.name}"] else []
    kind := f.kind
    default := f.shownDefault?
    help := Markup.escape f.help
    showsDefault := !f.required }

/-- The option that names an output format. -/
def outputOption : OptionDecl :=
  { identifier := "output"
    names := ["--output", "-o"]
    kind := .string
    help := "Output format: json, yaml, csv, text, table." }

/-- The option that names a file for the output. -/
def saveOption : OptionDecl :=
  { identifier := "save", names := ["--save"], kind := .string, help := "Write output to a file." }

/-- The option that names fields of the response. -/
def extractOption : OptionDecl :=
  { identifier := "extract"
    names := ["--extract"]
    kind := .stringList
    help := "Dot-path field(s) to extract. Repeatable or comma-separated." }

/-- The option that selects a part of the response. -/
def filterOption : OptionDecl :=
  { identifier := "filter"
    names := ["--filter"]
    kind := .string
    help := "Dot-path to select from the response." }

/-- The options that every command has. -/
def commonOptions : List OptionDecl :=
  [{ identifier := "data", names := ["--data", "-d"], kind := .string
     help := "Request body: JSON string, or @file." },
   { identifier := "header", names := ["--header", "-H"], kind := .stringList
     help := "Extra header as key:value. Repeatable." },
   { identifier := "query", names := ["--query", "-q"], kind := .stringList
     help := "Extra query parameter as key=value. Repeatable." },
   { identifier := "form", names := ["--form", "-F"], kind := .stringList
     help := "Form field as key=value or key=@file. Repeatable." },
   { identifier := "auth", names := ["--auth", "-a"], kind := .string
     help := "Auth override: user:pass, 'Bearer <token>' or an API key." },
   { identifier := "content_type", names := ["--content-type", "-t"], kind := .string
     help := "Content-Type header for the request body." },
   outputOption, saveOption, extractOption, filterOption,
   { identifier := "verbose", names := ["--verbose", "-v"], kind := .bool
     default := some (.bool false), help := "Log request details." },
   { identifier := "dry_run", names := ["--dry-run"], kind := .bool
     default := some (.bool false), help := "Build the request but do not send it." }]

/-- What may follow the name of a command. -/
def Leaf.interface (l : Leaf) : Interface :=
  { arguments := l.arguments.map Argument.declaration
    options := l.flags.map Flag.declaration ++ commonOptions }

/-- A help text that holds no markup. -/
def shownHelp (help : String) : String := Text.dedent (Markup.escape help)

/-- How a command is called, at the end of its help page. -/
def Leaf.epilog (l : Leaf) : String := Markup.escape s!"Usage: {l.usage}"

end ApiShell.Command
