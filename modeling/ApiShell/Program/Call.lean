import ApiShell.Command.Page
import ApiShell.CommandLine.Binding
import ApiShell.Http.Exchange
import ApiShell.Output.Format
import ApiShell.Request.Build
import ApiShell.Response.DotPath
import ApiShell.Response.Status

/-!
# Calls

A command that was read from a command line makes a call: a request, and what is to be done with the
response.  A call is complete before anything is sent, so whatever is wrong with it leaves no trace.
-/

namespace ApiShell.Program

open Command (Leaf Flag FlagValue)
open CommandLine (Values)
open Request (BoundParameter)

/-- The value that a parameter is sent with. -/
def parameterValue : FlagValue → Value
  | .string s => .text s
  | .integer n => .int n
  | .bool b => .bool b
  | .stringList xs => .list (xs.map .text)

/-- The parameter of a flag, if it is to be sent: when the flag was given or its default is declared.  A
required flag has to be given. -/
def bindFlag (values : Values) (f : Flag) : Except Failure (Option BoundParameter) :=
  let parameter (v : FlagValue) : BoundParameter := ⟨f.name, f.location, parameterValue v⟩
  match values.given? f.identifier with
  | some v => .ok (some (parameter v))
  | none =>
    if f.required then .error (.missingRequiredFlag f.name)
    else if f.declaredDefault then .ok ((values.get? f.identifier).map parameter)
    else .ok none

/-- The parameters that are sent, in the order of the flags. -/
def bindFlags (values : Values) (flags : List Flag) : Except Failure (List BoundParameter) :=
  (flags.mapM (bindFlag values)).map fun bound => bound.filterMap id

/-- The values of the path parameters. -/
def pathValues (values : Values) (l : Leaf) : List (String × String) :=
  l.arguments.map fun a => (a.name, (values.text? a.identifier).getD "")

/-- Everything that a user gave to a command. -/
def inputsOf (values : Values) (l : Leaf) (parameters : List BoundParameter) : Request.Inputs :=
  { pathValues := pathValues values l
    parameters
    data := values.text? "data"
    headers := values.texts "header"
    queries := values.texts "query"
    forms := values.texts "form"
    auth := values.text? "auth"
    contentType := values.text? "content_type" }

/-- What the words behind the program and those behind the command say.  An option of both counts where
the command was given it. -/
structure Choices where
  outer : Values
  inner : Values

namespace Choices

/-- The value of an option of both. -/
def get? (c : Choices) (identifier : String) : Option FlagValue :=
  match c.inner.given? identifier with
  | some v => some v
  | none => c.outer.get? identifier

/-- The text of an option of both; empty where it is not given. -/
def text (c : Choices) (identifier : String) : String :=
  match c.get? identifier with
  | some (.string s) => s
  | _ => ""

/-- The texts of an option of both. -/
def texts (c : Choices) (identifier : String) : List String :=
  match c.get? identifier with
  | some (.stringList all) => all
  | _ => []

/-- A switch of both is on. -/
def isOn (c : Choices) (identifier : String) : Bool :=
  c.inner.isOn identifier || c.outer.isOn identifier

end Choices

/-- The format of the output unless the user or the settings say otherwise. -/
def defaultFormat : String := "json"

/-- The name of the output format: what the user says, else what the settings say. -/
def formatName (c : Choices) (api : ApiConfig) : String :=
  let named := c.text "output"
  if named ≠ "" then named else if api.output ≠ "" then api.output else defaultFormat

/-- A call. -/
structure Call where
  request : Request.Descriptor
  format : Output.Format
  /-- The file for the output; empty for the screen. -/
  save : String
  fields : List String
  /-- The path of the part that is shown; empty for everything. -/
  selected : String
  isDry : Bool

namespace Call

/-- Make the call of a command. -/
def make (host : Host) (api : ApiConfig) (l : Leaf) (c : Choices) : Run Call := do
  let format ← match Output.Format.ofName (formatName c api) with
    | .ok format => pure format
    | .error failure => stop failure
  let parameters ← match bindFlags c.inner l.flags with
    | .ok parameters => pure parameters
    | .error failure => stop failure
  let request ← Request.buildRequest host l.endpoint (inputsOf c.inner l parameters) api
  return {
    request
    format
    save := c.text "save"
    fields := Response.splitFields (c.texts "extract")
    selected := c.text "filter"
    isDry := c.isOn "dry_run" }

/-- The part of a successful response that is to be shown: first the fields, then what is selected. -/
def part (call : Call) (data : Value) : Run Value := do
  let data ← if call.fields.isEmpty then pure data
    else do
      let found ← (Response.extractFields data call.fields : Logger _)
      pure (Value.ofFields found)
  if call.selected = "" then return data
  match Response.lookup data call.selected with
  | .ok v => return v
  | .error failure => stop failure

/-- What is shown of a response; null is not shown. -/
def shown (call : Call) (width : Nat) (r : Http.Response) : Run (Option String) := do
  let data ← (Response.decodeBody r.body : Logger Value)
  let data ← if Response.isSuccess r.status then call.part data else pure data
  if data.isNull then return none
  match call.format.write width data with
  | .ok text => return some text
  | .error defect => stop defect

end Call

end ApiShell.Program
