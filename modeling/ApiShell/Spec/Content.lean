import ApiShell.Checked
import ApiShell.Display
import ApiShell.Fault
import ApiShell.Json.Reader
import ApiShell.Reference
import ApiShell.Yaml.Reader

/-!
# The content of a description

A description is a JSON or YAML mapping.  A hint says which of the two to expect; without one JSON is
tried first and YAML next.  The version of a description is the text of its `openapi` field.
-/

namespace ApiShell

/-- What ends the reading of a YAML text, as a defect where it is no problem of the text. -/
def Yaml.Trouble.fault (onProblem : String → Fault) : Yaml.Trouble → Fault
  | .problem p => onProblem p.message
  | .badValue message => .defect (.badValue message)
  | .outOfRange => .defect .outOfRange
  | .missingKey => .defect .missingKey
  | .missingItem => .defect .missingItem
  | .notText => .defect .notText

namespace Spec

/-- The format to expect. -/
inductive Hint where
  | json
  | yaml
  | either
deriving DecidableEq, Repr

/-- A description must be a mapping. -/
def requireMapping (v : Value) (source : String) : Except Fault Value :=
  match v with
  | .mapping fields => .ok (.mapping fields)
  | .null => .error (SpecError.notMapping source "empty document")
  | other => .error (SpecError.notMapping source other.kindName)

/-- The mapping that a YAML text holds. -/
def parseYaml (content source : String) : Except Fault Value :=
  match Yaml.read content.toList with
  | .ok v => requireMapping v source
  | .error t => .error (t.fault fun problem => SpecError.invalidYaml source problem)

/-- The mapping that a text holds. -/
def parseContent (content : String) (hint : Hint) (source : String) : Except Fault Value :=
  if hint = .yaml then parseYaml content source
  else match Json.readText content with
    | .ok v => requireMapping v source
    | .error problem =>
      if hint = .json then .error (SpecError.invalidJson source problem)
      else parseYaml content source

/-- The versions that descriptions are read as. -/
inductive Version where
  | v30
  | v31
deriving DecidableEq, Repr

/-- The text of a version. -/
def Version.text : Version → String
  | v30 => "3.0"
  | v31 => "3.1"

/-- The version of a description.  Unknown versions 3.x are read as 3.0, with a warning. -/
def detectVersion (document : Value) : Run Version :=
  match document.get? "swagger" with
  | some v => stop (SpecError.swagger v.display)
  | none =>
    let version := document.getD "openapi"
    if version.isNull then stop SpecError.missingVersion
    else
      let text := version.display
      if Text.startsWith text "3.1" then pure .v31
      else if Text.startsWith text "3.0" then pure .v30
      else if Text.startsWith text "3" then do
        note .warning s!"Unknown OpenAPI 3.x version {text}, parsing as 3.0"
        pure .v30
      else stop (SpecError.unsupportedVersion text)

/-- The location is an address on the web. -/
def isUrl (location : String) : Bool :=
  Text.startsWith location "http://" || Text.startsWith location "https://"

end Spec

end ApiShell

/-!
### Descriptions ready for use

A description is ready when its version is known and its references are replaced by what they point to.
Its fields all have texts as keys.
-/

namespace ApiShell.Spec

/-- A description that is ready for use. -/
structure Description where
  location : String
  version : String
  document : List (String × Value)

namespace Description

/-- The mapping that a description is. -/
def value (d : Description) : Value := .ofFields d.document

/-- Check the mapping of a description. -/
def checkDocument (v : Value) : Checked (List (String × Value)) :=
  Checked.mapping (fun _ field => .ok field) ["document"] v

/-- A description of a location, a version and a mapping. -/
def make (location version : String) (document : Value) : Except Defect Description :=
  Checked.orDefect ((checkDocument document).map (Description.mk location version))

/-- Make a raw document ready. -/
def ofRaw (location : String) (raw : Value) : Run Description := do
  let version ← detectVersion raw
  match Reference.resolve raw with
  | .error fault => throw fault
  | .ok document => match make location version.text document with
    | .error defect => stop defect
    | .ok d => return d

end Description

end ApiShell.Spec
