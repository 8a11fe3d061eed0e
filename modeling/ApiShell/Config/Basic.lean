import ApiShell.Config.Api
import ApiShell.Host.Replacement
import ApiShell.Json.Plain
import ApiShell.Spec.Content
import ApiShell.Yaml.Writer

/-!
# Configurations

A configuration names APIs and gives the settings of each.  It is kept in a YAML file: a file that is
not there counts as a configuration without APIs, and one that cannot be understood is refused.
-/

namespace ApiShell

/-- A configuration: the settings of each API, in the order of the file. -/
structure Config where
  apis : List (String × ApiConfig)

namespace Config

/-- The configuration without APIs. -/
def empty : Config := ⟨[]⟩

/-- The configuration to start with. -/
def starter : Config :=
  ⟨[("example-api",
    { apispec := "./openapi.yaml"
      url := "http://api.example.com"
      auth := "user:pass"
      cacheTtl := "24h"
      output := "json"
      headers := [("X-Client", "ontap")]
      apiKeyHeader := ApiConfig.defaultKeyHeader
      extra := [] })]⟩

/-- Check a configuration.  Fields other than `apis` count for nothing. -/
def check (v : Value) : Checked Config :=
  match v with
  | .mapping fields => match Value.field? fields "apis" with
    | some apis => (Checked.mapping ApiConfig.check ["apis"] apis).map Config.mk
    | none => .ok empty
  | _ => Checked.fault [] "model_type"

/-- The defect that checking a configuration runs into, if it does: that of the first API that has
one. -/
def defect? (v : Value) : Option Defect :=
  match v.get? "apis" with
  | some (.mapping apis) => apis.findSome? fun api => ApiConfig.defect? api.2
  | _ => none

/-- The configuration that a value holds. -/
def ofValue (v : Value) : Except Defect Config :=
  match defect? v with
  | some d => .error d
  | none => (check v).orDefect

/-- The value with an empty mapping of APIs where it names none. -/
def withApis (fields : List (Scalar × Value)) : Value :=
  match Value.field? fields "apis" with
  | none | some .null => .mapping (Value.putField fields (.text "apis") (.mapping []))
  | _ => .mapping fields

/-- The configuration that a text holds; `path` is where the text was found. -/
def parse (path : String) (text : List Char) : Except Fault Config :=
  match Yaml.read text with
  | .error trouble => .error (trouble.fault fun problem => ConfigError.invalid path problem)
  | .ok .null => .ok empty
  | .ok (.mapping fields) =>
    let v := withApis fields
    match defect? v with
    | some d => .error d
    | none => (check v).mapError fun faults => ConfigError.invalid path (fieldFaultsText faults)
  | .ok _ => .error (ConfigError.invalid path "top level must be a mapping")

/-- Load the configuration at a path. -/
def load (host : Host) (path : Host.Path) : Except Fault Config := do
  if !(← (host.isFile path).mapError .defect) then return empty
  match host.readText path with
  | .error fault => throw (ConfigError.invalid path.text fault.reason : Fault)
  | .ok none => throw (Defect.notUnicode : Fault)
  | .ok (some cs) => parse path.text cs

/-- The configuration as a value. -/
def toValue (c : Config) : Value :=
  .ofFields [("apis", .ofFields (c.apis.map fun api => (api.1, api.2.toValue)))]

/-- The text of a configuration file. -/
def text (c : Config) : Except Defect String := c.toValue.plain.map (Yaml.write false)

/-- Save a configuration; the file has either its old content or the new one. -/
def save (c : Config) (hazards : Host.Hazards) (token : String) (path : Host.Path) :
    Host.Task Unit := do
  match c.text with
  | .ok s => Host.replace hazards token path (Text.utf8 s.toList)
  | .error d => throw d

/-- The settings of an API. -/
def api (c : Config) (name : String) : Except ConfigError ApiConfig :=
  match Entries.get? c.apis name with
  | some settings => .ok settings
  | none => .error (.unknownApi name (c.apis.map Prod.fst))

end Config

end ApiShell
