import ApiShell.Checked
import ApiShell.Entries
import ApiShell.Time.DurationText

/-!
# The settings of an API

An API is configured by the place of its description, the address that requests go to, a credential,
headers and a few defaults.  Settings of other names are kept as they are.
-/

namespace ApiShell

/-- The settings of one API. -/
structure ApiConfig where
  apispec : String
  url : String
  auth : String
  cacheTtl : String
  output : String
  headers : List (String × String)
  apiKeyHeader : String
  /-- Settings of other names. -/
  extra : List (String × Value)

namespace ApiConfig

/-- How long a description stays in the cache unless the settings say otherwise. -/
def defaultTtl : String := "24h"

/-- The header of a key unless the settings say otherwise. -/
def defaultKeyHeader : String := "X-API-Key"

/-- The names of the settings that are not extra. -/
def knownNames : List String :=
  ["apispec", "url", "auth", "cache_ttl", "output", "headers", "api_key_header"]

/-- A text setting with a default. -/
def textSetting (fields : List (Scalar × Value)) (location : List String) (name default : String) :
    Checked String :=
  match Value.field? fields name with
  | some v => Checked.text (location ++ [name]) v
  | none => .ok default

/-- The time to live, shown as a text.  What cannot be read as a duration is a faulty field. -/
def ttlSetting (fields : List (Scalar × Value)) (location : List String) : Checked String :=
  match Value.field? fields "cache_ttl" with
  | none => .ok defaultTtl
  | some v =>
    match Time.durationOf v with
    | .ok _ => .ok v.display
    | .error _ => Checked.fault (location ++ ["cache_ttl"]) "value_error"

/-- The defect that reading a time to live runs into, unless it is a faulty value. -/
def ttlDefect? (fields : List (Scalar × Value)) : Option Defect :=
  match (Value.field? fields "cache_ttl").map Time.durationOf with
  | some (.error e) => match e.defect with
    | .badValue _ => none
    | d => some d
  | _ => none

/-- The headers, texts under texts. -/
def headersSetting (fields : List (Scalar × Value)) (location : List String) :
    Checked (List (String × String)) :=
  match Value.field? fields "headers" with
  | some v => Checked.texts (location ++ ["headers"]) v
  | none => .ok []

/-- The key writes the name of a setting that is not extra, and that setting is given. -/
def isKnown (fields : List (Scalar × Value)) (key : Scalar) : Bool :=
  match Checked.text [] (.scalar key) with
  | .ok name => knownNames.contains name && (Value.field? fields name).isSome
  | .error _ => false

/-- The settings of other names, which have to be texts. -/
def extraSettings (fields : List (Scalar × Value)) (location : List String) :
    Checked (List (String × Value)) :=
  let unknown := fields.filter fun f => !isKnown fields f.1
  (Checked.each (fun f => match Checked.text [] (.scalar f.1) with
    | .ok name => .ok (name, f.2)
    | .error _ => Checked.fault (location ++ [Checked.keyText f.1]) "invalid_key") unknown).map
    Entries.ofList

/-- Check the settings of an API.  Only the place of the description has no default. -/
def check (location : List String) (v : Value) : Checked ApiConfig :=
  match v with
  | .mapping fields =>
    let apispec := match Value.field? fields "apispec" with
      | some v => Checked.text (location ++ ["apispec"]) v
      | none => Checked.fault (location ++ ["apispec"]) "missing"
    let checked := apispec.map ApiConfig.mk
    let checked := Checked.next checked (textSetting fields location "url" "")
    let checked := Checked.next checked (textSetting fields location "auth" "")
    let checked := Checked.next checked (ttlSetting fields location)
    let checked := Checked.next checked (textSetting fields location "output" "json")
    let checked := Checked.next checked (headersSetting fields location)
    let checked := Checked.next checked
      (textSetting fields location "api_key_header" defaultKeyHeader)
    Checked.next checked (extraSettings fields location)
  | _ => Checked.fault location "model_type"

/-- The defect that checking the settings of an API runs into, if it does. -/
def defect? : Value → Option Defect
  | .mapping fields => ttlDefect? fields
  | _ => none

/-- Read the settings of an API. -/
def read (v : Value) : Except Defect ApiConfig :=
  match defect? v with
  | some d => .error d
  | none => (check [] v).orDefect

/-- The time to live. -/
def ttl (c : ApiConfig) : Except Defect Time.Duration :=
  (Time.durationOfText c.cacheTtl).mapError Time.DurationError.defect

/-- The settings as a mapping, known names first. -/
def toValue (c : ApiConfig) : Value :=
  .ofFields ([("apispec", .text c.apispec), ("url", .text c.url), ("auth", .text c.auth),
    ("cache_ttl", .text c.cacheTtl), ("output", .text c.output),
    ("headers", .ofFields (c.headers.map fun h => (h.1, .text h.2))),
    ("api_key_header", .text c.apiKeyHeader)] ++ c.extra)

end ApiConfig

end ApiShell
