import ApiShell.Config.Api
import ApiShell.Json.Reader
import ApiShell.Request.Credential
import ApiShell.Request.Descriptor
import ApiShell.Request.Inputs
import ApiShell.Request.Template

/-!
# Building requests

An endpoint, the inputs of the user and the settings of the API make a request.  Headers come from
several sources; a later source replaces what an earlier one says: the defaults, the settings, the
credential, header parameters, cookies, `--header` and `--content-type`.
-/

namespace ApiShell.Request

open Spec (Endpoint Location)

/-- The version of the program. -/
def programVersion : String := "0.3.0"

/-- The name under which the program sends requests. -/
def userAgent : String := s!"ontap/{programVersion}"

/-- Cut an entry at its first separator and trim both sides; there has to be a key. -/
def splitPair (entry : String) (sep : Char) (flag expected : String) :
    Except RequestError (String × String) :=
  match Text.cut? sep entry with
  | some (key, value) =>
    if Text.trim key = "" then .error (.malformedPair flag entry expected)
    else .ok (Text.trim key, Text.trim value)
  | none => .error (.malformedPair flag entry expected)

/-- Read an entry of `--header`. -/
def parseHeader (entry : String) : Except RequestError (String × String) :=
  splitPair entry ':' "--header" "key:value"

/-- Read an entry of `--query`. -/
def parseQuery (entry : String) : Except RequestError (String × String) :=
  splitPair entry '=' "--query" "key=value"

/-- Read an entry of `--form`. -/
def parseForm (entry : String) : Except RequestError (String × String) :=
  splitPair entry '=' "--form" "key=value or key=@file"

/-- The path of a file that a flag names, and its content. -/
def readNamedFile (host : Host) (name : String) : Except Fault (Host.Path × List UInt8) := do
  let path ← (host.expandUser (.ofText name)).mapError .defect
  if Host.hasZero path then .error Host.zeroDefect
  else match host.read path with
    | .ok content => .ok (path, content)
    | .error fault => .error (RequestError.unreadableFile path.text fault.reason)

/-- The JSON value of a text. -/
def parseJson (source text : String) : Except Fault Value :=
  (Json.readText text).mapError fun problem => RequestError.invalidJson source problem

/-- Read the value of `--data`: JSON, or the name of a file behind an at sign. -/
def parseData (host : Host) (raw : String) : Except Fault Value :=
  match raw.toList with
  | '@' :: name => do
    let (path, content) ← readNamedFile host (String.ofList name)
    match Text.ofUtf8? content with
    | some cs => parseJson path.text (String.ofList cs)
    | none => .error Defect.notUnicode
  | _ => parseJson "--data" raw

/-- The text of one value of a parameter. -/
def parameterText : Value → String
  | .bool b => if b then "true" else "false"
  | v => v.display

/-- The texts of the values of a parameter. -/
def parameterTexts : Value → List String
  | .list vs => vs.map parameterText
  | .pair a b => [parameterText a, parameterText b]
  | v => [parameterText v]

/-- The query pairs of the parameters. -/
def parameterQuery (parameters : List BoundParameter) : List (String × String) :=
  (parameters.filter (·.location = .query)).flatMap fun p =>
    (parameterTexts p.value).map fun v => (p.name, v)

/-- The headers of the parameters. -/
def parameterHeaders (parameters : List BoundParameter) : List (String × String) :=
  (parameters.filter (·.location = .header)).map fun p =>
    (p.name, Text.join ", " (parameterTexts p.value))

/-- The cookies of the parameters. -/
def parameterCookies (parameters : List BoundParameter) : List String :=
  (parameters.filter (·.location = .cookie)).flatMap fun p =>
    (parameterTexts p.value).map fun v => s!"{p.name}={v}"

/-- The header that carries the cookies, if there are some. -/
def cookieHeader (parameters : List BoundParameter) : List (String × String) :=
  let cookies := parameterCookies parameters
  if cookies.isEmpty then [] else [("Cookie", Text.join "; " cookies)]

/-- The headers that every request starts with. -/
def defaultHeaders : Headers := [("User-Agent", userAgent), ("Accept", "application/json")]

/-- The credential to use: the one that the user gave, else that of the settings. -/
def Inputs.credential (inputs : Inputs) (api : ApiConfig) : String := inputs.auth.getD api.auth

/-- Everything that sets headers before the user's own ones, in order. -/
def sourceHeaders (host : Host) (inputs : Inputs) (api : ApiConfig) : List (String × String) :=
  api.headers ++ (resolveAuth host (inputs.credential api) api.apiKeyHeader).toList ++
    parameterHeaders inputs.parameters ++ cookieHeader inputs.parameters

/-- Read an entry of a form into its fields or its files. -/
def addFormEntry (host : Host) (form : List (String × String) × List FormFile) (entry : String) :
    Except Fault (List (String × String) × List FormFile) := do
  let (key, value) ← (parseForm entry).mapError fun e => Fault.failure (.request e)
  match value.toList with
  | '@' :: name =>
    let (path, content) ← readNamedFile host (String.ofList name)
    return (form.1, form.2 ++ [⟨key, path.name, content⟩])
  | _ => return (form.1 ++ [(key, value)], form.2)

/-- The body of a request.  A form goes before data. -/
def buildBody (host : Host) (inputs : Inputs) : Except Fault Body :=
  if !inputs.forms.isEmpty then
    (inputs.forms.foldlM (addFormEntry host) ([], [])).map fun form => .form form.1 form.2
  else match inputs.data with
    | some raw => (parseData host raw).map .json
    | none => .ok .none

/-- The headers of a request with its body: data is JSON unless a header says otherwise, and the user's
content type comes last. -/
def bodyHeaders (headers : Headers) (body : Body) (contentType : Option String) : Headers :=
  let headers := match body with
    | .json _ =>
      if hasHeader headers "Content-Type" then headers
      else headers ++ [("Content-Type", "application/json")]
    | _ => headers
  match contentType with
  | some t => if t = "" then headers else setHeader headers "Content-Type" t
  | none => headers

/-- The request as far as it does not depend on files. -/
def buildHead (host : Host) (endpoint : Endpoint) (inputs : Inputs) (api : ApiConfig) :
    Except RequestError Descriptor := do
  if api.url = "" then throw .noBaseUrl
  let path ← substitute endpoint.path inputs.pathValues
  let queries ← inputs.queries.mapM parseQuery
  let headers ← inputs.headers.mapM parseHeader
  let base := String.ofList (Text.trimRightOf (· == '/') api.url.toList)
  return {
    method := endpoint.method
    url := base ++ path
    path
    query := parameterQuery inputs.parameters ++ queries
    headers := setHeaders (setHeaders defaultHeaders (sourceHeaders host inputs api)) headers
    body := .none }

/-- Build a request. -/
def buildRequest (host : Host) (endpoint : Endpoint) (inputs : Inputs) (api : ApiConfig) :
    Run Descriptor := do
  match buildHead host endpoint inputs api with
  | .error e => stop e
  | .ok head =>
    if !inputs.forms.isEmpty && inputs.data.isSome then
      note .warning "Both --form and --data given; sending form data only"
    match buildBody host inputs with
    | .error fault => stop fault
    | .ok body =>
      return { head with body, headers := bodyHeaders head.headers body inputs.contentType }

end ApiShell.Request
