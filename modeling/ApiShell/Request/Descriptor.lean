import ApiShell.Json.Writer
import ApiShell.Spec.Endpoint
import ApiShell.Text.Lower

/-!
# Request descriptors

A request with everything resolved, ready to be sent or reported.  Its headers stand in the order in
which they were last set.  The names of headers are the same when they differ only in case: setting a
header takes away the header of the same name.  In a report the values of headers that carry secrets are
masked.
-/

namespace ApiShell.Request

/-- Headers, no two of the same name. -/
abbrev Headers := List (String × String)

/-- Two names name the same header. -/
def sameHeader (a b : String) : Bool := Text.lower a == Text.lower b

/-- Whether a header is set. -/
def hasHeader (headers : Headers) (name : String) : Bool := headers.any (sameHeader ·.1 name)

/-- Set a header. -/
def setHeader (headers : Headers) (name value : String) : Headers :=
  headers.filter (fun h => !sameHeader h.1 name) ++ [(name, value)]

/-- Set several headers, one after the other. -/
def setHeaders (headers : Headers) (more : List (String × String)) : Headers :=
  more.foldl (fun hs h => setHeader hs h.1 h.2) headers

/-- A file of a form. -/
structure FormFile where
  field : String
  filename : String
  content : List UInt8

/-- The body of a request. -/
inductive Body where
  | none
  | json (v : Value)
  | form (fields : List (String × String)) (files : List FormFile)

/-- A request. -/
structure Descriptor where
  method : Spec.Method
  url : String
  path : String
  query : List (String × String)
  headers : Headers
  body : Body

/-- The headers whose values are masked. -/
def secretHeaders : List String := ["authorization", "cookie", "proxy-authorization"]

/-- The line of a header in a report. -/
def headerLine (name value : String) : String :=
  let shown := if secretHeaders.contains (Text.lower name) then "***" else value
  s!"  header {name}: {shown}"

/-- The lines of a body in a report. -/
def Body.lines : Body → List String
  | .none => []
  | .json v =>
    match Json.asciiLine.write v with
    | .ok text => [s!"  body   {text}"]
    | .error _ => []
  | .form fields files =>
    fields.map (fun f => s!"  form   {f.1}={f.2}") ++
      files.map fun f =>
        let size := f.content.length
        s!"  form   {f.field}=@{f.filename} ({size} bytes)"

/-- The report of a request. -/
def Descriptor.describe (d : Descriptor) : List String :=
  let method := d.method.name
  [s!"{method} {d.url}"] ++ d.query.map (fun q => s!"  query  {q.1}={q.2}") ++
    d.headers.map (fun h => headerLine h.1 h.2) ++ d.body.lines

end ApiShell.Request
