import ApiShell.Entries
import ApiShell.Spec.Endpoint

/-!
# Extracting endpoints

Walks through the paths of a description and reads every operation.  An operation that cannot be read
is skipped with a warning that gives the reason, and the others are still read.

Parameters of a path hold for all its operations; a parameter of an operation replaces the one of the
path that has the same name and place.
-/

namespace ApiShell.Spec

/-- Why an operation is skipped. -/
inductive SkipReason where
  | operationNotMapping
  | parametersNotList
  | parameterNotMapping
  | unnamedParameter
  | unsupportedLocation (name : String) (location : Value)
  | tagsNotList
  | faultyFields (faults : List FieldFault)

/-- The text of a reason. -/
def SkipReason.message : SkipReason → String
  | operationNotMapping => "operation is not a mapping"
  | parametersNotList => "'parameters' is not a list"
  | parameterNotMapping => "parameter is not a mapping"
  | unnamedParameter => "parameter without a name"
  | unsupportedLocation name location =>
    let name := Text.quoted name
    let location := location.literal
    s!"parameter {name} has unsupported location {location}"
  | tagsNotList => "'tags' is not a list"
  | faultyFields faults => fieldFaultsText faults

/-- What keeps an operation from being read. -/
inductive Obstacle where
  /-- The operation is skipped. -/
  | skip (reason : SkipReason)
  /-- The whole description is given up. -/
  | defect (d : Defect)

/-- Faulty fields are a reason to skip an operation, other defects are not. -/
def Obstacle.ofDefect : Defect → Obstacle
  | .fields faults => .skip (.faultyFields faults)
  | d => .defect d

/-- Readings that may meet an obstacle. -/
abbrev Reading := Except Obstacle

namespace Reading

/-- Give up for a reason. -/
def skip {α : Type} (reason : SkipReason) : Reading α := .error (.skip reason)

/-- Take over the result of a computation with defects. -/
def ofDefects {α : Type} (r : Except Defect α) : Reading α := r.mapError .ofDefect

/-- Take over the result of checks. -/
def ofChecked {α : Type} (c : Checked α) : Reading α := ofDefects c.orDefect

/-- The list that a value is, else a reason to skip. -/
def list (reason : SkipReason) : Value → Reading (List Value)
  | .list xs => .ok xs
  | _ => skip reason

end Reading

/-- What identifies a parameter: its name and its place. -/
structure ParameterKey where
  name : Scalar
  location : Scalar

/-- Two keys identify the same parameter. -/
def ParameterKey.same (a b : ParameterKey) : Bool :=
  a.name.same b.name && a.location.same b.location

/-- The key of a parameter, if it is a mapping. -/
def parameterKey? (raw : Value) : Reading (Option ParameterKey) :=
  match raw with
  | .mapping _ =>
    match raw.getD "name", raw.getD "in" with
    | .scalar name, .scalar location => .ok (some ⟨name, location⟩)
    | _, _ => .error (.defect .wrongKind)
  | _ => .ok none

/-- A parameter of the path is kept unless a parameter of the operation has its key. -/
def isKept (overriding : List (Option ParameterKey)) (key : Option ParameterKey) : Bool :=
  match key with
  | none => true
  | some key => !overriding.any fun k => k.any (·.same key)

/-- The parameters of an operation: those of its path that it does not override, then its own. -/
def mergeParameters (shared own : Value) : Reading (List Value) := do
  let shared ← Reading.list .parametersNotList shared
  let own ← Reading.list .parametersNotList own
  let overriding ← own.mapM parameterKey?
  let keys ← shared.mapM parameterKey?
  let kept := (shared.zip keys).filter fun p => isKept overriding p.2
  return kept.map Prod.fst ++ own

/-- A field as a text: nothing where it is absent or counts as not given. -/
def textField (v : Value) (name label : String) : Checked String :=
  Checked.text [label] ((v.getD name).orElse (.text ""))

/-- The schema under `schema`, if there is one. -/
def schemaField (v : Value) : Reading (Option Schema) :=
  match v.get? "schema" with
  | some node => Reading.ofDefects ((Schema.read node).map some)
  | none => .ok none

/-- Read a parameter. -/
def readParameter (raw : Value) : Reading Parameter :=
  match raw with
  | .mapping _ =>
    match raw.getD "name" with
    | .text name => do
      if name = "" then Reading.skip .unnamedParameter
      else
        let declared := raw.getD "in"
        match declared.text?.bind Location.ofName? with
        | none => Reading.skip (.unsupportedLocation name declared)
        | some location => do
          let schema? ← schemaField raw
          let description ← Reading.ofChecked (textField raw "description" "description")
          return {
            name, location, description, schema?
            required := location == .path || (raw.getD "required").isGiven
            deprecated := (raw.getD "deprecated").isGiven }
    | _ => Reading.skip .unnamedParameter
  | _ => Reading.skip .parameterNotMapping

/-- Read what is said about one media type. -/
def readMediaType (entry : Value) : Reading MediaType := do
  let schema? ← schemaField entry
  return ⟨schema?, entry.getD "example"⟩

/-- Read what is said about bodies, by media type.  The media types are not yet known to be texts. -/
def readContent (content : Value) : Reading (List (Scalar × MediaType)) :=
  match content with
  | .mapping fields => fields.mapM fun f => (readMediaType f.2).map fun m => (f.1, m)
  | _ => .ok []

/-- The media types must be texts. -/
def checkContent (content : List (Scalar × MediaType)) : Checked (List (String × MediaType)) :=
  Checked.each (fun f => (Checked.key ["content"] f.1).map fun k => (k, f.2)) content

/-- Read a request body; what is no mapping is none. -/
def readRequestBody (body : Value) : Reading (Option RequestBody) :=
  match body with
  | .mapping _ => do
    let content ← readContent (body.getD "content")
    let required := (body.getD "required").isGiven
    Reading.ofChecked <| Checked.next
      ((textField body "description" "description").map fun description content =>
        some ⟨description, required, content⟩)
      (checkContent content)
  | _ => .ok none

/-- The names of headers, which are the keys of a mapping. -/
def headerNames : Value → List Scalar
  | .mapping fields => fields.map Prod.fst
  | _ => []

/-- Read a response. -/
def readResponse (response : Value) : Reading Response := do
  let content ← readContent (response.getD "content")
  let names := (headerNames (response.getD "headers")).map Value.scalar
  let checked := (textField response "description" "description").map Response.mk
  let checked := Checked.next checked (checkContent content)
  Reading.ofChecked (Checked.next checked (Checked.list Checked.text ["headers"] (.list names)))

/-- Read the responses; those that are no mappings are left out. -/
def readResponses (responses : Value) : Reading (List (String × Response)) :=
  match responses with
  | .mapping fields =>
    fields.foldlM (fun entries f => match f.2 with
      | .mapping _ => (readResponse f.2).map (Entries.put entries f.1.display)
      | _ => .ok entries) []
  | _ => .ok []

/-- Check security requirements. -/
def checkSecurity (v : Value) : Checked (List Security) :=
  Checked.list (Checked.mapping (Checked.list Checked.text)) ["security"] v

/-- Read an operation.  `shared` are the parameters of its path, `security` holds where the operation
has no requirements of its own. -/
def readOperation (path : Scalar) (method : Method) (operation shared security : Value) :
    Reading Endpoint :=
  match operation with
  | .mapping _ => do
    let raw ← mergeParameters shared ((operation.getD "parameters").orElse (.list []))
    let own := operation.getD "security"
    let tags ← Reading.list .tagsNotList ((operation.getD "tags").orElse (.list []))
    let parameters ← raw.mapM readParameter
    let requestBody ← readRequestBody (operation.getD "requestBody")
    let responses ← readResponses ((operation.getD "responses").orElse (.mapping []))
    let deprecated := (operation.getD "deprecated").isGiven
    let build (path operationId summary description : String) (security : List Security) : Endpoint :=
      { path, method, operationId, summary, description, parameters, requestBody, responses,
        tags := tags.map Value.display, security, deprecated }
    let checked := (Checked.text ["path"] (.scalar path)).map build
    let checked := Checked.next checked (textField operation "operationId" "operation_id")
    let checked := Checked.next checked (textField operation "summary" "summary")
    let checked := Checked.next checked (textField operation "description" "description")
    Reading.ofChecked
      (Checked.next checked (checkSecurity (if own.isNull then security else own)))
  | _ => Reading.skip .operationNotMapping

/-- What becomes of one operation. -/
inductive Outcome where
  | endpoint (e : Endpoint)
  | skipped (reason : SkipReason)
  | defect (d : Defect)

/-- The outcome of a reading. -/
def Outcome.ofReading : Reading Endpoint → Outcome
  | .ok e => endpoint e
  | .error (.skip reason) => skipped reason
  | .error (.defect d) => defect d

/-- The outcome of one method on one path, if the path offers it. -/
def outcome? (path : Scalar) (item : Value) (security : Value) (method : Method) : Option Outcome :=
  let operation := item.getD method.key
  if operation.isNull then none
  else some <| .ofReading <| readOperation path method operation
    ((item.getD "parameters").orElse (.list [])) security

/-- Add the outcome of one method to the endpoints found so far. -/
def addOutcome (path : Scalar) (item security : Value) (found : List Endpoint) (method : Method) :
    Run (List Endpoint) :=
  match outcome? path item security method with
  | none => pure found
  | some (.endpoint e) => pure (found ++ [e])
  | some (.skipped reason) => do
    let method := method.name
    let path := path.display
    let reason := reason.message
    note .warning s!"Skipping {method} {path}: {reason}"
    pure found
  | some (.defect d) => stop d

/-- Add the endpoints of one path. -/
def addPath (security : Value) (found : List Endpoint) (path : Scalar × Value) :
    Run (List Endpoint) :=
  match path.2 with
  | .mapping _ => Method.all.foldlM (addOutcome path.1 path.2 security) found
  | _ => do
    let path := path.1.display
    note .warning s!"Skipping path {path}: path item is not a mapping"
    pure found

/-- The endpoints of a description, in the order of its paths and for each path in the order of
`Method.all`. -/
def extractEndpoints (document : Value) : Run (List Endpoint) :=
  match document with
  | .null => stop DocumentError.missing
  | .mapping _ =>
    match (document.getD "paths").orElse (.mapping []) with
    | .mapping paths =>
      paths.foldlM (addPath ((document.getD "security").orElse (.list []))) []
    | _ => stop DocumentError.pathsNotMapping
  | v => stop (DocumentError.notMapping v.kindName)

end ApiShell.Spec
