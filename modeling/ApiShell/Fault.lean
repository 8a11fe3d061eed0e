import ApiShell.Text.Quoted
import ApiShell.Text.Split

/-!
# Failures and defects

A *failure* is foreseen: it has a class, a message for the user and an exit code.  The classes form
a tree below the general failure.  A *defect* is unforeseen: a value of a shape that nobody checked.
It has a kind only, and a command that meets one ends with a crash log.
-/

/-!
### Log records

What the library has to say while it works: a level and a text.  Functions that log are state
transformers over the records written so far; records are only ever appended.
-/

namespace ApiShell

/-- The importance of a log record. -/
inductive Level where
  | debug
  | info
  | warning
  | error
deriving DecidableEq, Repr

/-- The rank of a level: records below the rank of the chosen level are not shown. -/
def Level.rank : Level → Nat
  | debug => 10
  | info => 20
  | warning => 30
  | error => 40

/-- A log record. -/
structure LogRecord where
  level : Level
  message : String
deriving DecidableEq, Repr

/-- Computations that write log records. -/
abbrev Logger := StateM (List LogRecord)

/-- Write a record. -/
def record (level : Level) (message : String) : Logger Unit :=
  modify (· ++ [⟨level, message⟩])

/-- The records of a level or a more important one. -/
def visible (level : Level) (records : List LogRecord) : List LogRecord :=
  records.filter fun r => level.rank ≤ r.level.rank

end ApiShell

/-! ### Failures and defects -/

namespace ApiShell

/-- The classes of failures. -/
inductive FailureClass where
  | general
  | invalidUsage
  | missingRequiredFlag
  | requestBuild
  | unsupportedFormat
  | auth
  | notFound
  | server
  | connection
  | specParse
  | invalidDocument
  | config
  | pathNotFound
deriving DecidableEq, Repr

namespace FailureClass

/-- The class that a class is a kind of. -/
def parent? : FailureClass → Option FailureClass
  | general => none
  | missingRequiredFlag | requestBuild | unsupportedFormat => some invalidUsage
  | invalidDocument => some specParse
  | _ => some general

/-- A class and the classes that it is a kind of, up to the general failure. -/
def lineage (c : FailureClass) : List FailureClass :=
  match c.parent? with
  | none => [c]
  | some p => match p.parent? with
    | none => [c, p]
    | some q => [c, p, q]

/-- The exit code that tells a script who is at fault. -/
def exitCode : FailureClass → Nat
  | invalidUsage | missingRequiredFlag | requestBuild | unsupportedFormat => 2
  | auth => 3
  | notFound => 4
  | server => 5
  | connection => 6
  | specParse | invalidDocument => 7
  | general | config | pathNotFound => 1

end FailureClass

/-- Why flag values make no request. -/
inductive RequestError where
  | noBaseUrl
  | unboundPlaceholder (name template : String)
  | malformedPair (flag entry expected : String)
  | unreadableFile (path reason : String)
  | invalidJson (source problem : String)
deriving DecidableEq, Repr

/-- The text of a request error. -/
def RequestError.message : RequestError → String
  | noBaseUrl => "no base URL configured for this API (set 'url' in the config)"
  | unboundPlaceholder name template => s!"no value for path parameter '{name}' in {template}"
  | malformedPair flag entry expected =>
    let shown := Text.quoted entry
    s!"invalid {flag} value {shown}, expected {expected}"
  | unreadableFile path reason => s!"cannot read {path}: {reason}"
  | invalidJson source problem => s!"invalid JSON in {source}: {problem}"

/-- Why a description cannot be used. -/
inductive SpecError where
  | httpStatus (status : Nat) (url : String)
  | fetchFailed (url reason : String)
  | fileNotFound (path : String)
  | unreadableFile (path reason : String)
  | emptyFile (path : String)
  | invalidJson (source problem : String)
  | invalidYaml (source problem : String)
  | notMapping (source kind : String)
  | swagger (version : String)
  | missingVersion
  | unsupportedVersion (version : String)
  | externalReference (ref : String)
  | danglingReference (ref segment : String)
  | refreshFailed (names : List String)
deriving DecidableEq, Repr

/-- The text of a description error. -/
def SpecError.message : SpecError → String
  | httpStatus status url => s!"HTTP {status} fetching spec from {url}"
  | fetchFailed url reason => s!"Failed to fetch spec from {url}: {reason}"
  | fileNotFound path => s!"Spec file not found: {path}"
  | unreadableFile path reason => s!"Failed to read spec file {path}: {reason}"
  | emptyFile path => s!"Spec file is empty: {path}"
  | invalidJson source problem => s!"Invalid JSON in {source}: {problem}"
  | invalidYaml source problem => s!"Failed to parse {source} as JSON or YAML: {problem}"
  | notMapping source kind => s!"Spec {source} must be a JSON/YAML object (got {kind})"
  | swagger version => s!"Swagger {version} is not supported. " ++
      "Only OpenAPI 3.0.x and 3.1.x are supported."
  | missingVersion => "Missing 'openapi' field. Is this an OpenAPI 3.x document?"
  | unsupportedVersion version => s!"Unsupported OpenAPI version: {version}. " ++
      "Only OpenAPI 3.0.x and 3.1.x are supported."
  | externalReference ref => s!"External $ref not supported: {ref}"
  | danglingReference ref segment => s!"Cannot resolve $ref '{ref}': no '{segment}' segment"
  | refreshFailed names =>
    let all := Text.join ", " names
    s!"Failed to refresh: {all}"

/-- Why a document has no operations to extract. -/
inductive DocumentError where
  | missing
  | notMapping (kind : String)
  | pathsNotMapping
deriving DecidableEq, Repr

/-- The text of a document error. -/
def DocumentError.message : DocumentError → String
  | missing => "no OpenAPI document to extract operations from"
  | notMapping kind => s!"OpenAPI document must be a mapping, got {kind}"
  | pathsNotMapping => "'paths' must be a mapping"

/-- Why a configuration cannot be used. -/
inductive ConfigError where
  | invalid (path problem : String)
  | unknownApi (name : String) (known : List String)
  | exists (path : String)
deriving DecidableEq, Repr

/-- The text of a configuration error. -/
def ConfigError.message : ConfigError → String
  | invalid path problem => s!"Invalid config at {path}: {problem}"
  | unknownApi name known =>
    let names := Text.join ", " known
    let all := if names = "" then "none" else names
    s!"API '{name}' not found in config (configured: {all})"
  | .exists path => s!"Config already exists at {path} (use --force to overwrite)"

/-- Why no response arrived. -/
inductive ConnectionError where
  | timedOut (url seconds : String)
  | failed (url reason : String)
deriving DecidableEq, Repr

/-- The text of a connection error. -/
def ConnectionError.message : ConnectionError → String
  | timedOut url seconds => s!"Request to {url} timed out after {seconds}s"
  | failed url reason => s!"Request to {url} failed: {reason}"

/-- A foreseen failure. -/
inductive Failure where
  | missingRequiredFlag (flag : String)
  | request (e : RequestError)
  | unsupportedFormat (name : String) (supported : List String)
  | connection (e : ConnectionError)
  | status (code : Int) (message : String)
  | spec (e : SpecError)
  | document (e : DocumentError)
  | config (e : ConfigError)
  | pathNotFound (path step reason : String)
deriving DecidableEq, Repr

/-- The class of a response status that is no success. -/
def statusClass (code : Int) : FailureClass :=
  if code = 401 ∨ code = 403 then .auth
  else if code = 404 then .notFound
  else if code ≥ 500 then .server
  else .general

/-- The class of a failure. -/
def Failure.kind : Failure → FailureClass
  | missingRequiredFlag _ => .missingRequiredFlag
  | request _ => .requestBuild
  | unsupportedFormat _ _ => .unsupportedFormat
  | connection _ => .connection
  | status code _ => statusClass code
  | spec _ => .specParse
  | document _ => .invalidDocument
  | config _ => .config
  | pathNotFound _ _ _ => .pathNotFound

/-- The exit code of a failure. -/
def Failure.exitCode (f : Failure) : Nat := f.kind.exitCode

/-- The text of a missing flag. -/
def missingFlagText (flag : String) : String := s!"required flag --{flag} not set"

/-- The text of a dot path that cannot be followed. -/
def pathNotFoundText (path step reason : String) : String :=
  s!"path '{path}' not found at '{step}': {reason}"

/-- The message of a failure. -/
def Failure.message : Failure → String
  | missingRequiredFlag flag => missingFlagText flag
  | request e => e.message
  | unsupportedFormat name supported =>
    let all := Text.join ", " supported
    s!"unsupported output format '{name}' (supported: {all})"
  | connection e => e.message
  | status _ message => message
  | spec e => e.message
  | document e => e.message
  | config e => e.message
  | pathNotFound path step reason => pathNotFoundText path step reason

/-- What is wrong with a field of a record: its place and the kind of the fault. -/
structure FieldFault where
  location : List String
  kind : String
deriving DecidableEq, Repr

/-- The summary of a list of faulty fields. -/
def fieldFaultsText (faults : List FieldFault) : String :=
  let shown := faults.map fun f => Text.join "." f.location ++ " [" ++ f.kind ++ "]"
  let count := faults.length
  s!"{count} validation errors: " ++ Text.join "; " shown

/-- What a file operation can run into. -/
inductive FileFault where
  | missing
  | directory
  | notDirectory
  | exists
  | denied
  | tooLong
  | busy
  | other
deriving DecidableEq, Repr

/-- The wording of a file fault. -/
def FileFault.reason : FileFault → String
  | missing => "No such file or directory"
  | directory => "Is a directory"
  | notDirectory => "Not a directory"
  | .exists => "File exists"
  | denied => "Permission denied"
  | tooLong => "File name too long"
  | busy => "Device or resource busy"
  | other => "disk failure"

/-- The number under which the system knows a file fault. -/
def FileFault.number : FileFault → Nat
  | missing => 2
  | other => 5
  | denied => 13
  | busy => 16
  | .exists => 17
  | notDirectory => 20
  | directory => 21
  | tooLong => 36

/-- The text of a file fault at a path. -/
def FileFault.text (fault : FileFault) (path : String) : String :=
  let number := fault.number
  let reason := fault.reason
  let shown := Text.quoted path
  s!"[Errno {number}] {reason}: {shown}"

/-- An unforeseen value. -/
inductive Defect where
  /-- A value of the wrong kind takes part in an operation. -/
  | wrongKind
  /-- A number is outside the range of its type. -/
  | outOfRange
  /-- A text operation on something that is no text. -/
  | notText
  /-- A text that cannot be read as a number or calendar date. -/
  | badValue (message : String)
  /-- A table has no entry for a key. -/
  | missingKey
  /-- A list has no item at a place. -/
  | missingItem
  /-- A path begins in the home directory of nobody. -/
  | noHome
  /-- Bytes that are no text. -/
  | notUnicode
  /-- A text that has characters beyond ASCII where none may be. -/
  | notAscii
  /-- A closing markup tag without an opening one. -/
  | markup
  /-- A file operation failed. -/
  | file (fault : FileFault)
  /-- A record has faulty fields. -/
  | fields (faults : List FieldFault)
  /-- An URL that cannot be used. -/
  | invalidUrl
  /-- A header that cannot be sent. -/
  | invalidHeader
  /-- A client was used outside its context. -/
  | notEntered
  /-- A value that has no plain form. -/
  | notPlain
deriving DecidableEq, Repr

/-- What ends a computation early. -/
inductive Fault where
  | failure (f : Failure)
  | defect (d : Defect)
deriving DecidableEq, Repr

instance : Coe Failure Fault := ⟨.failure⟩
instance : Coe Defect Fault := ⟨.defect⟩
instance : Coe RequestError Fault := ⟨fun e => .failure (.request e)⟩
instance : Coe SpecError Fault := ⟨fun e => .failure (.spec e)⟩
instance : Coe DocumentError Fault := ⟨fun e => .failure (.document e)⟩
instance : Coe ConfigError Fault := ⟨fun e => .failure (.config e)⟩

/-- Computations that write log records and may end early. -/
abbrev Run := ExceptT Fault Logger

/-- End a computation early. -/
def stop {α : Type} (fault : Fault) : Run α := throw fault

/-- Write a record in a computation that may end early. -/
def note (level : Level) (message : String) : Run Unit := record level message

end ApiShell
