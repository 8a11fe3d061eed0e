import ApiShell.Cache.Provider
import ApiShell.Command.Signature
import ApiShell.Config.Basic
import ApiShell.Program.Builtin
import ApiShell.Spec.Extraction

/-!
# The catalogue of APIs

Every configured API becomes a tree of commands.  An API whose description cannot be used, or whose name
is that of a built-in command, is left out with a warning and does not keep the others from being there.

All configured descriptions, or one of them, can be loaded anew, whatever the cache has.  When all are
loaded, a failure does not keep those after it from being loaded.
-/

namespace ApiShell.Program

open Command (Tree)

variable {σ : Type}

/-- How long the description of an API stays in the cache. -/
def ttlOf (api : ApiConfig) : Provider σ Time.Duration :=
  match api.ttl with
  | .ok ttl => return ttl
  | .error d => throw (.defect d)

/-- The description of an API and the endpoints in it. -/
def describe (loader : Loader σ) (api : ApiConfig) :
    Provider σ (Value × List Spec.Endpoint) := do
  let d ← Provider.description loader api.apispec (← ttlOf api)
  let endpoints ← Provider.ofRun (Spec.extractEndpoints d.value)
  return (d.value, endpoints)

/-- The help text of an API: its title and its name, where it has a title. -/
def titleHelp (name : String) (document : Value) : String :=
  let title := (document.getD "info").getD "title"
  if title.isGiven then
    let shown := title.display
    s!"{shown} ({name})"
  else ""

/-- The commands of an API with its description. -/
def treeOf (name : String) (document : Value) (endpoints : List Spec.Endpoint) : Run Tree := do
  let tree ← Command.compile name endpoints (Command.tagDescriptions document)
    (titleHelp name document)
  let count := endpoints.length
  note .debug s!"Loaded {count} endpoints for {name}"
  tree.usable

/-- The commands of a configured API, unless it is left out. -/
def treeFor? (loader : Loader σ) (api : String × ApiConfig) : Provider σ (Option Tree) := do
  let (name, settings) := api
  if (Builtin.ofName? name).isSome then
    record .warning s!"Skipping API '{name}': the name belongs to a built-in command"
    return none
  match ← Provider.outcome (describe loader settings) with
  | .error failure =>
    let reason := failure.message
    record .warning s!"Skipping API '{name}': {reason}"
    return none
  | .ok (document, endpoints) => return some (← Provider.ofRun (treeOf name document endpoints))

/-- The commands of all configured APIs, in the order of the configuration.  An API without a name
cannot be called. -/
def catalogue (loader : Loader σ) (c : Config) : Provider σ (List Tree) := do
  let trees ← c.apis.mapM (treeFor? loader)
  return (trees.filterMap id).filter (·.name ≠ "")

/-- What the help page of the program says where no API is configured. -/
def emptyHint (c : Config) (path : String) : Option String :=
  if c.apis.isEmpty then
    some s!"No APIs configured in {path}. Run '{name} init' to create a starter config."
  else none

/-- What has come of loading descriptions anew: the names of the APIs in their order. -/
structure Refreshed where
  done : List String := []
  failed : List String := []
deriving DecidableEq, Repr

/-- Load the description of an API anew. -/
def refreshApi (loader : Loader σ) (api : ApiConfig) : Provider σ Unit := do
  let ttl ← ttlOf api
  let _ ← Provider.refresh loader api.apispec ttl

/-- Load the descriptions of APIs anew, one after the other.  A defect ends this early; what was done
before it stays done. -/
def refreshEach (loader : Loader σ) :
    List (String × ApiConfig) → StateT (Supply σ) Logger (Refreshed × Option Defect)
  | [] => return ({}, none)
  | (name, api) :: apis => do
    match ← (refreshApi loader api).run with
    | .ok _ => do
      let (rest, defect) ← refreshEach loader apis
      return ({ rest with done := name :: rest.done }, defect)
    | .error (.failure failure) => do
      let reason := failure.message
      record .warning s!"Failed to refresh {name}: {reason}"
      let (rest, defect) ← refreshEach loader apis
      return ({ rest with failed := name :: rest.failed }, defect)
    | .error (.defect defect) => return ({}, some defect)

/-- What is wrong after loading descriptions anew, if something is. -/
def Refreshed.fault? (r : Refreshed) (defect : Option Defect) : Option Fault :=
  match defect with
  | some d => some (.defect d)
  | none => if r.failed.isEmpty then none else some (.failure (.spec (.refreshFailed r.failed)))

end ApiShell.Program
