import ApiShell.Entries
import ApiShell.Fault
import ApiShell.Text.Blank
import ApiShell.Value

/-!
# Dot paths

A dot path names a value inside a response by the keys that lead to it, with points between them.  The
step `[]` stands for a whole list, and a path ends there whatever follows.
-/

namespace ApiShell.Response

/-- The step that stands for a whole list. -/
def listStep : String := "[]"

/-- What stops a walk along a path: the step, and the reason why it cannot be made. -/
structure Stuck where
  step : String
  reason : String
deriving DecidableEq, Repr

/-- What a value is called where a path cannot go into it. -/
def describeKind : Value → String
  | .list _ => "a list"
  | .null => "null"
  | v =>
    let kind := v.kindName
    s!"a {kind}"

/-- Walk along steps. -/
def walk (current : Value) : List String → Except Stuck Value
  | [] => .ok current
  | step :: steps =>
    match current with
    | .mapping fields =>
      match Value.field? fields step with
      | some next => walk next steps
      | none => .error ⟨step, "no such key"⟩
    | .list items =>
      if step = listStep then .ok (.list items) else .error ⟨step, "cannot descend into a list"⟩
    | v =>
      let kind := describeKind v
      .error ⟨step, s!"cannot descend into {kind}"⟩

/-- The steps of a path. -/
def steps (path : String) : List String := Text.split '.' path

/-- The value at the end of a path. -/
def lookup (data : Value) (path : String) : Except Failure Value :=
  (walk data (steps path)).mapError fun s => .pathNotFound path s.step s.reason

/-- The values at the ends of several paths.  Paths that lead nowhere are left out with a warning. -/
def extractFields (data : Value) (paths : List String) : Logger (List (String × Value)) :=
  paths.foldlM (fun found path =>
    match lookup data path with
    | .ok v => return Entries.put found path v
    | .error e => do
      let problem := e.message
      record .warning s!"Cannot extract {path}: {problem}"
      return found) []

/-- The paths in entries that may hold several ones with commas between them. -/
def splitFields (entries : List String) : List String :=
  (entries.flatMap fun entry => (Text.split ',' entry).map Text.trim).filter (· ≠ "")

end ApiShell.Response
