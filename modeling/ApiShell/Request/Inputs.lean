import ApiShell.Checked
import ApiShell.Spec.Endpoint

/-!
# The inputs of a request

Everything that a user gave to a command: values of path parameters, values of the other parameters,
and the flags that every command has.
-/

namespace ApiShell.Request

open Spec (Location)

/-- A parameter with the value to send. -/
structure BoundParameter where
  name : String
  location : Location
  value : Value

/-- The inputs of a request. -/
structure Inputs where
  pathValues : List (String × String) := []
  parameters : List BoundParameter := []
  data : Option String := none
  headers : List String := []
  queries : List String := []
  forms : List String := []
  auth : Option String := none
  contentType : Option String := none

namespace Inputs

/-- A field that is absent or null, or a text. -/
def optionalText (v : Value) (name : String) : Checked (Option String) :=
  match v.getD name with
  | .null => .ok none
  | t => (Checked.text [name] t).map some

/-- A list of texts that may be absent. -/
def textList (v : Value) (name : String) : Checked (List String) :=
  match v.get? name with
  | some xs => Checked.list Checked.text [name] xs
  | none => .ok []

/-- A field that has to be there. -/
def required (v : Value) (location : List String) (name : String) : Checked Value :=
  match v.get? name with
  | some x => .ok x
  | none => Checked.fault (location ++ [name]) "missing"

/-- The place of a parameter. -/
def checkLocation (location : List String) (v : Value) : Checked Location :=
  match v.text?.bind Location.ofName? with
  | some l => .ok l
  | none => Checked.fault location "enum"

/-- Check a parameter with its value. -/
def checkParameter (location : List String) (v : Value) : Checked BoundParameter :=
  match v with
  | .mapping _ =>
    let name := (required v location "name").bind (Checked.text (location ++ ["name"]))
    let place := (required v location "location").bind (checkLocation (location ++ ["location"]))
    Checked.next (Checked.next (name.map BoundParameter.mk) place) (required v location "value")
  | _ => Checked.fault location "model_type"

/-- Check inputs. -/
def check (v : Value) : Checked Inputs :=
  let pathValues := match v.get? "path_values" with
    | some values => Checked.texts ["path_values"] values
    | none => .ok []
  let parameters := match v.get? "parameters" with
    | some ps => Checked.list checkParameter ["parameters"] ps
    | none => .ok []
  let checked := Checked.next (pathValues.map Inputs.mk) parameters
  let checked := Checked.next checked (optionalText v "data")
  let checked := Checked.next checked (textList v "headers")
  let checked := Checked.next checked (textList v "queries")
  let checked := Checked.next checked (textList v "forms")
  let checked := Checked.next checked (optionalText v "auth")
  Checked.next checked (optionalText v "content_type")

end Inputs

end ApiShell.Request
