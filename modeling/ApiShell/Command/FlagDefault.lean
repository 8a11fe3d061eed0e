import ApiShell.Decimal.Numeral
import ApiShell.Json.Writer
import ApiShell.Spec.Schema

/-!
# Flag defaults

The default that a description declares is turned once into a value of its flag's kind.  A default
that cannot be read as that kind counts as absent, and an absent default is the kind's zero.
-/

namespace ApiShell.Command

/-- The kinds of values that flags have. -/
inductive FlagKind where
  | string
  | integer
  | bool
  | stringList
deriving DecidableEq, Repr

namespace FlagKind

/-- The name of a kind. -/
def name : FlagKind → String
  | string => "string"
  | integer => "integer"
  | bool => "bool"
  | stringList => "string_list"

/-- The kind of a name. -/
def ofName? (name : String) : Option FlagKind :=
  [string, integer, bool, stringList].find? (·.name == name)

/-- The kind of a name, which has to be one. -/
def ofName (name : String) : Except Defect FlagKind :=
  match ofName? name with
  | some kind => .ok kind
  | none =>
    let shown := Text.quoted name
    .error (.badValue s!"{shown} is not a valid FlagKind")

/-- The kind of the values of a schema type. -/
def ofType : String → FlagKind
  | "integer" | "number" => integer
  | "boolean" => bool
  | "array" => stringList
  | _ => string

end FlagKind

/-- A value of a flag. -/
inductive FlagValue where
  | string (s : String)
  | integer (n : Int)
  | bool (b : Bool)
  | stringList (xs : List String)
deriving DecidableEq, Repr

namespace FlagValue

/-- The kind of a value. -/
def kind : FlagValue → FlagKind
  | string _ => .string
  | integer _ => .integer
  | bool _ => .bool
  | stringList _ => .stringList

/-- The zero of a kind. -/
def zero : FlagKind → FlagValue
  | .string => string ""
  | .integer => integer 0
  | .bool => bool false
  | .stringList => stringList []

@[simp] theorem kind_zero (k : FlagKind) : (zero k).kind = k := by cases k <;> rfl

end FlagValue

/-- A value as a text: truth values in lower case, lists and mappings as JSON. -/
def defaultText (raw : Value) : Except Defect String :=
  match raw with
  | .bool b => .ok (if b then "true" else "false")
  | .list _ | .mapping _ => (Json.asciiLine.write raw).mapError fun _ => .wrongKind
  | v => .ok v.display

/-- A value as an integer, cut towards zero.  A text is first read as a floating-point number. -/
def defaultInteger? (raw : Value) : Option Int :=
  let cut (x : Float) : Option Int := (Decimal.dyadic? x).map Decimal.Dyadic.truncate
  match raw with
  | .int n => some n
  | .float x => cut x
  | .bool _ => none
  | v => (Decimal.float? v.display.toList).bind cut

/-- A value as a truth value. -/
def defaultBool? (raw : Value) : Option Bool :=
  match raw with
  | .bool b => some b
  | .text s =>
    let word := Text.lower (Text.trim s)
    if ["true", "1", "yes"].contains word then some true
    else if ["false", "0", "no"].contains word then some false
    else none
  | _ => none

/-- The default of a flag of a kind, if `raw` is one. -/
def declaredDefault? (kind : FlagKind) (raw : Value) : Run (Option FlagValue) := do
  if raw.isNull then return none
  let shown := raw.literal
  match kind with
  | .integer =>
    match defaultInteger? raw with
    | some n => return some (.integer n)
    | none => do
      match raw with
      | .bool _ => pure ()
      | _ => note .debug s!"Ignoring non-numeric default {shown}"
      return none
  | .bool =>
    match defaultBool? raw with
    | some b => return some (.bool b)
    | none => do
      note .debug s!"Ignoring non-boolean default {shown}"
      return none
  | .stringList =>
    let values := match raw with
      | .list xs => xs
      | v => [v]
    match values.mapM defaultText with
    | .ok texts => return some (.stringList texts)
    | .error d => stop d
  | .string =>
    match defaultText raw with
    | .ok s => return some (.string s)
    | .error d => stop d

/-- The default that a schema declares, if it declares one of the kind. -/
def schemaDefault? (kind : FlagKind) (schema? : Option Spec.Schema) : Run (Option FlagValue) :=
  declaredDefault? kind ((schema?.map (·.default)).getD .null)

/-- The default of a flag of a kind. -/
def resolveDefault (kind : FlagKind) (schema? : Option Spec.Schema) : Run FlagValue := do
  return (← schemaDefault? kind schema?).getD (.zero kind)

end ApiShell.Command
