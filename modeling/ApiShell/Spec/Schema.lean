import ApiShell.Checked

/-!
# Schemas

What a description says about the values of a parameter or a body.  Reading a schema is forgiving: what
is no mapping, and what is a reference that was left where it closes a cycle, is an untyped schema.
-/

namespace ApiShell.Spec

/-- A schema.  The type is empty where the description gives none. -/
structure Schema where
  type : String
  format : String
  description : String
  default : Value
  choices : List Value
  minimum : Option Float
  maximum : Option Float
  minLength : Option Int
  maxLength : Option Int
  pattern : String
  properties : List (String × Schema)
  items : Option Schema
  required : List String
  «example» : Value

namespace Schema

/-- The schema that says nothing. -/
def untyped : Schema :=
  ⟨"", "", "", .null, [], none, none, none, none, "", [], none, [], .null⟩

/-- A value shown as a text, nothing for null. -/
def shown (v : Value) : String := if v.isNull then "" else v.display

/-- A bound: a number, but no truth value. -/
def bound : Value → Except Defect (Option Float)
  | .int n =>
    match Decimal.ofInt? n with
    | some x => .ok (some x)
    | none => .error .outOfRange
  | .float x => .ok (some x)
  | _ => .ok none

/-- A length: an integer, but no truth value. -/
def length? : Value → Option Int
  | .int n => some n
  | _ => none

/-- The type that a schema declares: of a list of types the first one that is not null. -/
def typeOf (declared : Value) : String :=
  match declared with
  | .list types =>
    match types.find? (·.text? != some "null") with
    | some t => t.display
    | none => ""
  | v => if v.isGiven then v.display else ""

/-- The items of a list, none for anything else. -/
def listed : Value → List Value
  | .list xs => xs
  | _ => []

theorem sizeOf_field_lt {fields : List (Scalar × Value)} {name : String} {v : Value}
    (h : Value.field? fields name = some v) : sizeOf v < sizeOf fields := by
  obtain ⟨f, hf, rfl⟩ := Option.map_eq_some_iff.1 h
  have hlt := List.sizeOf_lt_of_mem (List.mem_of_find?_eq_some hf)
  have : sizeOf f = 1 + sizeOf f.1 + sizeOf f.2 := by cases f; rfl
  omega

mutual

/-- Read a schema. -/
def read (node : Value) : Except Defect Schema :=
  match node with
  | .mapping fields =>
    let get (name : String) : Value := (Value.field? fields name).getD .null
    if (Value.field? fields "$ref").isSome then .ok untyped
    else do
      let minimum ← bound (get "minimum")
      let maximum ← bound (get "maximum")
      let properties ← match h : Value.field? fields "properties" with
        | some (.mapping named) =>
          have : sizeOf named < sizeOf fields := by
            have := sizeOf_field_lt h
            simp only [Value.mapping.sizeOf_spec] at this
            omega
          readProperties named
        | _ => .ok []
      let items ← match h : Value.field? fields "items" with
        | some item =>
          have := sizeOf_field_lt h
          (read item).map some
        | none => .ok none
      let properties ← (Checked.each (fun p =>
        (Checked.key ["properties"] p.1).map fun name => (name, p.2)) properties).orDefect
      return {
        type := typeOf (get "type")
        format := shown (get "format")
        description := shown (get "description")
        default := get "default"
        choices := listed (get "enum")
        minimum, maximum
        minLength := length? (get "minLength")
        maxLength := length? (get "maxLength")
        pattern := shown (get "pattern")
        properties, items
        required := (listed (get "required")).filterMap Value.text?
        «example» := get "example" }
  | _ => .ok untyped
termination_by sizeOf node

/-- Read the schemas of properties. -/
def readProperties (named : List (Scalar × Value)) : Except Defect (List (Scalar × Schema)) :=
  match named with
  | [] => .ok []
  | (name, node) :: rest => do
    let schema ← read node
    let schemas ← readProperties rest
    return (name, schema) :: schemas
termination_by sizeOf named

end

end Schema

end ApiShell.Spec
