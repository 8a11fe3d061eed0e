import ApiShell.Decimal.Binary
import ApiShell.Time.Calendar

/-!
# Document values

The one dynamic type of the library: what a description, a configuration file or a response body
holds once it is read.  Mappings keep their fields in the order of the text.  Their keys, and the
members of sets, are scalars, of any kind; two keys are the same field when they are equal as values,
so `1`, `1.0` and `true` are one key.
-/

namespace ApiShell

/-- A value without parts. -/
inductive Scalar where
  | null
  | bool (b : Bool)
  | int (n : Int)
  | float (x : Float)
  | text (s : String)
  | date (d : Time.Date)
  | moment (m : Time.Moment)
  | bytes (bs : List UInt8)
deriving DecidableEq

/-- A document value. -/
inductive Value where
  | scalar (s : Scalar)
  | set (members : List Scalar)
  | pair (first second : Value)
  | list (items : List Value)
  | mapping (fields : List (Scalar × Value))

namespace Scalar

/-- The number that a truth value, an integer or a whole floating-point number stands for. -/
def whole? : Scalar → Option Int
  | bool b => some (if b then 1 else 0)
  | int n => some n
  | float x => (Decimal.dyadic? x).bind fun d => if d.isWhole then some d.truncate else none
  | _ => none

/-- Equality as values: numbers and truth values by what they stand for, moments by their place in
universal time, everything else by its parts.  A value that is no number equals another such value. -/
def same (a b : Scalar) : Bool :=
  match a.whole?, b.whole? with
  | some m, some n => m == n
  | some _, none => false
  | none, some _ => false
  | none, none =>
    match a, b with
    | null, null => true
    | float x, float y => x == y || (Decimal.isNotANumber x && Decimal.isNotANumber y)
    | text s, text t => s == t
    | date d, date e => d == e
    | moment m, moment n =>
      m.offset.isSome == n.offset.isSome && m.instant == n.instant
    | bytes x, bytes y => x == y
    | _, _ => false

end Scalar

namespace Value

@[match_pattern] abbrev null : Value := .scalar .null
@[match_pattern] abbrev bool (b : Bool) : Value := .scalar (.bool b)
@[match_pattern] abbrev int (n : Int) : Value := .scalar (.int n)
@[match_pattern] abbrev float (x : Float) : Value := .scalar (.float x)
@[match_pattern] abbrev text (s : String) : Value := .scalar (.text s)

instance : Inhabited Value := ⟨null⟩

/-- The value is null. -/
def isNull : Value → Bool
  | null => true
  | _ => false

/-- The text that a value is. -/
def text? : Value → Option String
  | text s => some s
  | _ => none

/-- The field of a mapping under a text key. -/
def field? (fields : List (Scalar × Value)) (key : String) : Option Value :=
  (fields.find? fun f => f.1.same (.text key)).map Prod.snd

/-- The field of a value under a text key; only a mapping has fields. -/
def get? (v : Value) (key : String) : Option Value :=
  match v with
  | mapping fields => field? fields key
  | _ => none

/-- The field under a key with null for an absent one. -/
def getD (v : Value) (key : String) : Value := (v.get? key).getD null

/-- Put a field: an old one keeps its place and its key, a new one goes to the end. -/
def putField (fields : List (Scalar × Value)) (key : Scalar) (value : Value) :
    List (Scalar × Value) :=
  if fields.any (·.1.same key) then
    fields.map fun f => if f.1.same key then (f.1, value) else f
  else fields ++ [(key, value)]

/-- The fields that a list of assignments leaves behind. -/
def fieldsOf (assignments : List (Scalar × Value)) : List (Scalar × Value) :=
  assignments.foldl (fun fields a => putField fields a.1 a.2) []

/-- The members that a list of scalars leaves behind, each once. -/
def membersOf (scalars : List Scalar) : List Scalar :=
  scalars.foldl (fun ms s => if ms.any (·.same s) then ms else ms ++ [s]) []

/-- A mapping from text keys. -/
def ofFields (fields : List (String × Value)) : Value :=
  mapping (fields.map fun f => (.text f.1, f.2))

/-- Whether a value counts as given: null, false, zero and everything empty do not. -/
def isGiven : Value → Bool
  | null => false
  | bool b => b
  | int n => n != 0
  | float x => x != 0.0
  | text s => s != ""
  | .scalar (.bytes bs) => !bs.isEmpty
  | .scalar _ => true
  | set ms => !ms.isEmpty
  | pair _ _ => true
  | list items => !items.isEmpty
  | mapping fields => !fields.isEmpty

/-- The value itself if it is given, else the replacement. -/
def orElse (v replacement : Value) : Value := if v.isGiven then v else replacement

/-- The name of a value's kind, as error messages give it. -/
def kindName : Value → String
  | null => "NoneType"
  | bool _ => "bool"
  | int _ => "int"
  | float _ => "float"
  | text _ => "str"
  | .scalar (.date _) => "date"
  | .scalar (.moment _) => "datetime"
  | .scalar (.bytes _) => "bytes"
  | set _ => "set"
  | pair _ _ => "tuple"
  | list _ => "list"
  | mapping _ => "dict"

end Value

end ApiShell
