import ApiShell.Display
import ApiShell.Entries
import ApiShell.Fault
import ApiShell.Text.Utf8
import ApiShell.Value

/-!
# The plain form of values

Values are stored in a form that has null, truth values, numbers, texts, lists and mappings from texts
only.  Dates become texts, sets become lists, and a key of another kind is replaced by its text.
Infinities and values that are no number become null.  Bytes that are no text have no plain form.
-/

namespace ApiShell

/-- The text that bytes write. -/
def plainBytes (bs : List UInt8) : Except Defect String :=
  match Text.ofUtf8? bs with
  | some cs => .ok (String.ofList cs)
  | none => .error .notPlain

/-- The plain form of a scalar. -/
def Scalar.plain : Scalar → Except Defect Scalar
  | .float x => .ok (if (Decimal.dyadic? x).isSome then .float x else .null)
  | .date d => .ok (.text d.text)
  | .moment m => .ok (.text m.shortText)
  | .bytes bs => (plainBytes bs).map .text
  | s => .ok s

/-- The text of a key. -/
def Scalar.plainKey : Scalar → Except Defect String
  | .null => .ok "None"
  | .bool b => .ok (if b then "true" else "false")
  | .int n => .ok (toString n)
  | .float x => .ok (if (Decimal.dyadic? x).isSome then floatText x else "None")
  | .text s => .ok s
  | .date d => .ok d.text
  | .moment m => .ok m.shortText
  | .bytes bs => plainBytes bs

namespace Value

mutual

/-- The plain form of a value. -/
def plain : Value → Except Defect Value
  | .scalar s => s.plain.map .scalar
  | .set ms => (ms.mapM Scalar.plain).map fun ms => .list (ms.map .scalar)
  | .pair a b => do
    let a ← plain a
    let b ← plain b
    return .list [a, b]
  | .list items => (plainItems items).map .list
  | .mapping fields => (plainFields fields).map fun fs => .ofFields (Entries.ofList fs)

/-- The plain forms of the items of a list. -/
def plainItems : List Value → Except Defect (List Value)
  | [] => .ok []
  | v :: vs => do
    let v ← plain v
    let vs ← plainItems vs
    return v :: vs

/-- The plain forms of the fields of a mapping. -/
def plainFields : List (Scalar × Value) → Except Defect (List (String × Value))
  | [] => .ok []
  | (k, v) :: fs => do
    let k ← k.plainKey
    let v ← plain v
    let fs ← plainFields fs
    return (k, v) :: fs

end

end Value

end ApiShell
