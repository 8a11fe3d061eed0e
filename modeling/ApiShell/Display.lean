import ApiShell.Decimal.Shortest
import ApiShell.Text.Quoted
import ApiShell.Text.Split
import ApiShell.Value

/-!
# Displaying values

The text in which a value is shown to a person: scalars in their own spelling, lists in square
brackets, mappings and sets in braces.  Inside a list or mapping a text is quoted; alone it is shown
as it is.
-/

namespace ApiShell

/-- The spelling of a truth value. -/
def boolText (b : Bool) : String := if b then "True" else "False"

/-- The spelling of a floating-point number: the shortest decimal that reads back. -/
def floatText (x : Float) : String := String.ofList (Decimal.displayLayout.write x)

/-- The constructor call that makes a moment. -/
def momentLiteral (m : Time.Moment) : String :=
  let clock := [m.hour, m.minute] ++
    (if m.micro != 0 then [m.second, m.micro] else if m.second != 0 then [m.second] else [])
  let numbers := ([m.date.year, m.date.month, m.date.day] ++ clock).map Nat.repr
  let zone := match m.offset with
    | none => []
    | some 0 => ["tzinfo=datetime.timezone.utc"]
    | some s =>
      let inner := Time.lengthText s
      [s!"tzinfo=datetime.timezone({inner})"]
  "datetime.datetime(" ++ Text.join ", " (numbers ++ zone) ++ ")"

/-- The literal of a scalar. -/
def Scalar.literal : Scalar → String
  | .null => "None"
  | .bool b => boolText b
  | .int n => toString n
  | .float x => floatText x
  | .text s => Text.quoted s
  | .date d => s!"datetime.date({d.year}, {d.month}, {d.day})"
  | .moment m => momentLiteral m
  | .bytes bs => Text.quotedBytes bs

/-- The text of a scalar shown alone. -/
def Scalar.display : Scalar → String
  | .text s => s
  | .date d => d.text
  | .moment m => m.text " "
  | s => s.literal

namespace Value

mutual

/-- The literal of a value. -/
def literal : Value → String
  | .scalar s => s.literal
  | .set ms => if ms.isEmpty then "set()" else "\x7b" ++ Text.join ", " (ms.map Scalar.literal) ++ "\x7d"
  | .pair a b => "(" ++ literal a ++ ", " ++ literal b ++ ")"
  | .list items => "[" ++ Text.join ", " (literals items) ++ "]"
  | .mapping fields => "\x7b" ++ Text.join ", " (fieldLiterals fields) ++ "\x7d"

/-- The literals of the items of a list. -/
def literals : List Value → List String
  | [] => []
  | v :: vs => literal v :: literals vs

/-- The literals of the fields of a mapping. -/
def fieldLiterals : List (Scalar × Value) → List String
  | [] => []
  | (k, v) :: fs => (k.literal ++ ": " ++ literal v) :: fieldLiterals fs

end

/-- The text of a value shown alone. -/
def display : Value → String
  | .scalar s => s.display
  | v => v.literal

end Value

end ApiShell
