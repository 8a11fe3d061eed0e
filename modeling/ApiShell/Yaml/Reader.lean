import ApiShell.Decimal.Numeral
import ApiShell.Encoding.Base64
import ApiShell.Text.Quoted
import ApiShell.Yaml.Node
import ApiShell.Value

/-!
# Reading YAML

The last stage of reading: the nodes of a document become values.  A merge key `<<` puts the pairs of
other mappings in front of a mapping's own pairs.  Only the standard tags are known.
-/

namespace ApiShell.Yaml

/-- A node that cannot be converted. -/
def unknown {α : Type} : Except Trouble α := .error (.problem .construction)

/-! ### Scalars -/

/-- The text of a scalar, or of the default value `=` of a mapping. -/
def Node.text? : Nat → Node → Option String
  | _, .scalar _ s => some s
  | fuel + 1, .mapping _ pairs =>
    (pairs.find? fun p => p.1.tag == standardTag "value").bind fun p => p.2.text? fuel
  | _, _ => none

/-- The integer that a text writes in a base, with the wording of the refusal. -/
def integerIn (base : Nat) (cs : List Char) : Except Trouble Int :=
  match Decimal.integer? base cs with
  | some n => .ok n
  | none =>
    let shown := Text.quoted (String.ofList cs)
    .error (.badValue s!"invalid literal for int() with base {base}: {shown}")

/-- The floating-point number that a text writes, with the wording of the refusal. -/
def floatOf (cs : List Char) : Except Trouble Float :=
  match Decimal.float? cs with
  | some x => .ok x
  | none =>
    let shown := Text.quoted (String.ofList cs)
    .error (.badValue s!"could not convert string to float: {shown}")

/-- The value of an integer scalar. -/
def integerOf (text : String) : Except Trouble Int := do
  let cs := text.toList.filter (· != '_')
  if cs.isEmpty then .error .missingItem
  else
    let (negative, cs) := Decimal.takeSign cs
    let signed (n : Int) : Int := if negative then -n else n
    if cs == ['0'] then return 0
    else match cs with
      | [] => .error .missingItem
      | '0' :: 'b' :: ds => signed <$> integerIn 2 ds
      | '0' :: 'x' :: ds => signed <$> integerIn 16 ds
      | '0' :: _ => signed <$> integerIn 8 cs
      | _ =>
        if cs.contains ':' then
          let parts ← (Text.splitAt ':' cs).mapM (integerIn 10)
          return signed (parts.foldl (fun n d => n * 60 + d) 0)
        else signed <$> integerIn 10 cs

/-- The value of a floating-point scalar.  In base sixty the parts are added from the last one on. -/
def floatingOf (text : String) : Except Trouble Float := do
  let cs := Text.lowerChars (text.toList.filter (· != '_'))
  if cs.isEmpty then .error .missingItem
  else
    let (negative, cs) := Decimal.takeSign cs
    let signed (x : Float) : Float := if negative then -1.0 * x else x
    if cs == ".inf".toList then return signed Decimal.infinity
    else if cs == ".nan".toList then return Decimal.notANumber
    else if cs.contains ':' then
      let parts ← (Text.splitAt ':' cs).mapM floatOf
      let sum := parts.reverse.foldl (fun a d => (a.1 + d * a.2, a.2 * 60.0)) ((0.0 : Float), 1.0)
      return signed sum.1
    else signed <$> floatOf cs

/-- A date or moment in the calendar. -/
def timestampOf (text : String) : Except Trouble Scalar :=
  match timestamp? text.toList with
  | none => .error .notText
  | some t =>
    let made : Except Time.CalendarError Scalar :=
      match t.clock with
      | none => (Time.Date.make t.year t.month t.day).map .date
      | some (hour, minute, second, micro) =>
        if t.offset.any fun m => m.natAbs ≥ 24 * 60 then .error (.offset (t.offset.getD 0))
        else do
          let date ← Time.Date.make t.year t.month t.day
          let m ← Time.Moment.make date hour minute second micro (t.offset.map (· * 60))
          return .moment m
    match made with
    | .ok s => .ok s
    | .error e => .error (.badValue e.message)

/-- The value of a scalar with a standard tag. -/
def scalarOf (tag : String) (text : String) : Except Trouble Scalar :=
  if tag == standardTag "null" then .ok .null
  else if tag == standardTag "bool" then
    let word := Text.lower text
    if ["yes", "true", "on"].contains word then .ok (.bool true)
    else if ["no", "false", "off"].contains word then .ok (.bool false)
    else .error .missingKey
  else if tag == standardTag "int" then Scalar.int <$> integerOf text
  else if tag == standardTag "float" then Scalar.float <$> floatingOf text
  else if tag == standardTag "binary" then
    if text.toList.all (·.toNat < 128) then
      match Base64.decode? text.toList with
      | some bs => .ok (.bytes bs)
      | none => unknown
    else unknown
  else if tag == standardTag "timestamp" then timestampOf text
  else if tag == standardTag "str" then .ok (.text text)
  else unknown

/-- The tags of scalars. -/
def scalarTags : List String :=
  ["null", "bool", "int", "float", "binary", "timestamp", "str"].map standardTag

/-! ### Collections -/

/-- The pairs that the value of a merge key contributes, already flat; `flat` gives the pairs of a
mapping. -/
def mergedPairs (flat : Node → Except Trouble (List (Node × Node))) :
    Node → Except Trouble (List (Node × Node))
  | .mapping tag pairs => flat (.mapping tag pairs)
  | .sequence _ items => do
    let parts ← items.mapM fun n => match n with
      | .mapping tag pairs => flat (.mapping tag pairs)
      | _ => unknown
    return parts.reverse.flatten
  | .scalar _ _ => unknown

/-- The pairs of a mapping with those of its merge keys in front.  The default key `=` is a text. -/
def flatPairs : Nat → Node → Except Trouble (List (Node × Node))
  | 0, _ => unknown
  | fuel + 1, .mapping _ pairs => do
    let isMerge (p : Node × Node) : Bool := p.1.tag == standardTag "merge"
    let merged ← (pairs.filter isMerge).mapM fun p => mergedPairs (flatPairs fuel) p.2
    let own := (pairs.filter fun p => !isMerge p).map fun p =>
      match p.1 with
      | .scalar tag text =>
        if tag == standardTag "value" then (Node.scalar (standardTag "str") text, p.2) else p
      | _ => p
    return merged.flatten ++ own
  | _ + 1, _ => unknown

/-- A key: only scalars can be looked up. -/
def keyOf : Value → Except Trouble Scalar
  | .scalar s => .ok s
  | _ => unknown

mutual

/-- The value of a node. -/
def construct : Nat → Node → Except Trouble Value
  | 0, _ => unknown
  | fuel + 1, n =>
    if scalarTags.contains n.tag then
      match n.text? (fuel + 1) with
      | some text => Value.scalar <$> scalarOf n.tag text
      | none => unknown
    else if n.tag == standardTag "seq" then
      match n with
      | .sequence _ items => Value.list <$> constructAll fuel items
      | _ => unknown
    else if n.tag == standardTag "map" then do
      let fields ← constructPairs fuel (← flatPairs (fuel + 1) n)
      return .mapping (Value.fieldsOf fields)
    else if n.tag == standardTag "set" then do
      let fields ← constructPairs fuel (← flatPairs (fuel + 1) n)
      return .set (Value.membersOf (fields.map Prod.fst))
    else if n.tag == standardTag "omap" || n.tag == standardTag "pairs" then
      match n with
      | .sequence _ items => Value.list <$> constructOrdered fuel items
      | _ => unknown
    else unknown

/-- The values of a list of nodes. -/
def constructAll : Nat → List Node → Except Trouble (List Value)
  | 0, _ => unknown
  | _ + 1, [] => .ok []
  | fuel + 1, n :: ns => do
    let v ← construct fuel n
    let vs ← constructAll fuel ns
    return v :: vs

/-- The fields of a list of pairs. -/
def constructPairs : Nat → List (Node × Node) → Except Trouble (List (Scalar × Value))
  | 0, _ => unknown
  | _ + 1, [] => .ok []
  | fuel + 1, (k, v) :: ps => do
    let k ← construct fuel k
    let k ← keyOf k
    let v ← construct fuel v
    let fs ← constructPairs fuel ps
    return (k, v) :: fs

/-- The pairs of an ordered mapping, each written as a mapping of one pair. -/
def constructOrdered : Nat → List Node → Except Trouble (List Value)
  | 0, _ => unknown
  | _ + 1, [] => .ok []
  | fuel + 1, .mapping _ [(k, v)] :: ns => do
    let k ← construct fuel k
    let v ← construct fuel v
    let vs ← constructOrdered fuel ns
    return .pair k v :: vs
  | _ + 1, _ => unknown

end

mutual

/-- The number of nodes in a tree and of places in its lists: a bound for the depth of calls. -/
def Node.weight : Node → Nat
  | .scalar _ _ => 1
  | .sequence _ items => weights items + 1
  | .mapping _ pairs => pairWeights pairs + 1

/-- The weight of a list of nodes. -/
def weights : List Node → Nat
  | [] => 1
  | n :: ns => n.weight + weights ns + 1

/-- The weight of a list of pairs. -/
def pairWeights : List (Node × Node) → Nat
  | [] => 1
  | (k, v) :: ps => k.weight + v.weight + pairWeights ps + 1

end

/-- The value of a text that holds at most one document; a text without one is null. -/
def read (text : List Char) : Except Trouble Value := do
  let tokens ← Token.ofText text
  match ← Node.ofTokens? tokens with
  | none => return .null
  | some n => construct (n.weight * (n.weight + 2)) n

end ApiShell.Yaml
