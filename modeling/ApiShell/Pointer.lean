import ApiShell.Fault
import ApiShell.Text.Digit
import ApiShell.Text.Split
import ApiShell.Value

/-!
# Pointers into a document

A pointer `#/a/b/0` names a place of a document by the keys and list positions that lead there.  In a
segment `~1` stands for a slash and `~0` for a tilde.
-/

namespace ApiShell.Pointer

/-- Replace `~1` and `~0` by what they stand for; other tildes stay. -/
def unescape : List Char → List Char
  | '~' :: '1' :: cs => '/' :: unescape cs
  | '~' :: '0' :: cs => '~' :: unescape cs
  | c :: cs => c :: unescape cs
  | [] => []

/-- Write slashes and tildes so that `unescape` gives them back. -/
def escape : List Char → List Char
  | [] => []
  | c :: cs =>
    if c = '~' then '~' :: '0' :: escape cs
    else if c = '/' then '~' :: '1' :: escape cs
    else c :: escape cs

@[simp] theorem unescape_escape (cs : List Char) : unescape (escape cs) = cs := by
  induction cs with
  | nil => rfl
  | cons c cs ih =>
    simp only [escape]
    split
    · rename_i h; subst h; simp [unescape, ih]
    · split
      · rename_i h; subst h; simp [unescape, ih]
      · rename_i h _
        rw [unescape.eq_def]
        split <;> simp_all

/-- The segments of a pointer behind its `#/`. -/
def segments (path : List Char) : List String :=
  (Text.splitAt '/' path).map fun s => String.ofList (unescape s)

/-- The list position that a segment names.  Only decimal digits name one; a segment of other digits
cannot be read as a number. -/
def position? (segment : String) : Except Defect (Option Nat) :=
  let cs := segment.toList
  if cs.isEmpty || !cs.all Text.isDigit then .ok none
  else match Text.decimalValue? cs with
    | some n => .ok (some n)
    | none => .error (.badValue
        ("invalid literal for int() with base 10: " ++ Text.quoted segment))

/-- What a step by one segment leads to, if it leads anywhere. -/
def step (node : Value) (segment : String) : Except Defect (Option Value) :=
  match node with
  | .mapping fields => .ok (Value.field? fields segment)
  | .list items => (position? segment).map fun p => p.bind fun n => items[n]?
  | _ => .ok none

/-- Follow segments from a node. -/
def follow (ref : String) (node : Value) : List String → Except Fault Value
  | [] => .ok node
  | segment :: rest =>
    match step node segment with
    | .error d => .error (.defect d)
    | .ok none => .error (.failure (.spec (.danglingReference ref segment)))
    | .ok (some next) => follow ref next rest

/-- The value at a place of a document. -/
def lookup (document : Value) (ref : String) : Except Fault Value :=
  match ref.toList with
  | '#' :: '/' :: path => follow ref document (segments path)
  | _ => .error (.failure (.spec (.externalReference ref)))

end ApiShell.Pointer
