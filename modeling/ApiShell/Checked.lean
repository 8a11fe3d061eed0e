import ApiShell.Display
import ApiShell.Entries
import ApiShell.Fault
import ApiShell.Text.Utf8

/-!
# Checked fields

Values are checked before they become fields of a record.  A check gives the field or everything that
is wrong with the value; checks of several fields are joined, so that all faults of a record are found
at once, in the order of its fields.
-/

namespace ApiShell

/-- A field, or what is wrong with the value for it. -/
abbrev Checked := Except (List FieldFault)

namespace Checked

/-- A single fault. -/
def fault {α : Type} (location : List String) (kind : String) : Checked α :=
  .error [⟨location, kind⟩]

/-- Join a check to the checks of the fields before it. -/
def next {α β : Type} (f : Checked (α → β)) (x : Checked α) : Checked β :=
  match f, x with
  | .ok f, .ok x => .ok (f x)
  | .ok _, .error es => .error es
  | .error es, .ok _ => .error es
  | .error es, .error es' => .error (es ++ es')

/-- Joined checks succeed when both of them do. -/
theorem next_eq_ok_iff {α β : Type} {f : Checked (α → β)} {x : Checked α} {b : β} :
    next f x = .ok b ↔ ∃ g a, f = .ok g ∧ x = .ok a ∧ g a = b := by
  constructor
  · intro h
    cases f with
    | error es => cases x <;> cases h
    | ok g =>
      cases x with
      | error es => cases h
      | ok a => exact ⟨g, a, rfl, rfl, Except.ok.inj h⟩
  · rintro ⟨g, a, rfl, rfl, rfl⟩
    rfl

/-- Check all members of a list. -/
def each {α β : Type} (check : α → Checked β) : List α → Checked (List β)
  | [] => .ok []
  | a :: as => next ((check a).map List.cons) (each check as)

/-- A key of a mapping as a part of a location. -/
def keyText : Scalar → String
  | .text s => s
  | .bool b => if b then "1" else "0"
  | k => k.literal

/-- A text.  Bytes count as the text that they write. -/
def text (location : List String) : Value → Checked String
  | .text s => .ok s
  | .scalar (.bytes bs) =>
    match Text.ofUtf8? bs with
    | some cs => .ok (String.ofList cs)
    | none => fault location "string_unicode"
  | _ => fault location "string_type"

/-- The items of a list; the members of a set count as a list as well. -/
def items (location : List String) : Value → Checked (List Value)
  | .list xs => .ok xs
  | .pair a b => .ok [a, b]
  | .set ms => .ok (ms.map .scalar)
  | _ => fault location "list_type"

/-- A list, each item of which passes a check at its own location. -/
def list {α : Type} (check : List String → Value → Checked α) (location : List String)
    (v : Value) : Checked (List α) := do
  let xs ← items location v
  each (fun x => check (location ++ [Nat.repr x.2]) x.1) xs.zipIdx

/-- The key of a field of a mapping, as a text. -/
def key (location : List String) (k : Scalar) : Checked String :=
  text (location ++ [keyText k, "[key]"]) (.scalar k)

/-- A mapping from texts, each value of which passes a check at its own location. -/
def mapping {α : Type} (check : List String → Value → Checked α) (location : List String) :
    Value → Checked (List (String × α))
  | .mapping fields =>
    (each (fun f =>
      next ((key location f.1).map Prod.mk) (check (location ++ [keyText f.1]) f.2)) fields).map
      Entries.ofList
  | _ => fault location "dict_type"

/-- A mapping from texts to texts. -/
def texts (location : List String) (v : Value) : Checked (List (String × String)) :=
  mapping text location v

/-- The faults of a failed check as what ends a computation. -/
def orDefect {α : Type} (c : Checked α) : Except Defect α := c.mapError .fields

end Checked

end ApiShell
