import ApiShell.Json.Writer
import ApiShell.Proofs.Run

/-!
# Values that JSON can write

On one line of ASCII characters every value can be written that has no date, moment, bytes or set in
it, neither as a value nor as a key.  A pair is written as a list, and so are the special numbers by
their names.
-/

namespace ApiShell

/-- The scalar can be written, as a value and as a key. -/
def Scalar.IsWritable : Scalar → Prop
  | .null | .bool _ | .int _ | .float _ | .text _ => True
  | .date _ | .moment _ | .bytes _ => False

namespace Value

mutual

/-- The value can be written. -/
def IsWritable : Value → Prop
  | .scalar s => s.IsWritable
  | .set _ => False
  | .pair a b => IsWritable a ∧ IsWritable b
  | .list items => AreWritable items
  | .mapping fields => HaveWritable fields

/-- The values can be written. -/
def AreWritable : List Value → Prop
  | [] => True
  | v :: vs => IsWritable v ∧ AreWritable vs

/-- The fields can be written. -/
def HaveWritable : List (Scalar × Value) → Prop
  | [] => True
  | (k, v) :: fs => k.IsWritable ∧ IsWritable v ∧ HaveWritable fs

end

theorem areWritable_iff {items : List Value} : AreWritable items ↔ ∀ v ∈ items, IsWritable v := by
  induction items with
  | nil => simp [AreWritable]
  | cons v vs ih => rw [AreWritable, ih, List.forall_mem_cons]

theorem HaveWritable.of_mem {fields : List (Scalar × Value)} (h : HaveWritable fields)
    {f : Scalar × Value} (hf : f ∈ fields) : IsWritable f.2 := by
  induction fields with
  | nil => cases hf
  | cons g fs ih =>
    rcases List.mem_cons.1 hf with rfl | hf
    · exact h.2.1
    · exact ih h.2.2 hf

/-- What stands in a value that can be written can be written. -/
theorem IsWritable.of_get? {v w : Value} {key : String} (h : v.IsWritable)
    (hw : v.get? key = some w) : w.IsWritable := by
  cases v with
  | mapping fields =>
    obtain ⟨f, hf, rfl⟩ := Option.map_eq_some_iff.1 hw
    exact HaveWritable.of_mem h (List.mem_of_find?_eq_some hf)
  | _ => cases hw

theorem IsWritable.getD {v : Value} (h : v.IsWritable) (key : String) :
    (v.getD key).IsWritable := by
  rw [Value.getD]
  cases hw : v.get? key with
  | none => exact trivial
  | some w => exact h.of_get? hw

theorem IsWritable.orElse {v w : Value} (hv : v.IsWritable) (hw : w.IsWritable) :
    (v.orElse w).IsWritable := by
  rw [Value.orElse]
  split
  · exact hv
  · exact hw

end Value

namespace Json.Style

open Value (IsWritable AreWritable HaveWritable)

theorem succeeds_scalar_iff (s : Scalar) : Succeeds (asciiLine.scalar s) ↔ s.IsWritable := by
  cases s with
  | date d => exact iff_of_false (not_succeeds_error _) id
  | moment m => exact iff_of_false (not_succeeds_error _) id
  | bytes bs => exact iff_of_false (not_succeeds_error _) id
  | _ => exact iff_of_true ⟨_, rfl⟩ trivial

theorem succeeds_keyText_iff (s : Scalar) : Succeeds (asciiLine.keyText s) ↔ s.IsWritable := by
  cases s with
  | date d => exact iff_of_false (not_succeeds_error _) id
  | moment m => exact iff_of_false (not_succeeds_error _) id
  | bytes bs => exact iff_of_false (not_succeeds_error _) id
  | _ => exact iff_of_true ⟨_, rfl⟩ trivial

mutual

theorem succeeds_value_iff : ∀ (depth : Nat) (v : Value),
    Succeeds (asciiLine.value depth v) ↔ v.IsWritable
  | depth, .scalar s => by
    rw [value, IsWritable]
    exact succeeds_scalar_iff s
  | depth, .set ms => by
    rw [value, IsWritable]
    exact iff_of_false (not_succeeds_error _) id
  | depth, .pair a b => by
    have ha := succeeds_value_iff (depth + 1) a
    have hb := succeeds_value_iff (depth + 1) b
    rw [value, IsWritable, succeeds_bind_iff_and fun _ =>
      succeeds_bind_iff_left fun _ => succeeds_pure _, ha, hb]
  | depth, .list items => by
    have hitems := succeeds_values_iff (depth + 1) items
    rw [value, IsWritable, succeeds_bind_iff_left fun _ => succeeds_pure _, hitems]
  | depth, .mapping fields => by
    have hfields := succeeds_members_iff (depth + 1) fields
    rw [value, IsWritable, succeeds_bind_iff_left fun _ => succeeds_pure _, hfields]

theorem succeeds_values_iff : ∀ (depth : Nat) (vs : List Value),
    Succeeds (asciiLine.values depth vs) ↔ AreWritable vs
  | depth, [] => by
    rw [values, AreWritable]
    exact iff_of_true ⟨_, rfl⟩ trivial
  | depth, v :: vs => by
    have hv := succeeds_value_iff depth v
    have hvs := succeeds_values_iff depth vs
    rw [values, AreWritable, succeeds_bind_iff_and fun _ =>
      succeeds_bind_iff_left fun _ => succeeds_pure _, hv, hvs]

theorem succeeds_members_iff : ∀ (depth : Nat) (fs : List (Scalar × Value)),
    Succeeds (asciiLine.members depth fs) ↔ HaveWritable fs
  | depth, [] => by
    rw [members, HaveWritable]
    exact iff_of_true ⟨_, rfl⟩ trivial
  | depth, (k, v) :: fs => by
    have hk := succeeds_keyText_iff k
    have hv := succeeds_value_iff depth v
    have hfs := succeeds_members_iff depth fs
    rw [members, HaveWritable, succeeds_bind_iff_and fun _ =>
      succeeds_bind_iff_and fun _ => succeeds_bind_iff_left fun _ => succeeds_pure _, hk, hv, hfs]

end

/-- A value has a JSON text on one line when it can be written. -/
theorem succeeds_write_iff (v : Value) : Succeeds (asciiLine.write v) ↔ v.IsWritable := by
  rw [write, succeeds_map_iff, succeeds_value_iff]

end Json.Style

end ApiShell
