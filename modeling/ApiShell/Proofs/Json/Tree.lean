import ApiShell.Json.Reader
import ApiShell.Proofs.Json.Plain
import ApiShell.Proofs.Json.Writable
import ApiShell.Proofs.Run

/-!
# Values that are read from JSON

What is read from a JSON text is null, a truth value, a number, a text, a list, or a mapping from
different texts (`isTree_of_readText`).  Its floating-point numbers may be infinite or no numbers; a
value with a text in the shortest form has no such numbers (`isFinite_of_write`).
-/

namespace ApiShell

/-- The floating-point number that a scalar is. -/
def Scalar.floats : Scalar → List Float
  | .float x => [x]
  | _ => []

namespace Value

/-! ### The numbers in a value -/

mutual

/-- The floating-point numbers in a value. -/
def floats : Value → List Float
  | .scalar s => s.floats
  | .set ms => ms.flatMap Scalar.floats
  | .pair a b => floats a ++ floats b
  | .list items => itemFloats items
  | .mapping fields => fieldFloats fields

/-- The floating-point numbers in the items of a list. -/
def itemFloats : List Value → List Float
  | [] => []
  | v :: vs => floats v ++ itemFloats vs

/-- The floating-point numbers in the fields of a mapping. -/
def fieldFloats : List (Scalar × Value) → List Float
  | [] => []
  | (k, v) :: fs => k.floats ++ floats v ++ fieldFloats fs

end

theorem mem_itemFloats {items : List Value} {v : Value} {x : Float} (hv : v ∈ items)
    (hx : x ∈ v.floats) : x ∈ itemFloats items := by
  induction items with
  | nil => cases hv
  | cons w ws ih =>
    rcases List.mem_cons.1 hv with rfl | hv
    · exact List.mem_append_left _ hx
    · exact List.mem_append_right _ (ih hv)

theorem mem_fieldFloats {fields : List (Scalar × Value)} {f : Scalar × Value} {x : Float}
    (hf : f ∈ fields) (hx : x ∈ f.2.floats) : x ∈ fieldFloats fields := by
  induction fields with
  | nil => cases hf
  | cons g fs ih =>
    rcases List.mem_cons.1 hf with rfl | hf
    · exact List.mem_append_left _ (List.mem_append_right _ hx)
    · exact List.mem_append_right _ (ih hf)

/-! ### Assignments to texts -/

theorem putField_textFields (entries : List (String × Value)) (key : String) (v : Value) :
    putField (textFields entries) (.text key) v = textFields (Entries.put entries key v) := by
  have hany : (textFields entries).any (·.1.same (.text key)) = entries.any (·.1 == key) :=
    List.any_map
  rw [putField, Entries.put, hany]
  split
  · rw [textFields, textFields, List.map_map, List.map_map]
    refine List.map_congr_left fun e _ => ?_
    show (if e.1 == key then (Scalar.text e.1, v) else (Scalar.text e.1, e.2)) =
      (Scalar.text (if e.1 == key then (key, v) else e).1, (if e.1 == key then (key, v) else e).2)
    by_cases hkey : (e.1 == key) = true
    · rw [if_pos hkey, if_pos hkey, beq_iff_eq.1 hkey]
    · rw [if_neg hkey, if_neg hkey]
  · rw [textFields, textFields, List.map_append]
    rfl

/-- What assignments to texts leave behind. -/
theorem fieldsOf_textFields (entries : List (String × Value)) :
    fieldsOf (textFields entries) = textFields (Entries.ofList entries) := by
  induction entries using List.reverseRecOn with
  | nil => rfl
  | append_singleton entries e ih =>
    unfold fieldsOf Entries.ofList at ih ⊢
    rw [textFields, List.map_append, List.foldl_append, ← textFields, ih, List.foldl_append]
    exact putField_textFields _ e.1 e.2

/-! ### Trees -/

/-- A value of which a JSON text can be a picture, whatever its numbers are. -/
inductive IsTree : Value → Prop
  | scalar {s : Scalar} (h : s.IsWritable) : IsTree (.scalar s)
  | list {items : List Value} (h : ∀ v ∈ items, IsTree v) : IsTree (.list items)
  | ofFields {entries : List (String × Value)} (hkeys : (entries.map Prod.fst).Nodup)
      (h : ∀ e ∈ entries, IsTree e.2) : IsTree (.ofFields entries)

end Value

namespace Json

open Value (IsTree textFields)

theorem isTree_of_number? {cs rest : List Char} {v : Value} (h : number? cs = some (v, rest)) :
    v.IsTree := by
  unfold number? at h
  split at h
  obtain ⟨⟨whole, after⟩, -, h⟩ := Option.bind_eq_some_iff.1 h
  dsimp only at h
  split at h
  · cases h
    exact .scalar trivial
  · split at h <;> cases h <;> exact .scalar trivial

theorem isTree_of_atom {cs rest : List Char} {v : Value} (h : atom cs = .ok (v, rest)) :
    v.IsTree := by
  unfold atom at h
  split at h
  · next r hword =>
    cases h
    obtain ⟨w, hw, hrest⟩ := List.exists_of_findSome?_eq_some hword
    obtain ⟨_, -, hvalue⟩ := Option.map_eq_some_iff.1 hrest
    cases hvalue
    simp only [wordValues, List.mem_cons, List.not_mem_nil, or_false] at hw
    rcases hw with rfl | rfl | rfl | rfl | rfl | rfl <;> exact .scalar trivial
  · split at h
    · next r hnumber =>
      cases h
      exact isTree_of_number? hnumber
    · cases h

mutual

/-- What is read is a tree. -/
theorem isTree_of_value : ∀ {fuel : ℕ} {cs rest : List Char} {v : Value},
    value fuel cs = .ok (v, rest) → v.IsTree
  | 0, _, _, _, h => by cases h
  | fuel + 1, cs, rest, v, h => by
    rw [value.eq_def] at h
    dsimp only at h
    split at h
    · obtain ⟨⟨s, cs⟩, -, h⟩ := bind_eq_ok_iff.1 h
      cases h
      exact .scalar trivial
    · split at h
      · cases h
        have hempty : (Value.ofFields []).IsTree := .ofFields List.nodup_nil fun e he => nomatch he
        exact hempty
      · obtain ⟨⟨fields, cs⟩, hfields, h⟩ := bind_eq_ok_iff.1 h
        cases h
        obtain ⟨entries, rfl, htrees⟩ := isTree_of_members hfields
        rw [Value.fieldsOf_textFields]
        exact .ofFields (Entries.nodup_ofList entries) fun e he =>
          htrees e (Entries.mem_of_mem_ofList he)
    · split at h
      · cases h
        exact .list fun v hv => nomatch hv
      · obtain ⟨⟨items, cs⟩, hitems, h⟩ := bind_eq_ok_iff.1 h
        cases h
        exact .list (isTree_of_items hitems)
    · exact isTree_of_atom h

theorem isTree_of_items : ∀ {fuel : ℕ} {cs rest : List Char} {vs : List Value},
    items fuel cs = .ok (vs, rest) → ∀ v ∈ vs, v.IsTree
  | 0, _, _, _, h => by cases h
  | fuel + 1, cs, rest, vs, h => by
    rw [items] at h
    obtain ⟨⟨v, cs⟩, hv, h⟩ := bind_eq_ok_iff.1 h
    dsimp only at h
    split at h
    · cases h
      exact List.forall_mem_singleton.2 (isTree_of_value hv)
    · obtain ⟨⟨vs, cs⟩, hvs, h⟩ := bind_eq_ok_iff.1 h
      cases h
      exact List.forall_mem_cons.2 ⟨isTree_of_value hv, isTree_of_items hvs⟩
    · cases h

theorem isTree_of_members : ∀ {fuel : ℕ} {cs rest : List Char} {fields : List (Scalar × Value)},
    members fuel cs = .ok (fields, rest) →
      ∃ entries, fields = textFields entries ∧ ∀ e ∈ entries, IsTree e.2
  | 0, _, _, _, h => by cases h
  | fuel + 1, cs, rest, fields, h => by
    rw [members.eq_def] at h
    dsimp only at h
    split at h
    · obtain ⟨⟨key, cs⟩, -, h⟩ := bind_eq_ok_iff.1 h
      dsimp only at h
      split at h
      · obtain ⟨⟨v, cs⟩, hv, h⟩ := bind_eq_ok_iff.1 h
        dsimp only at h
        split at h
        · cases h
          exact ⟨[(key, v)], rfl, List.forall_mem_singleton.2 (isTree_of_value hv)⟩
        · obtain ⟨⟨fs, cs⟩, hfs, h⟩ := bind_eq_ok_iff.1 h
          cases h
          obtain ⟨entries, rfl, htrees⟩ := isTree_of_members hfs
          exact ⟨(key, v) :: entries, rfl, List.forall_mem_cons.2 ⟨isTree_of_value hv, htrees⟩⟩
        · cases h
      · cases h
    · cases h

end

theorem isTree_of_readText {s : String} {v : Value} (h : readText s = .ok v) : v.IsTree := by
  unfold readText at h
  split at h
  · next hread =>
    cases h
    unfold read at hread
    split at hread
    · cases hread
    · split at hread
      · cases hread
      · next hvalue =>
        split at hread
        · cases hread
          exact isTree_of_value hvalue
        · cases hread
  · cases h

/-! ### Numbers in the shortest form

The shortest form is JSON in the strict sense: it refuses infinities and values that are no numbers,
wherever they stand, and does not show as text what it does not know.  So a value that has a shortest
text has finite numbers only. -/

/-- The number is neither infinite nor no number. -/
def IsFinite (x : Float) : Prop := (Decimal.dyadic? x).isSome = true

namespace Style

open Value (itemFloats fieldFloats)

theorem isFinite_of_number {x : Float} (h : Succeeds (compact.number x)) : IsFinite x := by
  by_contra hspecial
  have hrefused : compact.number x = .error .special := if_neg hspecial
  rw [hrefused] at h
  exact not_succeeds_error _ h

theorem isFinite_of_scalar {s : Scalar} (h : Succeeds (compact.scalar s)) :
    ∀ x ∈ s.floats, IsFinite x := by
  cases s with
  | float x => exact List.forall_mem_singleton.2 (isFinite_of_number h)
  | _ => exact nofun

theorem isFinite_of_keyText {s : Scalar} (h : Succeeds (compact.keyText s)) :
    ∀ x ∈ s.floats, IsFinite x := by
  cases s with
  | float x => exact List.forall_mem_singleton.2 (isFinite_of_number h)
  | _ => exact nofun

mutual

theorem isFinite_of_value : ∀ (depth : Nat) (v : Value), Succeeds (compact.value depth v) →
    ∀ x ∈ v.floats, IsFinite x
  | depth, .scalar s, h => by
    rw [value] at h
    exact isFinite_of_scalar h
  | depth, .set ms, h => by
    rw [value] at h
    exact absurd h (not_succeeds_error _)
  | depth, .pair a b, h => by
    rw [value, succeeds_bind_iff] at h
    obtain ⟨_, ha, h⟩ := h
    have hfirst := isFinite_of_value (depth + 1) a ⟨_, ha⟩
    have hsecond := isFinite_of_value (depth + 1) b h.of_bind
    rw [Value.floats]
    exact List.forall_mem_append.2 ⟨hfirst, hsecond⟩
  | depth, .list items, h => by
    rw [value] at h
    rw [Value.floats]
    exact isFinite_of_values (depth + 1) items h.of_bind
  | depth, .mapping fields, h => by
    rw [value] at h
    rw [Value.floats]
    exact isFinite_of_members (depth + 1) fields h.of_bind

theorem isFinite_of_values : ∀ (depth : Nat) (vs : List Value),
    Succeeds (compact.values depth vs) → ∀ x ∈ itemFloats vs, IsFinite x
  | depth, [], _ => nofun
  | depth, v :: vs, h => by
    rw [values, succeeds_bind_iff] at h
    obtain ⟨_, hv, h⟩ := h
    have hfirst := isFinite_of_value depth v ⟨_, hv⟩
    have hrest := isFinite_of_values depth vs h.of_bind
    rw [itemFloats]
    exact List.forall_mem_append.2 ⟨hfirst, hrest⟩

theorem isFinite_of_members : ∀ (depth : Nat) (fs : List (Scalar × Value)),
    Succeeds (compact.members depth fs) → ∀ x ∈ fieldFloats fs, IsFinite x
  | depth, [], _ => nofun
  | depth, (k, v) :: fs, h => by
    rw [members, succeeds_bind_iff] at h
    obtain ⟨_, hk, h⟩ := h
    obtain ⟨_, hv, h⟩ := succeeds_bind_iff.1 h
    have hkey := isFinite_of_keyText ⟨_, hk⟩
    have hvalue := isFinite_of_value depth v ⟨_, hv⟩
    have hrest := isFinite_of_members depth fs h.of_bind
    rw [fieldFloats]
    exact List.forall_mem_append.2 ⟨List.forall_mem_append.2 ⟨hkey, hvalue⟩, hrest⟩

end

/-- A value that has a shortest text has finite numbers only. -/
theorem isFinite_of_write {v : Value} (h : Succeeds (compact.write v)) : ∀ x ∈ v.floats, IsFinite x :=
  isFinite_of_value 0 v (succeeds_map_iff.1 h)

end Style

end Json

end ApiShell
