import ApiShell.Proofs.Run
import ApiShell.Reference
import Mathlib.Data.List.Forall2

/-!
# What resolving makes of a node

`Resolves root active v w` says that resolving the node `v` of `root` below the references of
`active` gives `w`.  The lemmas of this file read that relation shape by shape: a reference, a
list, a mapping and a value without parts.  Nothing else has to open the recursion again.
-/

namespace ApiShell.Reference

open Value (ref?)

/-- Resolving the node `v` of `root` below the references of `active` gives `w`. -/
def Resolves (root : Value) (active : List String) (v w : Value) : Prop :=
  ∃ h : v.refs ⊆ root.refs, resolveFrom root active v h = .ok w

variable {root v w : Value} {active : List String}

/-- Resolving a document is resolving it as a node of itself with no active reference. -/
theorem resolve_eq_ok_iff {document resolved : Value} :
    resolve document = .ok resolved ↔ Resolves document [] document resolved :=
  ⟨fun h => ⟨fun _ hr => hr, h⟩, fun ⟨_, h⟩ => h⟩

/-! ### References -/

/-- A reference is a mapping with a text under `$ref`. -/
theorem exists_fields_of_ref? {ref : String} (hv : ref? v = some ref) :
    ∃ fields, v = .mapping fields ∧ (Value.field? fields "$ref").bind Value.text? = some ref := by
  cases v with
  | mapping fields => exact ⟨fields, rfl, hv⟩
  | _ => simp [ref?, Value.get?] at hv

/-- The pointer of a reference is among the pointers of the value. -/
theorem mem_refs_of_ref? {ref : String} (hv : ref? v = some ref) : ref ∈ v.refs := by
  obtain ⟨fields, rfl, hf⟩ := exists_fields_of_ref? hv
  simp [Value.refs, hf]

/-- An active reference stays as it is. -/
theorem resolveFrom_of_active {ref : String} (hv : ref? v = some ref) (ha : ref ∈ active)
    (h : v.refs ⊆ root.refs) : resolveFrom root active v h = .ok v := by
  obtain ⟨fields, rfl, hf⟩ := exists_fields_of_ref? hv
  rw [resolveFrom]
  split
  · next r hr =>
    obtain rfl : ref = r := Option.some.inj (hf.symm.trans hr)
    rw [dif_pos ha]
  · next hr => rw [hf] at hr; cases hr

/-- A reference that is not active gives what its target gives. -/
theorem resolveFrom_of_lookup {ref : String} {target : Value} (hv : ref? v = some ref)
    (ha : ref ∉ active) (ht : Pointer.lookup root ref = .ok target) (h : v.refs ⊆ root.refs) :
    resolveFrom root active v h =
      resolveFrom root (ref :: active) target (Pointer.refs_lookup_subset ht) := by
  obtain ⟨fields, rfl, hf⟩ := exists_fields_of_ref? hv
  rw [resolveFrom]
  split
  · next r hr =>
    obtain rfl : ref = r := Option.some.inj (hf.symm.trans hr)
    rw [dif_neg ha]
    split
    · next he => rw [ht] at he; cases he
    · next t ht' =>
      obtain rfl : target = t := Except.ok.inj (ht.symm.trans ht')
      rfl
  · next hr => rw [hf] at hr; cases hr

/-- A reference that is not active and leads nowhere is a fault. -/
theorem resolveFrom_of_lookup_error {ref : String} {fault : Fault} (hv : ref? v = some ref)
    (ha : ref ∉ active) (ht : Pointer.lookup root ref = .error fault) (h : v.refs ⊆ root.refs) :
    resolveFrom root active v h = .error fault := by
  obtain ⟨fields, rfl, hf⟩ := exists_fields_of_ref? hv
  rw [resolveFrom]
  split
  · next r hr =>
    obtain rfl : ref = r := Option.some.inj (hf.symm.trans hr)
    rw [dif_neg ha]
    split
    · next he => rw [ht] at he; exact he ▸ rfl
    · next ht' => rw [ht] at ht'; cases ht'
  · next hr => rw [hf] at hr; cases hr

/-- What resolving makes of a reference. -/
theorem resolves_reference_iff {ref : String} (hv : ref? v = some ref) :
    Resolves root active v w ↔ v.refs ⊆ root.refs ∧
      (ref ∈ active ∧ w = v ∨
        ref ∉ active ∧ ∃ target, Pointer.lookup root ref = .ok target ∧
          Resolves root (ref :: active) target w) := by
  constructor
  · rintro ⟨hsub, h⟩
    refine ⟨hsub, ?_⟩
    by_cases ha : ref ∈ active
    · rw [resolveFrom_of_active hv ha] at h
      exact .inl ⟨ha, (Except.ok.inj h).symm⟩
    · cases ht : Pointer.lookup root ref with
      | error fault => rw [resolveFrom_of_lookup_error hv ha ht] at h; cases h
      | ok target =>
        rw [resolveFrom_of_lookup hv ha ht] at h
        exact .inr ⟨ha, target, rfl, _, h⟩
  · rintro ⟨hsub, ⟨ha, rfl⟩ | ⟨ha, target, ht, _, h⟩⟩
    · exact ⟨hsub, resolveFrom_of_active hv ha hsub⟩
    · exact ⟨hsub, (resolveFrom_of_lookup hv ha ht hsub).trans h⟩

/-! ### Lists and mappings -/

/-- Resolving the items of a list resolves each of them. -/
theorem resolveItems_eq_ok_iff {items items' : List Value}
    (h : Value.refsOfItems items ⊆ root.refs) :
    resolveItems root active items h = .ok items' ↔
      List.Forall₂ (Resolves root active) items items' := by
  induction items generalizing items' with
  | nil =>
    rw [resolveItems, List.forall₂_nil_left_iff]
    exact ⟨fun h => (Except.ok.inj h).symm, fun h => h ▸ rfl⟩
  | cons v vs ih =>
    have hv : v.refs ⊆ root.refs := fun _ hr => h (List.mem_append_left _ hr)
    have hvs : Value.refsOfItems vs ⊆ root.refs := fun _ hr => h (List.mem_append_right _ hr)
    rw [resolveItems, List.forall₂_cons_left_iff, bind_eq_ok_iff]
    constructor
    · rintro ⟨w, hw, hrest⟩
      obtain ⟨ws, hws, heq⟩ := bind_eq_ok_iff.1 hrest
      exact ⟨w, ws, ⟨hv, hw⟩, (ih hvs).1 hws, (Except.ok.inj heq).symm⟩
    · rintro ⟨w, ws, ⟨_, hw⟩, hws, rfl⟩
      exact ⟨w, hw, bind_eq_ok_iff.2 ⟨ws, (ih hvs).2 hws, rfl⟩⟩

/-- A field after resolving: the same key, the resolved value. -/
def ResolvesField (root : Value) (active : List String) (f g : Scalar × Value) : Prop :=
  f.1 = g.1 ∧ Resolves root active f.2 g.2

/-- Resolving the fields of a mapping resolves the value of each of them. -/
theorem resolveFields_eq_ok_iff {fields fields' : List (Scalar × Value)}
    (h : Value.refsOfFields fields ⊆ root.refs) :
    resolveFields root active fields h = .ok fields' ↔
      List.Forall₂ (ResolvesField root active) fields fields' := by
  induction fields generalizing fields' with
  | nil =>
    rw [resolveFields, List.forall₂_nil_left_iff]
    exact ⟨fun h => (Except.ok.inj h).symm, fun h => h ▸ rfl⟩
  | cons f fs ih =>
    obtain ⟨key, v⟩ := f
    have hv : v.refs ⊆ root.refs := fun _ hr => h (List.mem_append_left _ hr)
    have hfs : Value.refsOfFields fs ⊆ root.refs := fun _ hr => h (List.mem_append_right _ hr)
    rw [resolveFields, List.forall₂_cons_left_iff, bind_eq_ok_iff]
    constructor
    · rintro ⟨w, hw, hrest⟩
      obtain ⟨gs, hgs, heq⟩ := bind_eq_ok_iff.1 hrest
      exact ⟨(key, w), gs, ⟨rfl, hv, hw⟩, (ih hfs).1 hgs, (Except.ok.inj heq).symm⟩
    · rintro ⟨⟨_, w⟩, gs, ⟨rfl, _, hw⟩, hgs, rfl⟩
      exact ⟨w, hw, bind_eq_ok_iff.2 ⟨gs, (ih hfs).2 hgs, rfl⟩⟩

/-- What resolving makes of a list. -/
theorem resolves_list_iff {items : List Value} :
    Resolves root active (.list items) w ↔ Value.refs (.list items) ⊆ root.refs ∧
      ∃ items', w = .list items' ∧ List.Forall₂ (Resolves root active) items items' := by
  constructor
  · rintro ⟨hsub, h⟩
    rw [resolveFrom] at h
    obtain ⟨items', hitems, heq⟩ := bind_eq_ok_iff.1 h
    exact ⟨hsub, items', (Except.ok.inj heq).symm, (resolveItems_eq_ok_iff hsub).1 hitems⟩
  · rintro ⟨hsub, items', rfl, hitems⟩
    refine ⟨hsub, ?_⟩
    rw [resolveFrom]
    exact bind_eq_ok_iff.2 ⟨items', (resolveItems_eq_ok_iff hsub).2 hitems, rfl⟩

/-- The pointers of a mapping that is no reference are those of its fields. -/
theorem refs_mapping_of_ref?_eq_none {fields : List (Scalar × Value)}
    (hr : ref? (.mapping fields) = none) :
    Value.refs (.mapping fields) = Value.refsOfFields fields := by
  have hf : (Value.field? fields "$ref").bind Value.text? = none := hr
  simp [Value.refs, hf]

/-- A mapping that is no reference gives what its fields give. -/
theorem resolveFrom_mapping {fields : List (Scalar × Value)}
    (hr : ref? (.mapping fields) = none) (h : Value.refs (.mapping fields) ⊆ root.refs) :
    resolveFrom root active (.mapping fields) h =
      resolveFields root active fields (refs_mapping_of_ref?_eq_none hr ▸ h) >>=
        fun fs => .ok (.mapping fs) := by
  rw [resolveFrom]
  split
  · next _ hf => exact absurd (hr.symm.trans hf) (by simp)
  · rfl

/-- What resolving makes of a mapping that is no reference. -/
theorem resolves_mapping_iff {fields : List (Scalar × Value)}
    (hr : ref? (.mapping fields) = none) :
    Resolves root active (.mapping fields) w ↔ Value.refs (.mapping fields) ⊆ root.refs ∧
      ∃ fields', w = .mapping fields' ∧
        List.Forall₂ (ResolvesField root active) fields fields' := by
  constructor
  · rintro ⟨hsub, h⟩
    rw [resolveFrom_mapping hr] at h
    obtain ⟨fields', hfields, heq⟩ := bind_eq_ok_iff.1 h
    exact ⟨hsub, fields', (Except.ok.inj heq).symm, (resolveFields_eq_ok_iff _).1 hfields⟩
  · rintro ⟨hsub, fields', rfl, hfields⟩
    refine ⟨hsub, ?_⟩
    rw [resolveFrom_mapping hr]
    exact bind_eq_ok_iff.2 ⟨fields', (resolveFields_eq_ok_iff _).2 hfields, rfl⟩

/-! ### Values without parts -/

/-- Neither a list nor a mapping: resolving does not look into it. -/
def IsAtom : Value → Prop
  | .list _ | .mapping _ => False
  | _ => True

/-- The shapes of values. -/
theorem list_or_mapping_or_isAtom (v : Value) :
    (∃ items, v = .list items) ∨ (∃ fields, v = .mapping fields) ∨ IsAtom v := by
  cases v with
  | list items => exact .inl ⟨items, rfl⟩
  | mapping fields => exact .inr (.inl ⟨fields, rfl⟩)
  | _ => exact .inr (.inr trivial)

/-- Resolving an atom gives it back. -/
theorem resolveFrom_of_isAtom (hv : IsAtom v) (h : v.refs ⊆ root.refs) :
    resolveFrom root active v h = .ok v := by
  cases v with
  | list items => exact hv.elim
  | mapping fields => exact hv.elim
  | _ => rw [resolveFrom.eq_def]

/-- What resolving makes of an atom. -/
theorem resolves_atom_iff (hv : IsAtom v) : Resolves root active v w ↔ w = v := by
  have hsub : v.refs ⊆ root.refs := by
    cases v with
    | list items => exact hv.elim
    | mapping fields => exact hv.elim
    | _ => simp [Value.refs]
  constructor
  · rintro ⟨_, h⟩
    exact (Except.ok.inj ((resolveFrom_of_isAtom hv hsub).symm.trans h)).symm
  · rintro rfl
    exact ⟨hsub, resolveFrom_of_isAtom hv hsub⟩

/-- A scalar resolves to itself. -/
theorem resolves_scalar {s : Scalar} : Resolves root active (.scalar s) (.scalar s) := by
  have ha : IsAtom (.scalar s) := trivial
  exact (resolves_atom_iff ha).2 rfl

/-! ### Induction along the calls -/

/-- Induction along the calls that resolving makes: for the parts of what is no reference, and for
the target of a reference that is not active. -/
theorem node_induction {motive : List String → Value → Prop}
    (atom : ∀ {active v}, IsAtom v → motive active v)
    (list : ∀ {active items}, (∀ v ∈ items, motive active v) → motive active (.list items))
    (mapping : ∀ {active fields}, ref? (.mapping fields) = none →
      (∀ f ∈ fields, motive active f.2) → motive active (.mapping fields))
    (reference : ∀ {active v ref}, ref? v = some ref → ref ∈ root.refs →
      (ref ∉ active → ∀ target, Pointer.lookup root ref = .ok target →
        motive (ref :: active) target) → motive active v)
    (h : v.refs ⊆ root.refs) : motive active v := by
  induction hn : inactive root active using Nat.strongRecOn generalizing active v with
  | _ n jump =>
    induction hm : sizeOf v using Nat.strongRecOn generalizing v with
    | _ m down =>
      obtain ⟨items, rfl⟩ | ⟨fields, rfl⟩ | ha := list_or_mapping_or_isAtom v
      · refine list fun u hu => ?_
        have hlt : sizeOf u < sizeOf (Value.list items) :=
          Nat.lt_trans (List.sizeOf_lt_of_mem hu) (by simp)
        exact down _ (hm ▸ hlt) (fun _ hr => h (Value.refs_subset_of_mem_items hu hr)) rfl
      · cases hr : ref? (.mapping fields) with
        | none =>
          refine mapping hr fun f hf => ?_
          have hlt : sizeOf f.2 < sizeOf (Value.mapping fields) := by
            have := List.sizeOf_lt_of_mem hf
            obtain ⟨key, u⟩ := f
            simp at this ⊢
            omega
          rw [refs_mapping_of_ref?_eq_none hr] at h
          exact down _ (hm ▸ hlt) (fun _ hr => h (Value.refs_subset_of_mem_fields hf hr)) rfl
        | some ref =>
          have href : ref ∈ root.refs := h (mem_refs_of_ref? hr)
          refine reference hr href fun ha target ht => ?_
          exact jump _ (hn ▸ inactive_cons_lt href ha) (Pointer.refs_lookup_subset ht) rfl
      · exact atom ha

/-! ### All shapes together -/

/-- What resolving makes of a value that is no reference has the same shape as the value. -/
theorem Resolves.shape (h : Resolves root active v w) (hv : ref? v = none) :
    (∃ items items', v = .list items ∧ w = .list items' ∧
      List.Forall₂ (Resolves root active) items items') ∨
    (∃ fields fields', v = .mapping fields ∧ w = .mapping fields' ∧
      List.Forall₂ (ResolvesField root active) fields fields') ∨
    IsAtom v ∧ w = v := by
  obtain ⟨items, rfl⟩ | ⟨fields, rfl⟩ | ha := list_or_mapping_or_isAtom v
  · obtain ⟨-, items', rfl, hitems⟩ := resolves_list_iff.1 h
    exact .inl ⟨items, items', rfl, rfl, hitems⟩
  · obtain ⟨-, fields', rfl, hfields⟩ := (resolves_mapping_iff hv).1 h
    exact .inr (.inl ⟨fields, fields', rfl, rfl, hfields⟩)
  · exact .inr (.inr ⟨ha, (resolves_atom_iff ha).1 h⟩)

/-! ### Values without references -/

/-- A list of items holds no reference if none of them does. -/
theorem refsOfItems_eq_nil_iff {items : List Value} :
    Value.refsOfItems items = [] ↔ ∀ v ∈ items, v.refs = [] := by
  induction items with
  | nil => simp [Value.refsOfItems]
  | cons v vs ih => rw [Value.refsOfItems, List.append_eq_nil_iff, ih, List.forall_mem_cons]

/-- A list of fields holds no reference if none of their values does. -/
theorem refsOfFields_eq_nil_iff {fields : List (Scalar × Value)} :
    Value.refsOfFields fields = [] ↔ ∀ f ∈ fields, f.2.refs = [] := by
  induction fields with
  | nil => simp [Value.refsOfFields]
  | cons f fs ih => rw [Value.refsOfFields, List.append_eq_nil_iff, ih, List.forall_mem_cons]

/-! ### Chains of expansions -/

/-- Expanding one reference after the other, none of them active, leads from the node `v` below the
references of `active` to the node `u` below those of `active'`. -/
inductive Expands (root : Value) : List String → Value → List String → Value → Prop
  | refl {active : List String} {v : Value} : Expands root active v active v
  | head {active active' : List String} {v t u : Value} {ref : String} :
      ref? v = some ref → ref ∉ active → Pointer.lookup root ref = .ok t →
      Expands root (ref :: active) t active' u → Expands root active v active' u

/-- Expansions lead from a node to a reference that is active and stays, or to a value that is no
reference and is resolved there. -/
theorem Resolves.exists_expands (h : Resolves root active v w) :
    ∃ active' u, Expands root active v active' u ∧
      ((∃ ref ∈ active', ref? u = some ref ∧ w = u) ∨
        ref? u = none ∧ Resolves root active' u w) := by
  -- the number of references that are not active falls with every expansion
  induction hn : inactive root active using Nat.strongRecOn generalizing active v with
  | _ n ih =>
    cases hv : ref? v with
    | none => exact ⟨active, v, .refl, .inr ⟨hv, h⟩⟩
    | some ref =>
      obtain ⟨hsub, ⟨ha, rfl⟩ | ⟨ha, target, ht, hres⟩⟩ := (resolves_reference_iff hv).1 h
      · exact ⟨active, w, .refl, .inl ⟨ref, ha, hv, rfl⟩⟩
      · have hlt : inactive root (ref :: active) < n :=
          hn ▸ inactive_cons_lt (hsub (mem_refs_of_ref? hv)) ha
        obtain ⟨active', u, htu, hu⟩ := ih _ hlt hres rfl
        exact ⟨active', u, .head hv ha ht htu, hu⟩

end ApiShell.Reference
