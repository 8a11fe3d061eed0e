import ApiShell.Proofs.Json.Writable
import ApiShell.Proofs.Spec.Defects

/-!
# What endpoints take over from a description

The default and the choices of a parameter are values of the description, taken over as they stand.
Where JSON can write the whole description it can write them as well.
-/

namespace ApiShell.Spec

open Value (IsWritable)

/-- The default and the choices of a parameter can be written. -/
def Parameter.IsWritable (p : Parameter) : Prop :=
  ∀ schema, p.schema? = some schema →
    schema.default.IsWritable ∧ ∀ choice ∈ schema.choices, choice.IsWritable

theorem isWritable_listed {v : Value} (h : v.IsWritable) {item : Value}
    (hitem : item ∈ Schema.listed v) : item.IsWritable := by
  cases v with
  | list items => exact Value.areWritable_iff.1 h item hitem
  | _ => cases hitem

/-- A schema takes over its default and its choices. -/
theorem isWritable_of_read {node : Value} {schema : Schema} (h : Schema.read node = .ok schema)
    (hnode : node.IsWritable) :
    schema.default.IsWritable ∧ ∀ choice ∈ schema.choices, choice.IsWritable := by
  have huntyped : Schema.untyped.default.IsWritable ∧
      ∀ choice ∈ Schema.untyped.choices, choice.IsWritable :=
    ⟨trivial, List.forall_mem_nil _⟩
  cases node with
  | mapping fields =>
    by_cases href : Value.field? fields "$ref" = none
    · obtain ⟨build, hread, hbuild⟩ := read_mapping href
      rw [hread] at h
      obtain ⟨minimum, -, h⟩ := bind_eq_ok_iff.1 h
      obtain ⟨maximum, -, h⟩ := bind_eq_ok_iff.1 h
      obtain ⟨_, -, h⟩ := bind_eq_ok_iff.1 h
      obtain ⟨items, -, h⟩ := bind_eq_ok_iff.1 h
      obtain ⟨properties, -, h⟩ := bind_eq_ok_iff.1 h
      obtain rfl := Except.ok.inj h
      obtain ⟨hdefault, hchoices⟩ := hbuild minimum maximum properties items
      rw [hdefault, hchoices]
      exact ⟨hnode.getD "default", fun choice => isWritable_listed (hnode.getD "enum")⟩
    · rw [Schema.read, if_pos (Option.isSome_iff_ne_none.2 href)] at h
      obtain rfl := Except.ok.inj h
      exact huntyped
  | _ =>
    rw [Schema.read] at h
    · obtain rfl := Except.ok.inj h
      exact huntyped
    · intro fields hfields
      cases hfields

theorem isWritable_of_schemaField {raw : Value} {schema : Schema}
    (h : schemaField raw = .ok (some schema)) (hraw : raw.IsWritable) :
    schema.default.IsWritable ∧ ∀ choice ∈ schema.choices, choice.IsWritable := by
  unfold schemaField at h
  cases hnode : raw.get? "schema" with
  | none =>
    rw [hnode] at h
    cases h
  | some node =>
    rw [hnode] at h
    obtain ⟨read, hread, hsome⟩ := map_eq_ok_iff.1 (mapError_eq_ok_iff.1 h)
    obtain rfl := Option.some.inj hsome
    exact isWritable_of_read hread (hraw.of_get? hnode)

/-- A parameter takes over its schema. -/
theorem isWritable_of_readParameter {raw : Value} {p : Parameter}
    (h : readParameter raw = .ok p) (hraw : raw.IsWritable) : p.IsWritable := by
  have hschema : schemaField raw = .ok p.schema? := by
    unfold readParameter at h
    split at h
    · split at h
      · split at h
        · cases h
        · dsimp only at h
          split at h
          · cases h
          · obtain ⟨schema?, hschema, h⟩ := bind_eq_ok_iff.1 h
            obtain ⟨description, -, h⟩ := bind_eq_ok_iff.1 h
            obtain rfl := Except.ok.inj h
            exact hschema
      · cases h
    · cases h
  intro schema hsome
  rw [hsome] at hschema
  exact isWritable_of_schemaField hschema hraw

/-- Merged parameters are parameters of the path or of the operation. -/
theorem isWritable_of_mergeParameters {shared own : Value} {raw : List Value}
    (h : mergeParameters shared own = .ok raw) (hshared : shared.IsWritable)
    (hown : own.IsWritable) : ∀ r ∈ raw, r.IsWritable := by
  unfold mergeParameters at h
  obtain ⟨s, hs, h⟩ := bind_eq_ok_iff.1 h
  obtain ⟨w, hw, h⟩ := bind_eq_ok_iff.1 h
  obtain ⟨overriding, -, h⟩ := bind_eq_ok_iff.1 h
  obtain ⟨keys, -, h⟩ := bind_eq_ok_iff.1 h
  obtain rfl := Except.ok.inj h
  have hlist : ∀ {v : Value} {items : List Value},
      Reading.list .parametersNotList v = .ok items → v.IsWritable → ∀ r ∈ items, r.IsWritable := by
    intro v items hitems hv
    cases v with
    | list xs =>
      obtain rfl := Except.ok.inj hitems
      exact Value.areWritable_iff.1 hv
    | _ => cases hitems
  intro r hr
  rcases List.mem_append.1 hr with hkept | hmem
  · obtain ⟨pair, hpair, rfl⟩ := List.mem_map.1 hkept
    have hzip := (List.mem_filter.1 hpair).1
    exact hlist hs hshared _ (List.of_mem_zip hzip).1
  · exact hlist hw hown r hmem

/-- An operation of a description that can be written stands there, and so do the parameters of its
path. -/
theorem isWritable_of_mem_operations {document : Value} (h : document.IsWritable) {o : Operation}
    (ho : o ∈ operations (pathsOf document)) : o.value.IsWritable ∧ o.shared.IsWritable := by
  have hpaths : Value.IsWritable (.mapping (pathsOf document)) := by
    have hfield : ((document.getD "paths").orElse (.mapping [])).IsWritable :=
      (h.getD "paths").orElse trivial
    rw [pathsOf]
    split
    · next paths hpaths =>
      rw [← hpaths]
      exact hfield
    · exact trivial
  obtain ⟨path, hpath, method, hat⟩ := exists_operation?_of_mem ho
  obtain ⟨-, rfl⟩ := operation?_eq_some_iff.1 hat
  have hitem : path.2.IsWritable := Value.HaveWritable.of_mem hpaths hpath
  exact ⟨hitem.getD _, (hitem.getD "parameters").orElse trivial⟩

/-- The endpoints of a description that can be written have parameters that can be written. -/
theorem isWritable_of_extractEndpoints {document : Value} {log log' : List LogRecord}
    {found : List Endpoint} (h : (extractEndpoints document).runWith log = (.ok found, log'))
    (hdocument : document.IsWritable) :
    ∀ e ∈ found, ∀ p ∈ e.parameters, p.IsWritable := by
  intro e he p hp
  obtain ⟨rfl, -, -⟩ := extractEndpoints_eq h
  obtain ⟨o, ho, he⟩ := List.mem_flatMap.1 he
  obtain ⟨hvalue, hshared⟩ := isWritable_of_mem_operations hdocument ho
  obtain ⟨-, -, raw, hraw, hparameters⟩ := of_readOperation (Operation.mem_endpoints_iff.1 he)
  have hmerged := isWritable_of_mergeParameters hraw hshared
    ((hvalue.getD "parameters").orElse trivial)
  obtain ⟨r, hr, hread⟩ := exists_mem_of_forall₂ (mapM_eq_ok_iff.1 hparameters) hp
  exact isWritable_of_readParameter hread (hmerged r hr)

end ApiShell.Spec
