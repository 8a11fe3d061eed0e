import ApiShell.Pointer

/-!
# Resolving references

A mapping with a text under `$ref` is a reference: it stands for the place that the text points at,
whatever else the mapping holds.  `resolve` replaces references by copies of what they stand for.  The
references that led to a node are *active* there; an active reference is left as it is, so the result
is finite even where references form cycles.

The recursion ends because a document holds finitely many references and every step adds one of them
to the active ones or goes down into a part.
-/

namespace ApiShell

namespace Value

/-- The pointer of a reference. -/
def ref? (v : Value) : Option String := (v.get? "$ref").bind text?

mutual

/-- The pointers of all references in a value, also of those inside other references. -/
def refs : Value → List String
  | .list items => refsOfItems items
  | .mapping fields =>
    ((field? fields "$ref").bind text?).toList ++ refsOfFields fields
  | _ => []

/-- The pointers of all references in the items of a list. -/
def refsOfItems : List Value → List String
  | [] => []
  | v :: vs => refs v ++ refsOfItems vs

/-- The pointers of all references in the fields of a mapping. -/
def refsOfFields : List (Scalar × Value) → List String
  | [] => []
  | (_, v) :: fs => refs v ++ refsOfFields fs

end

theorem refs_subset_of_mem_items {items : List Value} {v : Value} (h : v ∈ items) :
    refs v ⊆ refsOfItems items := by
  induction items with
  | nil => cases h
  | cons w ws ih =>
    rcases List.mem_cons.1 h with rfl | h
    · exact fun r hr => List.mem_append_left _ hr
    · exact fun r hr => List.mem_append_right _ (ih h hr)

theorem refs_subset_of_mem_fields {fields : List (Scalar × Value)} {f : Scalar × Value}
    (h : f ∈ fields) : refs f.2 ⊆ refsOfFields fields := by
  induction fields with
  | nil => cases h
  | cons g gs ih =>
    rcases List.mem_cons.1 h with rfl | h
    · exact fun r hr => List.mem_append_left _ hr
    · exact fun r hr => List.mem_append_right _ (ih h hr)

theorem refs_field_subset {fields : List (Scalar × Value)} {key : String} {v : Value}
    (h : field? fields key = some v) : refs v ⊆ refs (.mapping fields) := by
  obtain ⟨f, hf, rfl⟩ := Option.map_eq_some_iff.1 h
  intro r hr
  simp only [refs]
  exact List.mem_append_right _ (refs_subset_of_mem_fields (List.mem_of_find?_eq_some hf) hr)

end Value

namespace Pointer

theorem refs_step_subset {node next : Value} {segment : String}
    (h : step node segment = .ok (some next)) : next.refs ⊆ node.refs := by
  unfold step at h
  split at h
  · exact Value.refs_field_subset (by simpa using h)
  · rename_i items
    cases hp : position? segment with
    | error d => rw [hp] at h; cases h
    | ok p =>
      rw [hp] at h
      cases p with
      | none => simp [Except.map] at h
      | some n =>
        have h : items[n]? = some next := by simpa [Except.map] using h
        simp only [Value.refs]
        exact Value.refs_subset_of_mem_items (List.mem_of_getElem? h)
  · simp at h

theorem refs_follow_subset {ref : String} {node target : Value} {path : List String}
    (h : follow ref node path = .ok target) : target.refs ⊆ node.refs := by
  induction path generalizing node with
  | nil => simp only [follow, Except.ok.injEq] at h; subst h; exact fun _ hr => hr
  | cons segment rest ih =>
    simp only [follow] at h
    split at h
    · cases h
    · cases h
    · rename_i next hstep
      exact fun r hr => refs_step_subset hstep (ih h hr)

/-- What a pointer leads to holds only references of the document. -/
theorem refs_lookup_subset {document target : Value} {ref : String}
    (h : lookup document ref = .ok target) : target.refs ⊆ document.refs := by
  unfold lookup at h
  split at h
  · exact refs_follow_subset h
  · cases h

end Pointer

namespace Reference

/-- The number of references of the document that are not active. -/
def inactive (root : Value) (active : List String) : Nat :=
  (root.refs.filter (· ∉ active)).length

theorem inactive_cons_lt {root : Value} {active : List String} {ref : String}
    (hroot : ref ∈ root.refs) (hnew : ref ∉ active) :
    inactive root (ref :: active) < inactive root active := by
  unfold inactive
  generalize root.refs = rs at hroot
  induction rs with
  | nil => cases hroot
  | cons r rs ih =>
    have hle : (rs.filter (· ∉ ref :: active)).length ≤ (rs.filter (· ∉ active)).length := by
      rw [← List.countP_eq_length_filter, ← List.countP_eq_length_filter]
      refine List.countP_mono_left fun x _ hx => ?_
      simp only [List.mem_cons, not_or, decide_eq_true_eq] at hx ⊢
      exact hx.2
    rw [List.filter_cons, List.filter_cons]
    by_cases hr : r = ref
    · have hin : decide (r ∉ ref :: active) = false := by simp [hr]
      have hout : decide (r ∉ active) = true := by simp [hr, hnew]
      rw [hin, hout]
      exact Nat.lt_succ_of_le hle
    · have hmem : ref ∈ rs := by
        rcases List.mem_cons.1 hroot with h | h
        · exact absurd h.symm hr
        · exact h
      have hlt := ih hmem
      have hsame : decide (r ∉ ref :: active) = decide (r ∉ active) := by simp [hr]
      rw [hsame]
      cases decide (r ∉ active)
      · exact hlt
      · exact Nat.succ_lt_succ hlt

mutual

/-- Resolve the references of a node of `root`, the references of `active` having led to it. -/
def resolveFrom (root : Value) (active : List String) (node : Value)
    (h : node.refs ⊆ root.refs) : Except Fault Value :=
  match node with
  | .list items => do
    let items ← resolveItems root active items h
    return .list items
  | .mapping fields =>
    match hr : (Value.field? fields "$ref").bind Value.text? with
    | some ref =>
      if ha : ref ∈ active then .ok (.mapping fields)
      else
        match ht : Pointer.lookup root ref with
        | .error e => .error e
        | .ok target =>
          have : inactive root (ref :: active) < inactive root active :=
            inactive_cons_lt (h (List.mem_append_left _ (by simp [hr]))) ha
          resolveFrom root (ref :: active) target (Pointer.refs_lookup_subset ht)
    | none => do
      let fields ← resolveFields root active fields fun _ hx => h (List.mem_append_right _ hx)
      return .mapping fields
  | other => .ok other
termination_by (inactive root active, sizeOf node)

/-- Resolve the references in the items of a list. -/
def resolveItems (root : Value) (active : List String) (items : List Value)
    (h : Value.refsOfItems items ⊆ root.refs) : Except Fault (List Value) :=
  match items with
  | [] => .ok []
  | v :: vs => do
    let v ← resolveFrom root active v fun _ hx => h (List.mem_append_left _ hx)
    let vs ← resolveItems root active vs fun _ hx => h (List.mem_append_right _ hx)
    return v :: vs
termination_by (inactive root active, sizeOf items)

/-- Resolve the references in the fields of a mapping. -/
def resolveFields (root : Value) (active : List String) (fields : List (Scalar × Value))
    (h : Value.refsOfFields fields ⊆ root.refs) : Except Fault (List (Scalar × Value)) :=
  match fields with
  | [] => .ok []
  | (k, v) :: fs => do
    let v ← resolveFrom root active v fun _ hx => h (List.mem_append_left _ hx)
    let fs ← resolveFields root active fs fun _ hx => h (List.mem_append_right _ hx)
    return (k, v) :: fs
termination_by (inactive root active, sizeOf fields)

end

/-- Replace all references of a document that do not close a cycle. -/
def resolve (document : Value) : Except Fault Value :=
  resolveFrom document [] document fun _ h => h

end Reference

end ApiShell
