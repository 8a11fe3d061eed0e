import ApiShell.Proofs.Spec.Operations

/-!
# Defects of descriptions

Reading an operation can fail in two ways.  Where the description is at fault the operation is
skipped, and the others are still read.  A defect ends the whole extraction.  Two defects can be
met: a parameter whose name or place is a list, a set or a mapping has no key by which parameters
could be merged, and a bound of a schema that is an integer beyond the floating-point numbers is no
bound.

A reading is put together from smaller ones, and so is what it can meet (`Reading.Meets`).  From the
parameters and schemas of an operation the facts pass up to the operation, and from the operations
to the walk over the description: `extractEndpoints_returns_iff` says on which descriptions
extraction returns.
-/

namespace ApiShell.Spec

/-! ### Readings that meet one defect -/

section Meets

variable {α β : Type} {d : Defect} {p q : Prop}

/-- The reading meets no defect other than `d`, and `p` says when: it meets `d` only if `p`, and it
does not succeed if `p`.  It may be skipped in any case. -/
def Reading.Meets (d : Defect) (p : Prop) : Reading α → Prop
  | .ok _ => ¬ p
  | .error (.skip _) => True
  | .error (.defect e) => e = d ∧ p

namespace Reading.Meets

theorem ok (a : α) : Meets d False (.ok a) := id

theorem skip (reason : SkipReason) : Meets d p (Reading.skip reason : Reading α) := trivial

theorem congr {r : Reading α} (h : Meets d p r) (hpq : p ↔ q) : Meets d q r :=
  propext hpq ▸ h

/-- A sequence meets what its parts meet. -/
theorem bind {x : Reading α} {f : α → Reading β} (hx : Meets d p x)
    (hf : ∀ a, x = .ok a → Meets d q (f a)) : Meets d (p ∨ q) (x >>= f) := by
  cases x with
  | ok a =>
    have hrest : Meets d q (f a) := hf a rfl
    have hfirst : ¬ p := hx
    exact hrest.congr (by simp [hfirst])
  | error obstacle =>
    cases obstacle with
    | skip reason => trivial
    | defect e =>
      obtain ⟨rfl, hp⟩ : e = d ∧ p := hx
      exact ⟨rfl, .inl hp⟩

/-- What is done at first without meeting a defect does not count. -/
theorem after {x : Reading α} {f : α → Reading β} (hx : Meets d False x)
    (hf : ∀ a, x = .ok a → Meets d q (f a)) : Meets d q (x >>= f) :=
  (hx.bind hf).congr (by simp)

/-- What is done in the end without meeting a defect does not count. -/
theorem before {x : Reading α} {f : α → Reading β} (hx : Meets d p x)
    (hf : ∀ a, x = .ok a → Meets d False (f a)) : Meets d p (x >>= f) :=
  (hx.bind hf).congr (by simp)

theorem map {x : Reading α} (hx : Meets d p x) (f : α → β) : Meets d p (x.map f) := by
  cases x with
  | ok a => exact hx
  | error obstacle => cases obstacle <;> exact hx

/-- A loop meets what its rounds meet. -/
theorem foldlM {f : β → α → Reading β} {P : α → Prop} {as : List α}
    (hf : ∀ b, ∀ a ∈ as, Meets d (P a) (f b a)) (b : β) :
    Meets d (∃ a ∈ as, P a) (as.foldlM f b) := by
  induction as generalizing b with
  | nil => exact (ok b).congr (by simp)
  | cons a as ih =>
    have hfirst : Meets d (P a) (f b a) := hf b a List.mem_cons_self
    have hrest := ih fun b' a' ha' => hf b' a' (List.mem_cons_of_mem a ha')
    rw [List.foldlM_cons]
    exact (hfirst.bind fun b' _ => hrest b').congr (by simp)

theorem mapM {f : α → Reading β} {P : α → Prop} {as : List α}
    (hf : ∀ a ∈ as, Meets d (P a) (f a)) : Meets d (∃ a ∈ as, P a) (as.mapM f) := by
  induction as with
  | nil => exact (ok []).congr (by simp)
  | cons a as ih =>
    have hfirst : Meets d (P a) (f a) := hf a List.mem_cons_self
    have hrest := ih fun a' ha' => hf a' (List.mem_cons_of_mem a ha')
    rw [List.mapM_cons]
    exact (hfirst.bind fun b _ => hrest.bind fun bs _ => ok (b :: bs)).congr (by simp)

/-- Faulty fields are no defect. -/
theorem ofChecked (c : Checked α) : Meets d False (Reading.ofChecked c) := by
  cases c with
  | ok a => exact ok a
  | error faults => trivial

theorem list (reason : SkipReason) (v : Value) : Meets d False (Reading.list reason v) := by
  cases v with
  | list xs => exact ok xs
  | _ => trivial

end Reading.Meets

theorem ofDefects_bind (x : Except Defect α) (f : α → Except Defect β) :
    Reading.ofDefects (x >>= f) = Reading.ofDefects x >>= fun a => Reading.ofDefects (f a) := by
  cases x <;> rfl

theorem ofDefects_map (x : Except Defect α) (f : α → β) :
    Reading.ofDefects (x.map f) = (Reading.ofDefects x).map f := by
  cases x <;> rfl

end Meets

/-! ### Bounds beyond the floating-point numbers -/

/-- The value is an integer that no floating-point number comes near to. -/
def IsHuge (v : Value) : Prop := ∃ n, v = .int n ∧ Decimal.ofInt? n = none

/-- The schema that a node is read as has a bound that is no floating-point number, at whatever
depth. -/
inductive HasHugeBound : Value → Prop
  | minimum {fields : List (Scalar × Value)} (href : Value.field? fields "$ref" = none)
      (hbound : IsHuge ((Value.field? fields "minimum").getD .null)) :
      HasHugeBound (.mapping fields)
  | maximum {fields : List (Scalar × Value)} (href : Value.field? fields "$ref" = none)
      (hbound : IsHuge ((Value.field? fields "maximum").getD .null)) :
      HasHugeBound (.mapping fields)
  | property {fields named : List (Scalar × Value)} {property : Scalar × Value}
      (href : Value.field? fields "$ref" = none)
      (hnamed : Value.field? fields "properties" = some (.mapping named)) (hmem : property ∈ named)
      (hbound : HasHugeBound property.2) : HasHugeBound (.mapping fields)
  | items {fields : List (Scalar × Value)} {item : Value}
      (href : Value.field? fields "$ref" = none) (hitem : Value.field? fields "items" = some item)
      (hbound : HasHugeBound item) : HasHugeBound (.mapping fields)

/-- A reference that is left has no bounds. -/
theorem not_hasHugeBound_of_ref {fields : List (Scalar × Value)}
    (h : (Value.field? fields "$ref").isSome) : ¬ HasHugeBound (.mapping fields) := by
  intro hhuge
  have hnone : Value.field? fields "$ref" = none := by
    cases hhuge <;> assumption
  rw [hnone] at h
  cases h

theorem hasHugeBound_mapping_iff {fields : List (Scalar × Value)}
    (href : Value.field? fields "$ref" = none) :
    HasHugeBound (.mapping fields) ↔
      IsHuge ((Value.field? fields "minimum").getD .null) ∨
      IsHuge ((Value.field? fields "maximum").getD .null) ∨
      (∃ named, Value.field? fields "properties" = some (.mapping named) ∧
        ∃ property ∈ named, HasHugeBound property.2) ∨
      ∃ item, Value.field? fields "items" = some item ∧ HasHugeBound item := by
  constructor
  · intro h
    cases h with
    | minimum _ hbound => exact .inl hbound
    | maximum _ hbound => exact .inr (.inl hbound)
    | property _ hnamed hmem hbound => exact .inr (.inr (.inl ⟨_, hnamed, _, hmem, hbound⟩))
    | items _ hitem hbound => exact .inr (.inr (.inr ⟨_, hitem, hbound⟩))
  · rintro (hbound | hbound | ⟨named, hnamed, property, hmem, hbound⟩ | ⟨item, hitem, hbound⟩)
    · exact .minimum href hbound
    · exact .maximum href hbound
    · exact .property href hnamed hmem hbound
    · exact .items href hitem hbound

theorem bound_meets (v : Value) :
    Reading.Meets .outOfRange (IsHuge v) (Reading.ofDefects (Schema.bound v)) := by
  by_cases hint : ∃ n, v = .int n
  · obtain ⟨n, rfl⟩ := hint
    have hhuge : IsHuge (.int n) ↔ Decimal.ofInt? n = none := by simp [IsHuge]
    rw [hhuge, Schema.bound]
    cases Decimal.ofInt? n with
    | none => exact ⟨rfl, rfl⟩
    | some x => exact Option.some_ne_none x
  · have hsmall : ¬ IsHuge v := fun h => hint (h.imp fun n hn => hn.1)
    unfold Schema.bound
    split
    · exact absurd ⟨_, rfl⟩ hint
    · exact hsmall
    · exact hsmall

/-- Read what stands under `properties`. -/
def readNamed : Option Value → Except Defect (List (Scalar × Schema))
  | some (.mapping named) => Schema.readProperties named
  | _ => .ok []

/-- Read what stands under `items`. -/
def readItems : Option Value → Except Defect (Option Schema)
  | some item => (Schema.read item).map some
  | none => .ok none

theorem readItems_bind {α : Type} (field : Option Value) (next : Option Schema → Except Defect α) :
    readItems field >>= next = match _h : field with
      | some item => (Schema.read item).map some >>= next
      | none => .ok none >>= next := by
  cases field <;> rfl

theorem readNamed_bind {α : Type} (field : Option Value)
    (next : List (Scalar × Schema) → Except Defect α) :
    readNamed field >>= next = match _h : field with
      | some (.mapping named) => Schema.readProperties named >>= next
      | _ => .ok [] >>= next := by
  cases field with
  | none => rfl
  | some v => cases v <;> rfl

/-- A schema is made of its bounds, its properties and its items, which are read in this order; the
default and the choices are taken as they are. -/
theorem read_mapping {fields : List (Scalar × Value)} (href : Value.field? fields "$ref" = none) :
    ∃ build : Option Float → Option Float → List (String × Schema) → Option Schema → Schema,
      (Schema.read (.mapping fields) = do
        let minimum ← Schema.bound ((Value.field? fields "minimum").getD .null)
        let maximum ← Schema.bound ((Value.field? fields "maximum").getD .null)
        let properties ← readNamed (Value.field? fields "properties")
        let items ← readItems (Value.field? fields "items")
        let properties ← (Checked.each (fun p =>
          (Checked.key ["properties"] p.1).map fun name => (name, p.2)) properties).orDefect
        return build minimum maximum properties items) ∧
      ∀ minimum maximum properties items,
        (build minimum maximum properties items).default =
            (Value.field? fields "default").getD .null ∧
          (build minimum maximum properties items).choices =
            Schema.listed ((Value.field? fields "enum").getD .null) := by
  apply Exists.intro
  constructor
  · rw [Schema.read, if_neg (by simp [href])]
    refine bind_congr fun minimum => bind_congr fun maximum => ?_
    simp only [readItems_bind, readNamed_bind]
    rfl
  · intro minimum maximum properties items
    exact ⟨rfl, rfl⟩

theorem sizeOf_field?_lt (fields : List (Scalar × Value)) (name : String) :
    sizeOf (Value.field? fields name) < 1 + sizeOf fields := by
  cases h : Value.field? fields name with
  | none =>
    cases fields <;> simp +arith
  | some v =>
    have hlt := Schema.sizeOf_field_lt h
    simp [hlt]

mutual

/-- Reading a schema meets its bounds. -/
theorem read_meets (node : Value) :
    Reading.Meets .outOfRange (HasHugeBound node) (Reading.ofDefects (Schema.read node)) := by
  cases node with
  | mapping fields =>
    by_cases href : Value.field? fields "$ref" = none
    · obtain ⟨build, hread, -⟩ := read_mapping href
      have hproperties := sizeOf_field?_lt fields "properties"
      have hitem := sizeOf_field?_lt fields "items"
      have hnamed := readNamed_meets (Value.field? fields "properties")
      have hitems := readItems_meets (Value.field? fields "items")
      rw [hread, hasHugeBound_mapping_iff href]
      simp only [ofDefects_bind]
      refine (bound_meets _).bind fun minimum _ => (bound_meets _).bind fun maximum _ => ?_
      refine hnamed.bind fun properties _ => ?_
      refine hitems.before fun items _ => ?_
      exact (Reading.Meets.ofChecked _).before fun named _ => .ok _
    · have hsome : (Value.field? fields "$ref").isSome := Option.isSome_iff_ne_none.2 href
      rw [Schema.read, if_pos hsome]
      exact not_hasHugeBound_of_ref hsome
  | _ =>
    rw [Schema.read]
    · intro h
      cases h
    · intro fields hfields
      cases hfields
termination_by sizeOf node

theorem readNamed_meets (field : Option Value) :
    Reading.Meets .outOfRange (∃ named, field = some (.mapping named) ∧
      ∃ property ∈ named, HasHugeBound property.2) (Reading.ofDefects (readNamed field)) := by
  unfold readNamed
  split
  · rename_i named
    exact (readProperties_meets named).congr (by simp)
  · rename_i hnone
    refine (Reading.Meets.ok []).congr ?_
    rw [false_iff]
    rintro ⟨named, hnamed, -⟩
    exact hnone named hnamed
termination_by sizeOf field

theorem readItems_meets (field : Option Value) :
    Reading.Meets .outOfRange (∃ item, field = some item ∧ HasHugeBound item)
      (Reading.ofDefects (readItems field)) := by
  cases field with
  | none => exact (Reading.Meets.ok none).congr (by simp)
  | some item =>
    have hread := read_meets item
    rw [readItems, ofDefects_map]
    exact (hread.map some).congr (by simp)
termination_by sizeOf field

theorem readProperties_meets (named : List (Scalar × Value)) :
    Reading.Meets .outOfRange (∃ property ∈ named, HasHugeBound property.2)
      (Reading.ofDefects (Schema.readProperties named)) := by
  cases named with
  | nil =>
    rw [Schema.readProperties]
    exact (Reading.Meets.ok []).congr (by simp)
  | cons property rest =>
    obtain ⟨name, node⟩ := property
    have hfirst := read_meets node
    have hrest := readProperties_meets rest
    rw [Schema.readProperties, ofDefects_bind]
    simp only [ofDefects_bind]
    exact (hfirst.bind fun schema _ => hrest.bind fun schemas _ => .ok _).congr (by simp)
termination_by sizeOf named

end

/-! ### Parameters without a key -/

/-- The value can be a part of a key. -/
def isScalar : Value → Bool
  | .scalar _ => true
  | _ => false

/-- The value is a mapping whose name or place is a list, a set or a mapping. -/
def HasCompoundKey (raw : Value) : Prop :=
  (∃ fields, raw = .mapping fields) ∧
    (isScalar (raw.getD "name") = false ∨ isScalar (raw.getD "in") = false)

theorem parameterKey?_meets (raw : Value) :
    Reading.Meets .wrongKind (HasCompoundKey raw) (parameterKey? raw) := by
  cases raw with
  | mapping fields =>
    rw [parameterKey?]
    split
    · rename_i name location hname hlocation
      simp [Reading.Meets, HasCompoundKey, hname, hlocation, isScalar]
    · rename_i hkey
      refine ⟨rfl, ⟨fields, rfl⟩, ?_⟩
      cases hname : (Value.mapping fields).getD "name" with
      | scalar name =>
        refine .inr ?_
        cases hlocation : (Value.mapping fields).getD "in" with
        | scalar location => exact absurd hlocation (hkey name location hname)
        | _ => rfl
      | _ => exact .inl rfl
  | _ =>
    rintro ⟨⟨fields, hfields⟩, -⟩
    cases hfields

/-- Merging parameters meets those without a key, once both sides are lists. -/
theorem mergeParameters_meets (shared own : List Value) :
    Reading.Meets .wrongKind (∃ raw ∈ own ++ shared, HasCompoundKey raw)
      (mergeParameters (.list shared) (.list own)) := by
  have hkeys : ∀ list : List Value, Reading.Meets .wrongKind (∃ raw ∈ list, HasCompoundKey raw)
      (list.mapM parameterKey?) :=
    fun list => .mapM fun raw _ => parameterKey?_meets raw
  refine Reading.Meets.congr
    ((hkeys own).bind fun overriding _ => (hkeys shared).before fun keys _ => .ok _) ?_
  simp [or_and_right, exists_or]

/-- Merging lists of parameters is no reason to skip. -/
theorem mergeParameters_ne_skip (shared own : List Value) (reason : SkipReason) :
    mergeParameters (.list shared) (.list own) ≠ .error (.skip reason) := by
  have hkey : ∀ raw, parameterKey? raw ≠ .error (.skip reason) := by
    intro raw h
    unfold parameterKey? at h
    split at h
    · split at h <;> cases h
    · cases h
  intro h
  rcases bind_eq_error_iff.1 h with h | ⟨shared', -, h⟩
  · cases h
  · rcases bind_eq_error_iff.1 h with h | ⟨own', -, h⟩
    · cases h
    · rcases bind_eq_error_iff.1 h with h | ⟨overriding, -, h⟩
      · obtain ⟨raw, -, hraw⟩ := exists_of_mapM_eq_error h
        exact hkey raw hraw
      · rcases bind_eq_error_iff.1 h with h | ⟨keys, -, h⟩
        · obtain ⟨raw, -, hraw⟩ := exists_of_mapM_eq_error h
          exact hkey raw hraw
        · cases h

/-! ### The schemas of an operation -/

/-- What stands under `schema` has a bound that is no floating-point number. -/
def HasHugeSchema (v : Value) : Prop := ∃ node, v.get? "schema" = some node ∧ HasHugeBound node

/-- A media type among the bodies has such a schema. -/
def HasHugeContent (content : Value) : Prop :=
  ∃ fields, content = .mapping fields ∧ ∃ entry ∈ fields, HasHugeSchema entry.2

theorem schemaField_meets (v : Value) :
    Reading.Meets .outOfRange (HasHugeSchema v) (schemaField v) := by
  unfold schemaField HasHugeSchema
  cases v.get? "schema" with
  | none => exact (Reading.Meets.ok none).congr (by simp)
  | some node =>
    have hread := (read_meets node).map some
    rw [← ofDefects_map] at hread
    exact hread.congr (by simp)

theorem readParameter_meets (raw : Value) :
    Reading.Meets .outOfRange (HasHugeSchema raw) (readParameter raw) := by
  unfold readParameter
  split
  · split
    · split
      · exact .skip _
      · dsimp only
        split
        · exact .skip _
        · exact (schemaField_meets _).before fun schema? _ =>
            (Reading.Meets.ofChecked _).before fun description _ => .ok _
    · exact .skip _
  · exact .skip _

theorem readContent_meets (content : Value) :
    Reading.Meets .outOfRange (HasHugeContent content) (readContent content) := by
  cases content with
  | mapping fields =>
    have hentry : ∀ f ∈ fields, Reading.Meets .outOfRange (HasHugeSchema f.2)
        ((readMediaType f.2).map fun m => (f.1, m)) := fun f _ =>
      ((schemaField_meets f.2).before fun schema? _ => .ok _).map _
    exact (Reading.Meets.mapM hentry).congr (by simp [HasHugeContent])
  | _ => exact (Reading.Meets.ok []).congr (by simp [HasHugeContent])

theorem readRequestBody_meets (body : Value) :
    Reading.Meets .outOfRange (HasHugeContent (body.getD "content")) (readRequestBody body) := by
  cases body with
  | mapping fields => exact (readContent_meets _).before fun content _ => .ofChecked _
  | _ => exact (Reading.Meets.ok none).congr (by simp [HasHugeContent, Value.getD, Value.get?])

theorem readResponses_meets (responses : Value) :
    Reading.Meets .outOfRange (∃ fields, responses = .mapping fields ∧
      ∃ f ∈ fields, HasHugeContent (f.2.getD "content")) (readResponses responses) := by
  cases responses with
  | mapping fields =>
    rw [readResponses]
    refine (Reading.Meets.foldlM (P := fun f => HasHugeContent (f.2.getD "content"))
      (fun entries f _ => ?_) []).congr (by simp)
    obtain ⟨status, response⟩ := f
    cases response with
    | mapping fields =>
      exact ((readContent_meets _).before fun content _ => .ofChecked _).map _
    | _ => exact (Reading.Meets.ok _).congr (by simp [HasHugeContent, Value.getD, Value.get?])
  | _ => exact (Reading.Meets.ok []).congr (by simp)

/-! ### Operations -/

namespace Operation

/-- What the operation gives as its parameters. -/
def ownParameters (o : Operation) : Value := (o.value.getD "parameters").orElse (.list [])

/-- The parameters that hold for the operation, as they stand in the description. -/
def merged (o : Operation) : List Value :=
  match mergeParameters o.shared o.ownParameters with
  | .ok raw => raw
  | .error _ => []

/-- A parameter of the operation or of its path has no key, and parameters are merged by keys. -/
def HasCompoundKey (o : Operation) : Prop :=
  (∃ fields, o.value = .mapping fields) ∧ ∃ shared own, o.shared = .list shared ∧
    o.ownParameters = .list own ∧ ∃ raw ∈ own ++ shared, Spec.HasCompoundKey raw

/-- A schema of the operation has a bound that is no floating-point number: one of its parameters,
of its body or of its responses. -/
def HasHugeBound (o : Operation) : Prop :=
  (∃ raw ∈ o.merged, HasHugeSchema raw) ∨
    HasHugeContent ((o.value.getD "requestBody").getD "content") ∨
    ∃ fields, (o.value.getD "responses").orElse (.mapping []) = .mapping fields ∧
      ∃ f ∈ fields, HasHugeContent (f.2.getD "content")

/-- The operation is skipped. -/
def IsSkipped (security : Value) (o : Operation) : Prop :=
  ∃ reason, o.outcome security = .skipped reason

variable {security : Value}

/-- An operation that is no mapping is skipped. -/
theorem outcome_of_not_mapping {o : Operation} (h : ¬ ∃ fields, o.value = .mapping fields) :
    o.outcome security = .skipped .operationNotMapping := by
  rw [outcome, readOperation]
  · rfl
  · intro fields hfields
    exact h ⟨fields, hfields⟩

/-- What keeps the parameters of an operation from being merged decides what becomes of it. -/
theorem outcome_of_mergeParameters {o : Operation} {fields : List (Scalar × Value)}
    {obstacle : Obstacle} (hvalue : o.value = .mapping fields)
    (hmerge : mergeParameters o.shared o.ownParameters = .error obstacle) :
    o.outcome security = .ofReading (.error obstacle) := by
  rw [ownParameters, hvalue] at hmerge
  rw [outcome, hvalue, readOperation, hmerge]
  rfl

/-- Once the parameters are merged, reading an operation meets its bounds. -/
theorem readOperation_meets (security : Value) {o : Operation} {fields : List (Scalar × Value)}
    {raw : List Value} (hvalue : o.value = .mapping fields)
    (hmerge : mergeParameters o.shared o.ownParameters = .ok raw) :
    Reading.Meets .outOfRange o.HasHugeBound
      (readOperation o.path o.method o.value o.shared security) := by
  have hparameters : Reading.Meets .outOfRange (∃ p ∈ raw, HasHugeSchema p)
      (raw.mapM readParameter) :=
    .mapM fun p _ => readParameter_meets p
  have hbody := readRequestBody_meets (o.value.getD "requestBody")
  have hresponses := readResponses_meets ((o.value.getD "responses").orElse (.mapping []))
  have hmerged : o.merged = raw := by rw [merged, hmerge]
  rw [ownParameters, hvalue] at hmerge
  rw [HasHugeBound, hmerged]
  rw [hvalue] at hbody hresponses ⊢
  rw [readOperation, hmerge]
  refine (Reading.Meets.ok raw).after fun raw' hraw => ?_
  obtain rfl := Except.ok.inj hraw
  refine (Reading.Meets.list _ _).after fun tags _ => ?_
  refine hparameters.bind fun parameters _ => hbody.bind fun requestBody _ => ?_
  exact hresponses.before fun responses _ => .ofChecked _

theorem mergeParameters_of_not_lists {shared own : Value}
    (h : ¬ ∃ s w, shared = .list s ∧ own = .list w) :
    mergeParameters shared own = .error (.skip .parametersNotList) := by
  cases shared with
  | list s =>
    cases own with
    | list w => exact absurd ⟨s, w, rfl, rfl⟩ h
    | _ => rfl
  | _ => rfl

/-- Merging the parameters of an operation meets those without a key. -/
theorem mergeParameters_meets_hasCompoundKey {o : Operation} {fields : List (Scalar × Value)}
    (hvalue : o.value = .mapping fields) :
    Reading.Meets .wrongKind o.HasCompoundKey (mergeParameters o.shared o.ownParameters) := by
  by_cases hlists : ∃ s w, o.shared = .list s ∧ o.ownParameters = .list w
  · obtain ⟨s, w, hs, hw⟩ := hlists
    rw [HasCompoundKey, hs, hw]
    exact (mergeParameters_meets s w).congr (by simp [hvalue])
  · rw [mergeParameters_of_not_lists hlists]
    exact .skip _

/-- Merging skips an operation only if it does not get two lists. -/
theorem not_hasCompoundKey_of_mergeParameters {o : Operation} {reason : SkipReason}
    (h : mergeParameters o.shared o.ownParameters = .error (.skip reason)) :
    ¬ o.HasCompoundKey := by
  rintro ⟨-, shared, own, hshared, hown, -⟩
  rw [hshared, hown] at h
  exact mergeParameters_ne_skip shared own reason h

/-- What becomes of an operation: an endpoint has all it needs, and a defect has a cause. -/
theorem of_outcome (o : Operation) (security : Value) :
    match o.outcome security with
    | .endpoint _ => ¬ o.HasCompoundKey ∧ ¬ o.HasHugeBound
    | .skipped _ => ¬ o.HasCompoundKey
    | .defect d => d = .wrongKind ∧ o.HasCompoundKey ∨ d = .outOfRange ∧ o.HasHugeBound := by
  by_cases hvalue : ∃ fields, o.value = .mapping fields
  · obtain ⟨fields, hfields⟩ := hvalue
    have hkeys := mergeParameters_meets_hasCompoundKey hfields
    cases hmerge : mergeParameters o.shared o.ownParameters with
    | ok raw =>
      have hread := readOperation_meets security hfields hmerge
      rw [hmerge] at hkeys
      rw [outcome]
      revert hread
      cases readOperation o.path o.method o.value o.shared security with
      | ok e => exact fun hread => ⟨hkeys, hread⟩
      | error obstacle =>
        cases obstacle with
        | skip reason => exact fun _ => hkeys
        | defect d => exact fun hread => .inr hread
    | error obstacle =>
      rw [outcome_of_mergeParameters hfields hmerge]
      cases obstacle with
      | skip reason => exact not_hasCompoundKey_of_mergeParameters hmerge
      | defect d =>
        rw [hmerge] at hkeys
        exact .inl hkeys
  · rw [outcome_of_not_mapping hvalue]
    exact fun h => hvalue h.1

theorem defect?_eq_none_iff {o : Operation} :
    o.defect? security = none ↔
      ¬ o.HasCompoundKey ∧ (o.HasHugeBound → o.IsSkipped security) := by
  have hcases := o.of_outcome security
  rw [defect?, IsSkipped]
  cases houtcome : o.outcome security with
  | endpoint e =>
    rw [houtcome] at hcases
    simp [hcases.1, hcases.2]
  | skipped reason =>
    rw [houtcome] at hcases
    have hkeys : ¬ o.HasCompoundKey := hcases
    simp [hkeys]
  | defect d =>
    rw [houtcome] at hcases
    rcases hcases with ⟨-, hkeys⟩ | ⟨-, hbounds⟩
    · simp [hkeys]
    · simp [hbounds]

theorem of_defect?_eq_some {o : Operation} {d : Defect} (h : o.defect? security = some d) :
    d = .wrongKind ∧ o.HasCompoundKey ∨ d = .outOfRange ∧ o.HasHugeBound := by
  have hcases := o.of_outcome security
  rw [defect?] at h
  cases houtcome : o.outcome security with
  | defect e =>
    rw [houtcome] at h hcases
    obtain rfl := Option.some.inj h
    exact hcases
  | _ =>
    rw [houtcome] at h
    cases h

end Operation

/-! ### Descriptions -/

/-- Extraction returns on a description that offers paths if no parameter of an operation lacks a
key and every operation with a bound beyond the floating-point numbers is skipped for another
reason.  Nothing else ends it. -/
theorem extractEndpoints_returns_iff {document : Value} (h : OffersPaths document)
    (log : List LogRecord) :
    ((∃ found, ((extractEndpoints document).runWith log).1 = .ok found) ↔
      ∀ o ∈ operations (pathsOf document),
        ¬ o.HasCompoundKey ∧ (o.HasHugeBound → o.IsSkipped (securityOf document))) ∧
    ∀ fault, ((extractEndpoints document).runWith log).1 = .error fault →
      ∃ o ∈ operations (pathsOf document), fault = .defect .wrongKind ∧ o.HasCompoundKey ∨
        fault = .defect .outOfRange ∧ o.HasHugeBound := by
  rw [extractEndpoints_runWith h]
  constructor
  · rw [exists_walk_eq_ok_iff]
    constructor
    · intro hdefects o ho
      exact Operation.defect?_eq_none_iff.1 (hdefects _ (mem_operations_iff.1 ho))
    · intro hoperations v hv
      cases v with
      | operation o =>
        exact Operation.defect?_eq_none_iff.2 (hoperations o (mem_operations_iff.2 hv))
      | barren path => rfl
  · intro fault hfault
    obtain ⟨v, hv, d, hdefect, rfl⟩ := exists_of_walk_eq_error hfault
    cases v with
    | operation o =>
      refine ⟨o, mem_operations_iff.2 hv, ?_⟩
      rcases Operation.of_defect?_eq_some hdefect with ⟨rfl, hkeys⟩ | ⟨rfl, hbounds⟩
      · exact .inl ⟨rfl, hkeys⟩
      · exact .inr ⟨rfl, hbounds⟩
    | barren path => cases hdefect

/-- A description with an operation whose bounds are never read, since its tags are no list. -/
def taglessDocument : Value :=
  .ofFields [("paths", .ofFields [
    ("/a", .ofFields [("get", .ofFields [("tags", .int 5), ("requestBody", .ofFields [("content",
      .ofFields [("text/plain", .ofFields [("schema", .ofFields
        [("minimum", .int (Int.pow 10 400))])])])])])]),
    ("/b", .ofFields [("get", .ofFields [("operationId", .text "b")])])])]

theorem offersPaths_taglessDocument : OffersPaths taglessDocument := ⟨⟨_, rfl⟩, _, rfl⟩

theorem extractEndpoints_returns_iff_taglessDocument :
    OffersPaths taglessDocument ∧
    (∃ found, ((extractEndpoints taglessDocument).runWith []).1 = .ok found) ∧
    ∀ o ∈ operations (pathsOf taglessDocument),
      ¬ o.HasCompoundKey ∧ (o.HasHugeBound → o.IsSkipped (securityOf taglessDocument)) := by
  have hreturns : ∃ found, ((extractEndpoints taglessDocument).runWith []).1 = .ok found :=
    ⟨_, rfl⟩
  refine ⟨offersPaths_taglessDocument, hreturns, ?_⟩
  exact (extractEndpoints_returns_iff offersPaths_taglessDocument []).1.1 hreturns

/-- A description whose first operation has a parameter with a list for a name. -/
def listNameDocument : Value :=
  .ofFields [("paths", .ofFields [
    ("/a", .ofFields [("get", .ofFields [("parameters", .list
      [.ofFields [("name", .list [.text "x"]), ("in", .text "query")]])])]),
    ("/b", .ofFields [("get", .ofFields [("operationId", .text "b")])])])]

/-- One malformed operation can end the extraction of a whole description. -/
theorem not_forall_extractEndpoints_returns :
    ¬ ∀ document, OffersPaths document →
      ∃ found, ((extractEndpoints document).runWith []).1 = .ok found := by
  intro h
  obtain ⟨found, hfound⟩ := h listNameDocument ⟨⟨_, rfl⟩, _, rfl⟩
  have hend : ((extractEndpoints listNameDocument).runWith []).1 = .error (.defect .wrongKind) := by
    rfl
  rw [hend] at hfound
  cases hfound

end ApiShell.Spec
