import ApiShell.Proofs.Spec.Defects

/-!
# Which declaration of a parameter counts

An operation and its path may both declare parameters, and each of them may declare one name and place
several times.  Merging takes out of the path's declarations those whose name and place the operation
declares as well, and puts the operation's own ones behind the rest.  The first declaration that is
left of a name and place is thus the operation's first one, or the path's first one where the
operation has none (`find?_mergeParameters`).  Reading goes on declaration by declaration, so the first
parameter of a name and place is the reading of that declaration (`Operation.declaration?_rel`).
-/

namespace ApiShell

/-- Only a text is the same key as a text. -/
theorem Scalar.same_text_iff {a : Scalar} {s : String} : a.same (.text s) = true ↔ a = .text s := by
  unfold Scalar.same
  cases hwhole : a.whole? with
  | some n =>
    refine iff_of_false Bool.false_ne_true ?_
    rintro rfl
    cases hwhole
  | none =>
    cases a with
    | text t =>
      show (t == s) = true ↔ Scalar.text t = .text s
      rw [beq_iff_eq, Scalar.text.injEq]
    | _ =>
      refine iff_of_false Bool.false_ne_true fun h => ?_
      cases h

namespace Spec

variable {name : String} {location : Location}

/-! ### Declarations -/

theorem Location.ofName?_eq_some_iff {s : String} : Location.ofName? s = some location ↔
    s = location.name := by
  constructor
  · intro h
    rw [Location.ofName?] at h
    have hname := List.find?_some h
    exact (eq_of_beq hname).symm
  · rintro rfl
    cases location <;> rfl

theorem Location.name_inj {a b : Location} : a.name = b.name ↔ a = b := by
  refine ⟨fun h => ?_, congrArg Location.name⟩
  have hof := Location.ofName?_eq_some_iff.2 h
  rw [Location.ofName?_eq_some_iff.2 rfl] at hof
  exact Option.some.inj hof

/-- The value declares a parameter of this name and place. -/
def declares (name : String) (location : Location) (raw : Value) : Bool :=
  (raw.getD "name").text? == some name && (raw.getD "in").text? == some location.name

theorem text?_eq_some_iff {v : Value} {s : String} : v.text? = some s ↔ v = .text s := by
  constructor
  · intro h
    unfold Value.text? at h
    split at h
    · rw [Option.some.inj h]
    · cases h
  · rintro rfl
    rfl

theorem declares_iff {raw : Value} : declares name location raw = true ↔
    raw.getD "name" = .text name ∧ raw.getD "in" = .text location.name := by
  rw [declares, Bool.and_eq_true, beq_iff_eq, beq_iff_eq, text?_eq_some_iff, text?_eq_some_iff]

/-- Only mappings declare parameters. -/
theorem exists_mapping_of_declares {raw : Value} (h : declares name location raw = true) :
    ∃ fields, raw = .mapping fields := by
  have hname := (declares_iff.1 h).1
  cases raw with
  | mapping fields => exact ⟨fields, rfl⟩
  | _ => cases hname

/-- The first declaration of a name and place in a list of parameters. -/
def declarationIn? (parameters : Value) (name : String) (location : Location) : Option Value :=
  match parameters with
  | .list raws => raws.find? (declares name location)
  | _ => none

/-- The declaration that counts for an operation: its own first one of this name and place, else the
first one of its path. -/
def Operation.declaration? (o : Operation) (name : String) (location : Location) : Option Value :=
  (declarationIn? o.ownParameters name location).or (declarationIn? o.shared name location)

/-! ### Merging -/

/-- The key of a name and place. -/
def keyOf (name : String) (location : Location) : ParameterKey :=
  ⟨.text name, .text location.name⟩

theorem ParameterKey.same_keyOf_iff {key : ParameterKey} :
    key.same (keyOf name location) = true ↔ key = keyOf name location := by
  obtain ⟨n, l⟩ := key
  rw [ParameterKey.same, keyOf, Bool.and_eq_true, Scalar.same_text_iff, Scalar.same_text_iff,
    ParameterKey.mk.injEq]

/-- A value has the key of a name and place when it declares them. -/
theorem key_eq_keyOf_iff {raw : Value} {key : Option ParameterKey}
    (h : parameterKey? raw = .ok key) :
    key = some (keyOf name location) ↔ declares name location raw = true := by
  unfold parameterKey? at h
  split at h
  · split at h
    · next n l hname hlocation =>
      obtain rfl := Except.ok.inj h
      rw [declares_iff, hname, hlocation, Option.some.injEq, keyOf, ParameterKey.mk.injEq,
        Value.scalar.injEq, Value.scalar.injEq]
    · cases h
  · next hmapping =>
    obtain rfl := Except.ok.inj h
    refine iff_of_false (fun hkey => by cases hkey) fun hdeclares => ?_
    obtain ⟨fields, rfl⟩ := exists_mapping_of_declares hdeclares
    exact hmapping fields rfl

/-- A declaration of the path is kept unless the operation has one of its name and place. -/
theorem isKept_keyOf {own : List Value} {overriding : List (Option ParameterKey)}
    (h : List.Forall₂ (fun raw key => parameterKey? raw = .ok key) own overriding) :
    isKept overriding (some (keyOf name location)) = !own.any (declares name location) := by
  have hone : ∀ raw key, parameterKey? raw = .ok key →
      key.any (·.same (keyOf name location)) = declares name location raw := by
    intro raw key hkey
    rw [Bool.eq_iff_iff, ← key_eq_keyOf_iff hkey]
    cases key with
    | none => simp
    | some key => simp [ParameterKey.same_keyOf_iff]
  have hany : overriding.any (fun k => k.any (·.same (keyOf name location))) =
      own.any (declares name location) := by
    induction h with
    | nil => rfl
    | @cons raw key own overriding hkey _ ih =>
      rw [List.any_cons, List.any_cons, hone raw key hkey, ih]
  rw [isKept, hany]

/-- Of the declarations of one name and place, either all are kept or none is. -/
theorem find?_kept {shared : List Value} {keys overriding : List (Option ParameterKey)}
    (h : List.Forall₂ (fun raw key => parameterKey? raw = .ok key) shared keys) :
    (((shared.zip keys).filter fun p => isKept overriding p.2).map Prod.fst).find?
        (declares name location) =
      if isKept overriding (some (keyOf name location)) then shared.find? (declares name location)
      else none := by
  induction h with
  | nil => simp
  | @cons raw key shared keys hkey _ ih =>
    rw [List.zip_cons_cons, List.filter_cons]
    by_cases hraw : declares name location raw = true
    · obtain rfl := (key_eq_keyOf_iff hkey).2 hraw
      rw [List.find?_cons_of_pos hraw]
      by_cases hkept : isKept overriding (some (keyOf name location)) = true
      · rw [if_pos hkept, if_pos hkept, List.map_cons, List.find?_cons_of_pos hraw]
      · rw [if_neg hkept, if_neg hkept, ih, if_neg hkept]
    · rw [List.find?_cons_of_neg hraw, ← ih]
      split
      · rw [List.map_cons, List.find?_cons_of_neg hraw]
      · rfl

/-- The first declaration that merging leaves of a name and place is the operation's first one, else
the path's first one. -/
theorem find?_mergeParameters {shared own : Value} {raw : List Value}
    (h : mergeParameters shared own = .ok raw) (name : String) (location : Location) :
    raw.find? (declares name location) =
      (declarationIn? own name location).or (declarationIn? shared name location) := by
  unfold mergeParameters at h
  obtain ⟨shareds, hshared, h⟩ := bind_eq_ok_iff.1 h
  obtain ⟨owns, hown, h⟩ := bind_eq_ok_iff.1 h
  obtain ⟨overriding, hoverriding, h⟩ := bind_eq_ok_iff.1 h
  obtain ⟨keys, hkeys, h⟩ := bind_eq_ok_iff.1 h
  obtain rfl := Except.ok.inj h
  have hlist : ∀ {v : Value} {items : List Value},
      Reading.list .parametersNotList v = .ok items → v = .list items := by
    intro v items hitems
    cases v with
    | list xs => rw [Except.ok.inj hitems]
    | _ => cases hitems
  obtain rfl := hlist hshared
  obtain rfl := hlist hown
  rw [List.find?_append, find?_kept (mapM_eq_ok_iff.1 hkeys),
    isKept_keyOf (mapM_eq_ok_iff.1 hoverriding)]
  show _ = (owns.find? (declares name location)).or (shareds.find? (declares name location))
  -- Where the operation has a declaration of its own, none of the path's is kept.
  cases hfind : owns.find? (declares name location) with
  | some own =>
    have hany : owns.any (declares name location) = true :=
      List.any_eq_true.2 ⟨own, List.mem_of_find?_eq_some hfind, List.find?_some hfind⟩
    simp [hany]
  | none =>
    have hany : owns.any (declares name location) = false :=
      List.any_eq_false.2 (List.find?_eq_none.1 hfind)
    simp [hany]

/-! ### Reading -/

/-- The parameter has this name and place. -/
def Parameter.isAt (name : String) (location : Location) (p : Parameter) : Bool :=
  p.name == name && p.location == location

theorem Parameter.isAt_iff {p : Parameter} :
    p.isAt name location = true ↔ p.name = name ∧ p.location = location := by
  rw [Parameter.isAt, Bool.and_eq_true, beq_iff_eq, beq_iff_eq]

/-- A parameter has the name and the place that are declared. -/
theorem declares_of_readParameter {raw : Value} {p : Parameter} (h : readParameter raw = .ok p) :
    declares p.name p.location raw = true := by
  unfold readParameter at h
  split at h
  · split at h
    · next hname =>
      split at h
      · cases h
      · dsimp only at h
        split at h
        · cases h
        · next place hplace =>
          obtain ⟨schema?, -, h⟩ := bind_eq_ok_iff.1 h
          obtain ⟨description, -, h⟩ := bind_eq_ok_iff.1 h
          obtain rfl := Except.ok.inj h
          obtain ⟨text, htext, hof⟩ := Option.bind_eq_some_iff.1 hplace
          rw [Location.ofName?_eq_some_iff] at hof
          exact declares_iff.2 ⟨hname, hof ▸ text?_eq_some_iff.1 htext⟩
    · cases h
  · cases h

theorem isAt_eq_declares {raw : Value} {p : Parameter} (h : readParameter raw = .ok p)
    (name : String) (location : Location) :
    p.isAt name location = declares name location raw := by
  have hp := declares_iff.1 (declares_of_readParameter h)
  rw [Bool.eq_iff_iff, Parameter.isAt_iff, declares_iff, hp.1, hp.2]
  simp [Location.name_inj]

/-- The first parameter of a name and place is the reading of their first declaration. -/
theorem find?_rel_of_forall₂ {raws : List Value} {parameters : List Parameter}
    (h : List.Forall₂ (fun raw p => readParameter raw = .ok p) raws parameters) (name : String)
    (location : Location) :
    Option.Rel (fun raw p => readParameter raw = .ok p) (raws.find? (declares name location))
      (parameters.find? (·.isAt name location)) := by
  induction h with
  | nil => exact .none
  | @cons raw p raws parameters hread _ ih =>
    have hsame := isAt_eq_declares hread name location
    by_cases hp : p.isAt name location = true
    · rw [List.find?_cons_of_pos hp, List.find?_cons_of_pos (hsame ▸ hp)]
      exact .some hread
    · rw [List.find?_cons_of_neg hp, List.find?_cons_of_neg (hsame ▸ hp)]
      exact ih

/-- The first parameter that an endpoint has of a name and place is the reading of the declaration
that counts. -/
theorem Operation.declaration?_rel {o : Operation} {security : Value} {e : Endpoint}
    (h : e ∈ o.endpoints security) (name : String) (location : Location) :
    Option.Rel (fun raw p => readParameter raw = .ok p) (o.declaration? name location)
      (e.parameters.find? (·.isAt name location)) := by
  obtain ⟨-, -, raw, hraw, hparameters⟩ := of_readOperation (Operation.mem_endpoints_iff.1 h)
  have hfind := find?_mergeParameters hraw name location
  rw [Operation.declaration?, Operation.ownParameters, ← hfind]
  exact find?_rel_of_forall₂ (mapM_eq_ok_iff.1 hparameters) name location

end Spec

end ApiShell
