import ApiShell.Proofs.Command.Sorting
import ApiShell.Proofs.Spec.Overriding

/-!
# One declaration makes an argument or flag

Compiling an endpoint ignores a parameter whose name and place were there before, so it answers as if
the endpoint had only the first parameter of each name and place (`answer_compileEndpoint_firsts`).
An argument or a flag is made of one of these, and the first parameter of a name and place is the
reading of the declaration that counts for the operation.  Together: what a command has under a name
and place is made of that declaration, whatever else is declared.
-/

namespace ApiShell.Command

open Run (AppendsOnly)
open Spec (Endpoint Location Operation Parameter)

variable {name : String} {location : Location}

/-! ### First parameters -/

/-- The parameters whose name and place were not there before: neither among `seen` nor earlier in the
list. -/
def firstsAfter (seen : List (String × Location)) : List Parameter → List Parameter
  | [] => []
  | p :: ps =>
    if (p.name, p.location) ∈ seen then firstsAfter seen ps
    else p :: firstsAfter ((p.name, p.location) :: seen) ps

/-- The first parameter of each name and place. -/
def firsts (parameters : List Parameter) : List Parameter := firstsAfter [] parameters

/-- Of a name and place that was not there before the first parameter is left, and no other one. -/
theorem filter_firstsAfter (seen : List (String × Location)) (ps : List Parameter) :
    (firstsAfter seen ps).filter (·.isAt name location) =
      if (name, location) ∈ seen then [] else (ps.find? (·.isAt name location)).toList := by
  induction ps generalizing seen with
  | nil => simp [firstsAfter]
  | cons p ps ih =>
    rw [firstsAfter]
    by_cases hp : p.isAt name location = true
    · obtain ⟨rfl, rfl⟩ := Parameter.isAt_iff.1 hp
      rw [List.find?_cons_of_pos hp]
      by_cases hseen : (p.name, p.location) ∈ seen
      · rw [if_pos hseen, if_pos hseen, ih, if_pos hseen]
      · rw [if_neg hseen, if_neg hseen, List.filter_cons_of_pos hp, ih,
          if_pos List.mem_cons_self]
        rfl
    · have hother : (name, location) ≠ (p.name, p.location) := by
        intro h
        obtain ⟨hname, hplace⟩ := Prod.mk.inj h
        exact hp (Parameter.isAt_iff.2 ⟨hname.symm, hplace.symm⟩)
      rw [List.find?_cons_of_neg hp]
      split
      · exact ih seen
      · have hmem : (name, location) ∈ (p.name, p.location) :: seen ↔ (name, location) ∈ seen := by
          rw [List.mem_cons, or_iff_right hother]
        rw [List.filter_cons_of_neg hp, ih]
        exact if_congr hmem rfl rfl

theorem filter_firsts (ps : List Parameter) :
    (firsts ps).filter (·.isAt name location) = (ps.find? (·.isAt name location)).toList := by
  rw [firsts, filter_firstsAfter, if_neg List.not_mem_nil]

/-- A first parameter is the first one of its own name and place. -/
theorem find?_of_mem_firsts {ps : List Parameter} {p : Parameter} (h : p ∈ firsts ps) :
    ps.find? (·.isAt p.name p.location) = some p := by
  have hat : p.isAt p.name p.location = true := Parameter.isAt_iff.2 ⟨rfl, rfl⟩
  have hmem := List.mem_filter.2 ⟨h, hat⟩
  rw [filter_firsts] at hmem
  exact Option.mem_toList.1 hmem

/-! ### Compiling looks at first parameters only -/

/-- After a parameter was sorted in, its name and place were there. -/
theorem Sorted.Takes.seen_eq {s s' : Sorted} {p : Parameter} (h : s.Takes p s')
    (hnew : (p.name, p.location) ∉ s.seen) : s'.seen = (p.name, p.location) :: s.seen := by
  cases h with
  | repeated hseen => exact absurd hseen hnew
  | _ => rfl

/-- Sorting parameters in answers what sorting in the first ones does. -/
theorem answer_foldlM_firstsAfter (command : String) (ps : List Parameter) (s : Sorted) :
    ps.foldlM (fun s p => (s.add command p).answer) s =
      (firstsAfter s.seen ps).foldlM (fun s p => (s.add command p).answer) s := by
  induction ps generalizing s with
  | nil => rfl
  | cons p ps ih =>
    rw [firstsAfter, List.foldlM_cons]
    by_cases hseen : (p.name, p.location) ∈ s.seen
    · have hadd : (s.add command p).answer = .ok s := by
        unfold Sorted.add
        dsimp only
        rw [if_pos (List.contains_iff_mem.2 hseen)]
        rfl
      rw [if_pos hseen, hadd]
      exact ih s
    · rw [if_neg hseen, List.foldlM_cons]
      cases hadd : (s.add command p).answer with
      | error fault => rfl
      | ok s' =>
        have hs' := (Sorted.takes_of_add hadd).seen_eq hseen
        show ps.foldlM _ s' = (firstsAfter _ ps).foldlM _ s'
        rw [ih s', hs']

/-- Compiling an endpoint answers what compiling it with its first parameters alone does. -/
theorem answer_compileEndpoint_firsts (e : Endpoint) :
    (compileEndpoint e).answer =
      (compileEndpoint { e with parameters := firsts e.parameters }).answer.map
        fun l => { l with endpoint := e } := by
  have hsorted : ∀ ps : List Parameter,
      (ps.foldlM (Sorted.add (commandName e)) {}).answer =
        ((firsts ps).foldlM (Sorted.add (commandName e)) {}).answer := by
    intro ps
    rw [Run.answer_foldlM (appendsOnly_add _), Run.answer_foldlM (appendsOnly_add _)]
    exact answer_foldlM_firstsAfter _ ps {}
  unfold compileEndpoint
  rw [Run.answer_bind fun _ => .pure _, Run.answer_bind fun _ => .pure _, hsorted]
  show _ = Except.map _ (((firsts e.parameters).foldlM (Sorted.add (commandName e)) {}).answer >>= _)
  cases ((firsts e.parameters).foldlM (Sorted.add (commandName e)) {}).answer <;> rfl

/-! ### What arguments and flags are made of -/

/-- Each argument and each flag is made of one of the parameters sorted so far, with some identifiers
taken. -/
structure Sorted.IsMadeOf (passed : List Parameter) (s : Sorted) : Prop where
  argument : ∀ a ∈ s.arguments, ∃ p ∈ passed, p.location = .path ∧
    ∃ taken, (argumentFor p taken).answer = .ok a
  flag : ∀ f ∈ s.flags, ∃ p ∈ passed, p.location ≠ .path ∧
    ∃ taken, (flagFor p taken).answer = .ok f

theorem Sorted.IsMadeOf.start : Sorted.IsMadeOf [] {} where
  argument _ ha := absurd ha List.not_mem_nil
  flag _ hf := absurd hf List.not_mem_nil

/-- What was made of earlier parameters still is after one more. -/
theorem Sorted.IsMadeOf.concat {passed : List Parameter} {s : Sorted} (h : s.IsMadeOf passed)
    (p : Parameter) : s.IsMadeOf (passed ++ [p]) where
  argument a ha := by
    obtain ⟨q, hq, hmade⟩ := h.argument a ha
    exact ⟨q, List.mem_append_left _ hq, hmade⟩
  flag f hf := by
    obtain ⟨q, hq, hmade⟩ := h.flag f hf
    exact ⟨q, List.mem_append_left _ hq, hmade⟩

theorem Sorted.IsMadeOf.round {passed : List Parameter} {s s' : Sorted} {p : Parameter}
    (h : s.IsMadeOf passed) (htakes : s.Takes p s') : s'.IsMadeOf (passed ++ [p]) := by
  have hold := h.concat p
  have hmem : p ∈ passed ++ [p] := List.mem_append_right _ (List.mem_singleton_self p)
  cases htakes with
  | repeated _ => exact hold
  | refused _ _ _ => exact ⟨hold.argument, hold.flag⟩
  | clashing _ _ _ _ _ _ _ _ => exact ⟨hold.argument, hold.flag⟩
  | argument a _ hpath ha =>
    refine ⟨fun b hb => ?_, hold.flag⟩
    rcases List.mem_append.1 hb with hb | hb
    · exact hold.argument b hb
    · rw [List.mem_singleton.1 hb]
      exact ⟨p, hmem, hpath, s.identifiers, ha⟩
  | flag f _ hplace _ hf _ =>
    refine ⟨hold.argument, fun g hg => ?_⟩
    rcases List.mem_append.1 hg with hg | hg
    · exact hold.flag g hg
    · rw [List.mem_singleton.1 hg]
      exact ⟨p, hmem, hplace, s.identifiers, hf⟩

theorem isMadeOf_of_compileEndpoint {e : Endpoint} {l : Leaf}
    (h : (compileEndpoint e).answer = .ok l) :
    ∃ s : Sorted, s.IsMadeOf (firsts e.parameters) ∧ l.arguments = s.arguments ∧
      l.flags = s.flags := by
  rw [answer_compileEndpoint_firsts] at h
  obtain ⟨l', hl', rfl⟩ := map_eq_ok_iff.1 h
  exact compileEndpoint_induction_takes hl' .start fun _ _ _ _ hI htakes => hI.round htakes

/-! ### Declarations that count -/

/-- The parameters that count for the command of an endpoint are those that its operation's
declarations make. -/
structure Governs (o : Operation) (e : Endpoint) : Prop where
  /-- Of each name and place one parameter is left, the reading of the declaration that counts; none
  is left where there is no declaration. -/
  considered : ∀ name location,
    List.Forall₂ (fun raw p => Spec.readParameter raw = .ok p)
      (o.declaration? name location).toList
      ((firsts e.parameters).filter (·.isAt name location))
  /-- Compiling depends on these parameters alone, also when it ends early. -/
  answer_eq : (compileEndpoint e).answer =
    (compileEndpoint { e with parameters := firsts e.parameters }).answer.map
      fun l => { l with endpoint := e }
  argument : ∀ l, (compileEndpoint e).answer = .ok l → ∀ a ∈ l.arguments, ∃ raw p taken,
    o.declaration? a.name .path = some raw ∧ Spec.readParameter raw = .ok p ∧
      (argumentFor p taken).answer = .ok a
  flag : ∀ l, (compileEndpoint e).answer = .ok l → ∀ f ∈ l.flags, f.location ≠ .path ∧
    ∃ raw p taken, o.declaration? f.name f.location = some raw ∧ Spec.readParameter raw = .ok p ∧
      (flagFor p taken).answer = .ok f

/-- A first parameter of an endpoint is the reading of the declaration of its name and place that
counts. -/
theorem exists_declaration?_of_mem_firsts {o : Operation} {security : Value} {e : Endpoint}
    {p : Parameter} (h : e ∈ o.endpoints security) (hp : p ∈ firsts e.parameters) :
    ∃ raw, o.declaration? p.name p.location = some raw ∧ Spec.readParameter raw = .ok p := by
  have hrel := Operation.declaration?_rel h p.name p.location
  rw [find?_of_mem_firsts hp] at hrel
  cases hraw : o.declaration? p.name p.location with
  | none =>
    rw [hraw] at hrel
    cases hrel
  | some raw =>
    rw [hraw] at hrel
    cases hrel with
    | some hread => exact ⟨raw, rfl, hread⟩

/-- The declarations of an operation and its path govern the endpoint that it makes. -/
theorem governs_of_mem_endpoints {o : Operation} {security : Value} {e : Endpoint}
    (h : e ∈ o.endpoints security) : Governs o e where
  considered name location := by
    have hrel := Operation.declaration?_rel h name location
    rw [filter_firsts]
    generalize o.declaration? name location = declaration at hrel ⊢
    generalize e.parameters.find? (·.isAt name location) = first at hrel ⊢
    cases hrel with
    | none => exact .nil
    | some hread => exact .cons hread .nil
  answer_eq := answer_compileEndpoint_firsts e
  argument l hl a ha := by
    obtain ⟨s, hmade, harguments, -⟩ := isMadeOf_of_compileEndpoint hl
    rw [harguments] at ha
    obtain ⟨p, hp, hpath, taken, hanswer⟩ := hmade.argument a ha
    obtain ⟨raw, hraw, hread⟩ := exists_declaration?_of_mem_firsts h hp
    have hname := (of_argumentFor hanswer).1.name
    rw [hpath, ← hname] at hraw
    exact ⟨raw, p, taken, hraw, hread, hanswer⟩
  flag l hl f hf := by
    obtain ⟨s, hmade, -, hflags⟩ := isMadeOf_of_compileEndpoint hl
    rw [hflags] at hf
    obtain ⟨p, hp, hplace, taken, hanswer⟩ := hmade.flag f hf
    obtain ⟨raw, hraw, hread⟩ := exists_declaration?_of_mem_firsts h hp
    have hflag := (of_flagFor hanswer).1
    rw [← hflag.name, ← hflag.location] at hraw
    exact ⟨hflag.location ▸ hplace, raw, p, taken, hraw, hread, hanswer⟩

/-- **What the operation declares overrides what its path declares, up to the command.**  A description
whose extraction returns has made the endpoints of its operations, and each of them is governed by the
declarations of its operation. -/
theorem governs_of_extractEndpoints {document : Value} {found : List Endpoint}
    {log log' : List LogRecord}
    (h : (Spec.extractEndpoints document).runWith log = (.ok found, log')) :
    found = (Spec.operations (Spec.pathsOf document)).flatMap
        (·.endpoints (Spec.securityOf document)) ∧
      ∀ o ∈ Spec.operations (Spec.pathsOf document),
        ∀ e ∈ o.endpoints (Spec.securityOf document), Governs o e :=
  ⟨(Spec.extractEndpoints_eq h).1, fun _ _ _ he => governs_of_mem_endpoints he⟩

/-- What declares a parameter with a schema of one type. -/
def declarationOf (name location type : String) : Value :=
  .ofFields [("name", .text name), ("in", .text location),
    ("schema", .ofFields [("type", .text type)])]

/-- A description with a path and an operation that both declare `limit` and `sort`, some of them
twice. -/
def ownersDocument : Value :=
  .ofFields [("paths", .ofFields [("/owners/{id}", .ofFields [
    ("parameters", .list [declarationOf "id" "path" "string", declarationOf "limit" "query" "string",
      declarationOf "sort" "query" "array", declarationOf "limit" "query" "array",
      declarationOf "sort" "query" "string"]),
    ("get", .ofFields [("parameters", .list [declarationOf "limit" "query" "integer",
      declarationOf "sort" "header" "string", declarationOf "limit" "query" "boolean"])])])])]

/-- The endpoint of this description: the path's declarations of `limit` are overridden. -/
def ownersEndpoint : Endpoint :=
  { plainEndpoint .get "/owners/{id}" [] false with
    parameters := [
      typedParameter "id" .path "string" .null true,
      typedParameter "sort" .query "array" .null false,
      typedParameter "sort" .query "string" .null false,
      typedParameter "limit" .query "integer" .null false,
      typedParameter "sort" .header "string" .null false,
      typedParameter "limit" .query "boolean" .null false] }

theorem extractEndpoints_owners :
    (Spec.extractEndpoints ownersDocument).runWith [] = (.ok [ownersEndpoint], []) := by
  with_unfolding_all rfl

/-- `limit` is the operation's first one, `sort` in the query is the path's first one. -/
theorem governs_of_extractEndpoints_owners :
    (Spec.extractEndpoints ownersDocument).runWith [] = (.ok [ownersEndpoint], []) ∧
      [ownersEndpoint] = (Spec.operations (Spec.pathsOf ownersDocument)).flatMap
        (·.endpoints (Spec.securityOf ownersDocument)) ∧
      ∀ o ∈ Spec.operations (Spec.pathsOf ownersDocument),
        ∀ e ∈ o.endpoints (Spec.securityOf ownersDocument), Governs o e :=
  ⟨extractEndpoints_owners, governs_of_extractEndpoints extractEndpoints_owners⟩

end ApiShell.Command
