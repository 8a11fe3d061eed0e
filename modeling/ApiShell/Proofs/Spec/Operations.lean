import ApiShell.Proofs.Run
import ApiShell.Spec.Extraction

/-!
# Extraction, operation by operation

The endpoints of a description are extracted by a loop over its paths and, on each path, a loop over
the methods.  Both loops become one walk over what is met on the way (`visits`): operations, and
paths that are no mappings.  What a visit makes depends on nothing but the visit and the security of
the description, so what a description makes is what its visits make, one after the other, up to the
first one that ends the extraction (`extractEndpoints_runWith`).
-/

namespace ApiShell.Spec

variable {security : Value}

/-! ### What is met on the way -/

/-- An operation where it is met: under a method of a path, beside the parameters of the path. -/
structure Operation where
  path : Scalar
  method : Method
  value : Value
  shared : Value

/-- What is met on the way through the paths: an operation, or a path that is no mapping and so
offers none. -/
inductive Visit where
  | operation (o : Operation)
  | barren (path : Scalar)

/-- The operation under a method of a path, if there is one that is not null. -/
def operation? (path : Scalar) (item : Value) (method : Method) : Option Operation :=
  let value := item.getD method.key
  if value.isNull then none
  else some { path, method, value, shared := (item.getD "parameters").orElse (.list []) }

theorem operation?_eq_some_iff {path : Scalar} {item : Value} {method : Method} {o : Operation} :
    operation? path item method = some o ↔ (item.getD method.key).isNull = false ∧
      o = ⟨path, method, item.getD method.key, (item.getD "parameters").orElse (.list [])⟩ := by
  rw [operation?]
  cases (item.getD method.key).isNull <;> simp [eq_comm]

/-- What is met under a method of a path. -/
def visitsUnder (path : Scalar) (item : Value) (method : Method) : List Visit :=
  (operation? path item method).toList.map .operation

/-- What is met at a path. -/
def visitsAt (path : Scalar × Value) : List Visit :=
  match path.2 with
  | .mapping _ => Method.all.flatMap (visitsUnder path.1 path.2)
  | _ => [.barren path.1]

/-- What is met on the way through paths. -/
def visits (paths : List (Scalar × Value)) : List Visit := paths.flatMap visitsAt

/-- The operation that is met, if it is one. -/
def Visit.operation? : Visit → Option Operation
  | operation o => some o
  | barren _ => none

/-- The operations of paths, in the order of the paths and on each path in that of the methods. -/
def operations (paths : List (Scalar × Value)) : List Operation :=
  (visits paths).filterMap Visit.operation?

theorem mem_operations_iff {paths : List (Scalar × Value)} {o : Operation} :
    o ∈ operations paths ↔ .operation o ∈ visits paths := by
  rw [operations, List.mem_filterMap]
  constructor
  · rintro ⟨v, hv, ho⟩
    cases v with
    | operation o' =>
      obtain rfl := Option.some.inj ho
      exact hv
    | barren path => cases ho
  · intro h
    exact ⟨_, h, rfl⟩

/-- An operation stands under a method of a path. -/
theorem exists_operation?_of_mem {paths : List (Scalar × Value)} {o : Operation}
    (h : o ∈ operations paths) :
    ∃ path ∈ paths, ∃ method, operation? path.1 path.2 method = some o := by
  obtain ⟨path, hpath, hvisit⟩ := List.mem_flatMap.1 (mem_operations_iff.1 h)
  obtain ⟨key, item⟩ := path
  cases item with
  | mapping fields =>
    obtain ⟨method, -, hunder⟩ := List.mem_flatMap.1 hvisit
    rw [visitsUnder, List.mem_map] at hunder
    obtain ⟨o', ho', hsame⟩ := hunder
    obtain rfl := Visit.operation.inj hsame
    exact ⟨_, hpath, method, Option.mem_toList.1 ho'⟩
  | _ => cases List.mem_singleton.1 hvisit

/-- What is read of an operation: its place is checked, and its parameters are read one by one after
merging. -/
theorem of_readOperation {path : Scalar} {method : Method} {value shared : Value} {e : Endpoint}
    (h : readOperation path method value shared security = .ok e) :
    Checked.text ["path"] (.scalar path) = .ok e.path ∧ e.method = method ∧
      ∃ raw, mergeParameters shared ((value.getD "parameters").orElse (.list [])) = .ok raw ∧
        raw.mapM readParameter = .ok e.parameters := by
  cases value with
  | mapping fields =>
    rw [readOperation] at h
    obtain ⟨raw, hraw, h⟩ := bind_eq_ok_iff.1 h
    obtain ⟨tags, -, h⟩ := bind_eq_ok_iff.1 h
    obtain ⟨parameters, hparameters, h⟩ := bind_eq_ok_iff.1 h
    obtain ⟨requestBody, -, h⟩ := bind_eq_ok_iff.1 h
    obtain ⟨responses, -, h⟩ := bind_eq_ok_iff.1 h
    -- The fields are checked in a chain whose first link is the path.
    obtain ⟨_, _, hdescription, -, rfl⟩ := Checked.next_eq_ok_iff.1
      (mapError_eq_ok_iff.1 (mapError_eq_ok_iff.1 h))
    obtain ⟨_, _, hsummary, -, rfl⟩ := Checked.next_eq_ok_iff.1 hdescription
    obtain ⟨_, _, hid, -, rfl⟩ := Checked.next_eq_ok_iff.1 hsummary
    obtain ⟨_, _, hpath, -, rfl⟩ := Checked.next_eq_ok_iff.1 hid
    obtain ⟨text, htext, rfl⟩ := map_eq_ok_iff.1 hpath
    exact ⟨htext, rfl, raw, hraw, hparameters⟩
  | _ => cases h

/-! ### What a visit makes -/

/-- What becomes of an operation. -/
def Operation.outcome (security : Value) (o : Operation) : Outcome :=
  .ofReading (readOperation o.path o.method o.value o.shared security)

/-- The endpoint of an operation, if it makes one. -/
def Operation.endpoints (security : Value) (o : Operation) : List Endpoint :=
  match o.outcome security with
  | .endpoint e => [e]
  | _ => []

theorem Operation.mem_endpoints_iff {o : Operation} {e : Endpoint} :
    e ∈ o.endpoints security ↔
      readOperation o.path o.method o.value o.shared security = .ok e := by
  rw [endpoints, outcome]
  cases readOperation o.path o.method o.value o.shared security with
  | ok e' => simp [Outcome.ofReading, eq_comm]
  | error obstacle => cases obstacle <;> simp [Outcome.ofReading]

/-- The record of an operation that is skipped. -/
def Operation.skipRecord (o : Operation) (reason : SkipReason) : LogRecord :=
  let method := o.method.name
  let path := o.path.display
  let reason := reason.message
  ⟨.warning, s!"Skipping {method} {path}: {reason}"⟩

/-- The record of an operation, if it is skipped. -/
def Operation.records (security : Value) (o : Operation) : List LogRecord :=
  match o.outcome security with
  | .skipped reason => [o.skipRecord reason]
  | _ => []

/-- The defect of an operation that ends the extraction. -/
def Operation.defect? (security : Value) (o : Operation) : Option Defect :=
  match o.outcome security with
  | .defect d => some d
  | _ => none

/-- The record of a path that is no mapping. -/
def barrenRecord (path : Scalar) : LogRecord :=
  let path := path.display
  ⟨.warning, s!"Skipping path {path}: path item is not a mapping"⟩

namespace Visit

/-- The endpoint that a visit makes, if it makes one. -/
def endpoints (security : Value) : Visit → List Endpoint
  | operation o => o.endpoints security
  | barren _ => []

/-- The records that a visit leaves. -/
def records (security : Value) : Visit → List LogRecord
  | operation o => o.records security
  | barren path => [barrenRecord path]

/-- The defect that a visit ends the extraction with. -/
def defect? (security : Value) : Visit → Option Defect
  | operation o => o.defect? security
  | barren _ => none

end Visit

/-- Only operations make endpoints. -/
theorem flatMap_operations (paths : List (Scalar × Value)) :
    (operations paths).flatMap (·.endpoints security) =
      (visits paths).flatMap (·.endpoints security) := by
  rw [operations]
  induction visits paths with
  | nil => rfl
  | cons v vs ih =>
    cases v with
    | operation o => exact congrArg (o.endpoints security ++ ·) ih
    | barren path => exact ih

/-- What visits make after `found` and `log`, up to the first one with a defect. -/
def walk (security : Value) :
    List Visit → List Endpoint → List LogRecord → Except Fault (List Endpoint) × List LogRecord
  | [], found, log => (.ok found, log)
  | v :: vs, found, log =>
    match v.defect? security with
    | none => walk security vs (found ++ v.endpoints security) (log ++ v.records security)
    | some d => (.error (.defect d), log)

theorem walk_append (vs ws : List Visit) (found : List Endpoint) (log : List LogRecord) :
    walk security (vs ++ ws) found log = match walk security vs found log with
      | (.ok found', log') => walk security ws found' log'
      | (.error e, log') => (.error e, log') := by
  induction vs generalizing found log with
  | nil => rfl
  | cons v vs ih =>
    rw [List.cons_append, walk, walk]
    cases v.defect? security with
    | none => exact ih _ _
    | some d => rfl

/-- Without defects everything is made. -/
theorem walk_of_no_defect {vs : List Visit} (h : ∀ v ∈ vs, v.defect? security = none)
    (found : List Endpoint) (log : List LogRecord) :
    walk security vs found log = (.ok (found ++ vs.flatMap (·.endpoints security)),
      log ++ vs.flatMap (·.records security)) := by
  induction vs generalizing found log with
  | nil => simp [walk]
  | cons v vs ih =>
    have hfirst := h v List.mem_cons_self
    have hrest := ih fun w hw => h w (List.mem_cons_of_mem v hw)
    simp only [walk, hfirst, hrest, List.flatMap_cons, List.append_assoc]

/-- A walk is complete when no visit has a defect. -/
theorem exists_walk_eq_ok_iff {vs : List Visit} {found : List Endpoint} {log : List LogRecord} :
    (∃ found', (walk security vs found log).1 = .ok found') ↔
      ∀ v ∈ vs, v.defect? security = none := by
  constructor
  · intro h
    induction vs generalizing found log with
    | nil => exact fun v hv => absurd hv List.not_mem_nil
    | cons v vs ih =>
      rw [walk] at h
      cases hv : v.defect? security with
      | none =>
        rw [hv] at h
        exact List.forall_mem_cons.2 ⟨hv, ih h⟩
      | some d =>
        rw [hv] at h
        obtain ⟨_, h⟩ := h
        cases h
  · intro h
    rw [walk_of_no_defect h]
    exact ⟨_, rfl⟩

/-- What ends a walk is the defect of a visit. -/
theorem exists_of_walk_eq_error {vs : List Visit} {found : List Endpoint} {log : List LogRecord}
    {fault : Fault} (h : (walk security vs found log).1 = .error fault) :
    ∃ v ∈ vs, ∃ d, v.defect? security = some d ∧ fault = .defect d := by
  induction vs generalizing found log with
  | nil => cases h
  | cons v vs ih =>
    rw [walk] at h
    cases hv : v.defect? security with
    | none =>
      rw [hv] at h
      obtain ⟨w, hw, hd⟩ := ih h
      exact ⟨w, List.mem_cons_of_mem v hw, hd⟩
    | some d =>
      rw [hv] at h
      exact ⟨v, List.mem_cons_self, d, hv, (Except.error.inj h).symm⟩

/-! ### The two loops -/

/-- A loop whose rounds are walks is one walk. -/
theorem foldlM_runWith_eq_walk {α : Type} {f : List Endpoint → α → Run (List Endpoint)}
    {g : α → List Visit}
    (h : ∀ found a log, (f found a).runWith log = walk security (g a) found log) (as : List α)
    (found : List Endpoint) (log : List LogRecord) :
    (as.foldlM f found).runWith log = walk security (as.flatMap g) found log := by
  induction as generalizing found log with
  | nil => rfl
  | cons a as ih =>
    rw [List.foldlM_cons, Run.runWith_bind, h, List.flatMap_cons, walk_append]
    rcases walk security (g a) found log with ⟨_ | found', log'⟩
    · rfl
    · exact ih found' log'

theorem addOutcome_runWith (path : Scalar) (item : Value) (found : List Endpoint) (method : Method)
    (log : List LogRecord) :
    (addOutcome path item security found method).runWith log =
      walk security (visitsUnder path item method) found log := by
  have houtcome : outcome? path item security method =
      (operation? path item method).map (·.outcome security) := by
    unfold outcome? operation?
    dsimp only
    split <;> rfl
  rw [addOutcome, houtcome, visitsUnder]
  cases ho : operation? path item method with
  | none => rfl
  | some o =>
    obtain ⟨-, rfl⟩ := operation?_eq_some_iff.1 ho
    simp only [Option.map_some, Option.toList_some, List.map_singleton, walk, Visit.defect?,
      Visit.endpoints, Visit.records, Operation.defect?, Operation.endpoints, Operation.records]
    generalize Operation.outcome security _ = outcome
    cases outcome with
    | endpoint e => exact congrArg (Prod.mk _) (List.append_nil log).symm
    | skipped reason =>
      dsimp only
      rw [List.append_nil]
      rfl
    | defect d => rfl

theorem addPath_runWith (found : List Endpoint) (path : Scalar × Value) (log : List LogRecord) :
    (addPath security found path).runWith log = walk security (visitsAt path) found log := by
  obtain ⟨key, item⟩ := path
  cases item with
  | mapping fields => exact foldlM_runWith_eq_walk (addOutcome_runWith key (.mapping fields)) _ _ _
  | _ =>
    show (Except.ok found, log ++ [barrenRecord key]) =
      (Except.ok (found ++ []), log ++ [barrenRecord key])
    rw [List.append_nil]

/-! ### Whole descriptions -/

/-- The paths that a description offers; none where there are none, or where the field for them
counts as not given. -/
def pathsOf (document : Value) : List (Scalar × Value) :=
  match (document.getD "paths").orElse (.mapping []) with
  | .mapping paths => paths
  | _ => []

/-- The security that holds for operations without requirements of their own. -/
def securityOf (document : Value) : Value := (document.getD "security").orElse (.list [])

/-- The description is a mapping, and its paths are a mapping or count as not given. -/
def OffersPaths (document : Value) : Prop :=
  (∃ fields, document = .mapping fields) ∧
    ∃ paths, (document.getD "paths").orElse (.mapping []) = .mapping paths

/-- Extraction is one walk over what is met on the paths. -/
theorem extractEndpoints_runWith {document : Value} (h : OffersPaths document)
    (log : List LogRecord) :
    (extractEndpoints document).runWith log =
      walk (securityOf document) (visits (pathsOf document)) [] log := by
  obtain ⟨⟨fields, rfl⟩, paths, hpaths⟩ := h
  have hof : pathsOf (.mapping fields) = paths := by
    rw [pathsOf, hpaths]
  rw [hof, extractEndpoints, hpaths]
  exact foldlM_runWith_eq_walk addPath_runWith paths [] log

/-- A description without paths to offer ends the extraction. -/
theorem offersPaths_of_extractEndpoints {document : Value} {log log' : List LogRecord}
    {found : List Endpoint} (h : (extractEndpoints document).runWith log = (.ok found, log')) :
    OffersPaths document := by
  cases document with
  | mapping fields =>
    refine ⟨⟨fields, rfl⟩, ?_⟩
    rw [extractEndpoints] at h
    generalize ((Value.mapping fields).getD "paths").orElse (.mapping []) = paths at h
    cases paths with
    | mapping paths => exact ⟨paths, rfl⟩
    | _ => cases congrArg Prod.fst h
  | scalar s => cases s <;> cases congrArg Prod.fst h
  | _ => cases congrArg Prod.fst h

/-- A description whose extraction returns has made everything that its visits make. -/
theorem extractEndpoints_eq {document : Value} {log log' : List LogRecord} {found : List Endpoint}
    (h : (extractEndpoints document).runWith log = (.ok found, log')) :
    found = (operations (pathsOf document)).flatMap (·.endpoints (securityOf document)) ∧
      log' = log ++ (visits (pathsOf document)).flatMap (·.records (securityOf document)) ∧
      ∀ o ∈ operations (pathsOf document), o.defect? (securityOf document) = none := by
  rw [extractEndpoints_runWith (offersPaths_of_extractEndpoints h)] at h
  have hdefects : ∀ v ∈ visits (pathsOf document), v.defect? (securityOf document) = none :=
    exists_walk_eq_ok_iff.1 ⟨found, congrArg Prod.fst h⟩
  rw [walk_of_no_defect hdefects, List.nil_append] at h
  obtain ⟨hfound, hlog⟩ := Prod.mk.inj h
  refine ⟨?_, hlog.symm, fun o ho => hdefects _ (mem_operations_iff.1 ho)⟩
  rw [← Except.ok.inj hfound, flatMap_operations]

end ApiShell.Spec
