import ApiShell.Proofs.Spec.Operations
import Mathlib.Data.List.Flatten
import Mathlib.Data.List.Nodup
import Mathlib.Data.List.ProdSigma

/-!
# The places of endpoints

An endpoint stands at a place: the text of its path and its method.  The places that paths offer
come in the order of the paths and at each path in the order of the methods, and endpoints are found
in that order.  The path of an operation is a key of a mapping.  It gives an endpoint a place only
when it is a text or bytes that write one, so two keys can give one place.

`extractEndpoints_isExtraction` says what extraction makes of the operations: one endpoint or one
record of each, and the same endpoints wherever two descriptions have the same operations.
-/

namespace ApiShell.Spec

variable {security : Value}

/-! ### Places -/

/-- The text of a path that can be the path of an endpoint. -/
def pathText? : Scalar → Option String
  | .text s => some s
  | .bytes bs => (Text.ofUtf8? bs).map String.ofList
  | _ => none

/-- The path and the method of an endpoint. -/
def Endpoint.place (e : Endpoint) : String × Method := (e.path, e.method)

/-- The place of an operation whose path can be the path of an endpoint. -/
def Operation.place? (o : Operation) : Option (String × Method) :=
  (pathText? o.path).map (·, o.method)

/-- The texts of paths, in their order. -/
def pathTexts (paths : List (Scalar × Value)) : List String := paths.filterMap (pathText? ·.1)

/-- The places that paths can offer, path by path and method by method. -/
def places (paths : List (Scalar × Value)) : List (String × Method) :=
  pathTexts paths ×ˢ Method.all

theorem text_path_eq_ok {path : Scalar} {s : String}
    (h : Checked.text ["path"] (.scalar path) = .ok s) : pathText? path = some s := by
  cases path with
  | text t => exact congrArg some (Except.ok.inj h)
  | bytes bs =>
    rw [Checked.text] at h
    rw [pathText?]
    cases hbytes : Text.ofUtf8? bs with
    | none =>
      rw [hbytes] at h
      cases h
    | some cs =>
      rw [hbytes] at h
      exact congrArg some (Except.ok.inj h)
  | _ => cases h

/-! ### What one operation makes -/

/-- The endpoints of an operation stand at its place. -/
theorem Operation.place?_of_mem {o : Operation} {e : Endpoint} (h : e ∈ o.endpoints security) :
    o.place? = some e.place := by
  obtain ⟨htext, hmethod, -⟩ := of_readOperation (mem_endpoints_iff.1 h)
  rw [place?, text_path_eq_ok htext, ← hmethod]
  rfl

theorem Operation.of_outcome_eq_endpoint {o : Operation} {e : Endpoint}
    (h : o.outcome security = .endpoint e) :
    o.endpoints security = [e] ∧ o.place? = some e.place := by
  have hmade : o.endpoints security = [e] := by rw [endpoints, h]
  have hmem : e ∈ o.endpoints security := by
    rw [hmade]
    exact List.mem_singleton_self e
  exact ⟨hmade, place?_of_mem hmem⟩

/-- An operation is settled when it makes one endpoint at its place, or none and leaves one record
that it was skipped. -/
def Operation.IsSettled (security : Value) (o : Operation) : Prop :=
  (∃ e, o.endpoints security = [e] ∧ o.place? = some e.place ∧ o.records security = []) ∨
    o.endpoints security = [] ∧ ∃ reason, o.records security = [o.skipRecord reason]

theorem Operation.isSettled_of_no_defect {o : Operation} (h : o.defect? security = none) :
    o.IsSettled security := by
  cases houtcome : o.outcome security with
  | endpoint e =>
    obtain ⟨hmade, hplace⟩ := of_outcome_eq_endpoint houtcome
    exact .inl ⟨e, hmade, hplace, by rw [records, houtcome]⟩
  | skipped reason =>
    have hmade : o.endpoints security = [] := by rw [endpoints, houtcome]
    exact .inr ⟨hmade, reason, by rw [records, houtcome]⟩
  | defect d =>
    rw [defect?, houtcome] at h
    cases h

/-- The places of the endpoints of an operation: its own one, or none. -/
theorem Operation.places_endpoints_sublist (o : Operation) :
    ((o.endpoints security).map Endpoint.place).Sublist o.place?.toList := by
  cases houtcome : o.outcome security with
  | endpoint e =>
    obtain ⟨hmade, hplace⟩ := of_outcome_eq_endpoint houtcome
    rw [hmade, hplace]
    exact .refl _
  | _ =>
    rw [endpoints, houtcome]
    exact List.nil_sublist _

/-! ### The order of places -/

theorem pathTexts_cons (path : Scalar × Value) (paths : List (Scalar × Value)) :
    pathTexts (path :: paths) = (pathText? path.1).toList ++ pathTexts paths := by
  rw [pathTexts, pathTexts, List.filterMap_cons]
  cases pathText? path.1 <;> rfl

theorem places_cons (path : Scalar × Value) (paths : List (Scalar × Value)) :
    places (path :: paths) = (pathText? path.1).toList ×ˢ Method.all ++ places paths := by
  rw [places, places, pathTexts_cons]
  cases pathText? path.1 with
  | none => rfl
  | some s => simp [List.product_cons]

/-- What is met under a method of a path stands at that place. -/
theorem places_visitsUnder_sublist (path : Scalar) (item : Value) (method : Method) :
    (((visitsUnder path item method).filterMap Visit.operation?).filterMap
      Operation.place?).Sublist ((pathText? path).map (·, method)).toList := by
  rw [visitsUnder]
  cases ho : operation? path item method with
  | none => exact List.nil_sublist _
  | some o =>
    obtain ⟨-, rfl⟩ := operation?_eq_some_iff.1 ho
    cases htext : pathText? path <;> simp [Visit.operation?, Operation.place?, htext]

/-- The operations of a path stand at its places. -/
theorem places_visitsAt_sublist (path : Scalar × Value) :
    (((visitsAt path).filterMap Visit.operation?).filterMap Operation.place?).Sublist
      ((pathText? path.1).toList ×ˢ Method.all) := by
  obtain ⟨key, item⟩ := path
  have hplaces : (pathText? key).toList ×ˢ Method.all =
      Method.all.flatMap fun method => ((pathText? key).map (·, method)).toList := by
    cases pathText? key <;> rfl
  rw [hplaces]
  cases item with
  | mapping fields =>
    rw [visitsAt, List.filterMap_flatMap, List.filterMap_flatMap]
    exact List.Sublist.flatMap_right _ fun method _ =>
      places_visitsUnder_sublist key (.mapping fields) method
  | _ => exact List.nil_sublist _

/-- The operations of paths stand at the places that the paths offer, in the same order. -/
theorem places_operations_sublist (paths : List (Scalar × Value)) :
    ((operations paths).filterMap Operation.place?).Sublist (places paths) := by
  induction paths with
  | nil => exact .slnil
  | cons path paths ih =>
    rw [places_cons]
    rw [operations, visits, List.flatMap_cons, List.filterMap_append, List.filterMap_append]
    exact (places_visitsAt_sublist path).append ih

/-- Endpoints are found in the order of the places. -/
theorem places_endpoints_sublist (paths : List (Scalar × Value)) :
    (((operations paths).flatMap (·.endpoints security)).map Endpoint.place).Sublist
      (places paths) := by
  refine List.Sublist.trans ?_ (places_operations_sublist paths)
  rw [List.map_flatMap, List.filterMap_eq_flatMap_toList]
  exact List.Sublist.flatMap_right _ fun o _ => o.places_endpoints_sublist

theorem nodup_places {paths : List (Scalar × Value)} (h : (pathTexts paths).Nodup) :
    (places paths).Nodup :=
  List.Nodup.product h (by decide)

/-! ### The endpoints of some places -/

/-- The operations of paths that stand at chosen places. -/
def operationsAt (chosen : String × Method → Bool) (paths : List (Scalar × Value)) :
    List Operation :=
  (operations paths).filter (·.place?.any chosen)

/-- The endpoints at chosen places are made of the operations there. -/
theorem filter_flatMap_endpoints (chosen : String × Method → Bool) (os : List Operation) :
    (os.flatMap (·.endpoints security)).filter (chosen ·.place) =
      (os.filter (·.place?.any chosen)).flatMap (·.endpoints security) := by
  induction os with
  | nil => rfl
  | cons o os ih =>
    have hplace : ∀ e ∈ o.endpoints security, chosen e.place = o.place?.any chosen := by
      intro e he
      rw [Operation.place?_of_mem he]
      rfl
    rw [List.flatMap_cons, List.filter_append, ih, List.filter_congr hplace, List.filter_cons]
    cases o.place?.any chosen <;> simp

/-- The endpoints at chosen places depend on the operations there and on the security alone. -/
theorem filter_place_extractEndpoints {document : Value} {log log' : List LogRecord}
    {found : List Endpoint} (h : (extractEndpoints document).runWith log = (.ok found, log'))
    (chosen : String × Method → Bool) :
    found.filter (chosen ·.place) =
      (operationsAt chosen (pathsOf document)).flatMap (·.endpoints (securityOf document)) := by
  obtain ⟨rfl, -, -⟩ := extractEndpoints_eq h
  exact filter_flatMap_endpoints chosen _

/-! ### Extraction -/

/-- What extraction makes of a description: its endpoints and the records that it leaves. -/
structure IsExtraction (document : Value) (found : List Endpoint) (records : List LogRecord) :
    Prop where
  /-- The endpoints are those of the operations, one operation after the other. -/
  found_eq : found = (operations (pathsOf document)).flatMap (·.endpoints (securityOf document))
  /-- The records are those of what is met on the paths. -/
  records_eq : records = (visits (pathsOf document)).flatMap (·.records (securityOf document))
  settled : ∀ o ∈ operations (pathsOf document), o.IsSettled (securityOf document)
  ordered : (found.map Endpoint.place).Sublist (places (pathsOf document))
  distinct : (pathTexts (pathsOf document)).Nodup → (found.map Endpoint.place).Nodup
  /-- Another description with the same operations at some places has the same endpoints there. -/
  frame : ∀ (document' : Value) (found' : List Endpoint) (log log' : List LogRecord),
    (extractEndpoints document').runWith log = (.ok found', log') →
    securityOf document' = securityOf document →
    ∀ chosen : String × Method → Bool,
      operationsAt chosen (pathsOf document') = operationsAt chosen (pathsOf document) →
      found'.filter (chosen ·.place) = found.filter (chosen ·.place)

/-- Extraction makes of each operation one endpoint or one record, in the order of the paths and
methods, and of each place what stands there, whatever stands elsewhere. -/
theorem extractEndpoints_isExtraction {document : Value} {log log' : List LogRecord}
    {found : List Endpoint} (h : (extractEndpoints document).runWith log = (.ok found, log')) :
    ∃ records, log' = log ++ records ∧ IsExtraction document found records := by
  obtain ⟨hfound, hlog, hdefects⟩ := extractEndpoints_eq h
  have hordered : (found.map Endpoint.place).Sublist (places (pathsOf document)) := by
    rw [hfound]
    exact places_endpoints_sublist _
  refine ⟨_, hlog, ?_⟩
  constructor
  · exact hfound
  · rfl
  · intro o ho
    exact Operation.isSettled_of_no_defect (hdefects o ho)
  · exact hordered
  · intro hpaths
    exact (nodup_places hpaths).sublist hordered
  · intro document' found' log₁ log₂ h' hsecurity chosen hsame
    rw [filter_place_extractEndpoints h, filter_place_extractEndpoints h', hsame, hsecurity]

/-- A description whose one path offers an operation and something else that is none. -/
def pairDocument : Value :=
  .ofFields [("paths", .ofFields [("/pets", .ofFields
    [("post", .text "later"), ("get", .ofFields [("operationId", .text "list")])])])]

/-- The endpoint of `pairDocument`. -/
def listPets : Endpoint :=
  ⟨"/pets", .get, "list", "", "", [], none, [], [], [], false⟩

theorem extractEndpoints_pairDocument :
    (extractEndpoints pairDocument).runWith [] =
      (.ok [listPets], [⟨.warning, "Skipping POST /pets: operation is not a mapping"⟩]) := by
  rfl

theorem extractEndpoints_isExtraction_pairDocument :
    (extractEndpoints pairDocument).runWith [] =
      (.ok [listPets], [⟨.warning, "Skipping POST /pets: operation is not a mapping"⟩]) ∧
    ∃ records, [⟨.warning, "Skipping POST /pets: operation is not a mapping"⟩] = [] ++ records ∧
      IsExtraction pairDocument [listPets] records :=
  ⟨extractEndpoints_pairDocument, extractEndpoints_isExtraction extractEndpoints_pairDocument⟩

/-- A description with the path `/p` twice, once as a text and once as the bytes that write it. -/
def twinDocument : Value :=
  .ofFields [("paths", .mapping
    [(.text "/p", .ofFields [("get", .ofFields [("operationId", .text "one")])]),
     (.bytes [47, 112], .ofFields [("get", .ofFields [("operationId", .text "two")])])])]

/-- Two endpoints can stand at one place. -/
theorem not_forall_nodup_places :
    ¬ ∀ (document : Value) (found : List Endpoint) (log log' : List LogRecord),
      (extractEndpoints document).runWith log = (.ok found, log') →
        (found.map Endpoint.place).Nodup := by
  intro h
  have hplaces : ((extractEndpoints twinDocument).runWith []).1.toOption.map
      (·.map Endpoint.place) = some [("/p", .get), ("/p", .get)] := by
    decide +kernel
  cases hrun : (extractEndpoints twinDocument).runWith [] with
  | mk result log =>
    rw [hrun] at hplaces
    cases result with
    | error fault => cases hplaces
    | ok found =>
      have htwice : found.map Endpoint.place = [("/p", .get), ("/p", .get)] :=
        Option.some.inj hplaces
      have hnodup := h twinDocument found [] log hrun
      rw [htwice] at hnodup
      exact absurd hnodup (by decide)

end ApiShell.Spec
