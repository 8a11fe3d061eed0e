import ApiShell.Program.Catalogue
import ApiShell.Proofs.Json.Plain

/-!
# Descriptions in plain form

A description that was kept is read back in plain form, where values that JSON does not have are
replaced by others.  What is extracted from it and compiled is still the same if everything that is
read of the description is its own plain form.  `IsPlainDocument` says so, part by part as the
extraction goes through the description: paths, operations, responses.  The status of a response may
be a number, since it is shown in the same text.  Nothing is asked of what is not read.
-/

namespace ApiShell.Spec

open Value (ofFields textFields IsPlainEntry)

variable {v w : Value}

/-! ### Responses -/

/-- Responses that are read from their plain form as they are: their keys are shown as different
texts, the ones they have in plain form. -/
def IsPlainResponses : Value → Prop
  | .mapping fields => (∀ f ∈ fields, f.1.plainKey = .ok f.1.display ∧ f.2.IsJson) ∧
      (fields.map fun f => f.1.display).Nodup
  | v => v.IsJson

theorem IsPlainResponses.of_isJson (h : v.IsJson) : IsPlainResponses v := by
  cases v with
  | mapping fields =>
    obtain ⟨entries, rfl⟩ := h.2.exists_textFields
    have hentries := Value.isJson_ofFields.1 h
    refine ⟨fun f hf => ?_, ?_⟩
    · obtain ⟨e, he, rfl⟩ := List.mem_map.1 hf
      exact ⟨rfl, hentries.2 e he⟩
    · rw [textFields, List.map_map]
      exact hentries.1
  | _ => exact h

theorem plainFields_of_shown {fields : List (Scalar × Value)}
    (h : ∀ f ∈ fields, f.1.plainKey = .ok f.1.display ∧ f.2.IsJson) :
    Value.plainFields fields = .ok (fields.map fun f => (f.1.display, f.2)) := by
  induction fields with
  | nil => rfl
  | cons f fields ih =>
    obtain ⟨hkey, hvalue⟩ := h f List.mem_cons_self
    rw [Value.plainFields, hkey, hvalue.plain_eq, ih fun f hf => h f (List.mem_cons_of_mem _ hf)]
    rfl

theorem plain_of_shown {fields : List (Scalar × Value)}
    (h : ∀ f ∈ fields, f.1.plainKey = .ok f.1.display ∧ f.2.IsJson)
    (hkeys : (fields.map fun f => f.1.display).Nodup) :
    (Value.mapping fields).plain = .ok (ofFields (fields.map fun f => (f.1.display, f.2))) := by
  have hnodup : ((fields.map fun f => (f.1.display, f.2)).map Prod.fst).Nodup := by
    rw [List.map_map]
    exact hkeys
  rw [Value.plain, plainFields_of_shown h]
  show Except.ok (ofFields (Entries.ofList _)) = _
  rw [Entries.ofList_of_nodup hnodup]

/-- An empty mapping is as good as a missing one. -/
theorem orElse_mapping (fields : List (Scalar × Value)) :
    (Value.mapping fields).orElse (.mapping []) = .mapping fields := by
  cases fields with
  | nil => rfl
  | cons f fields => rfl

theorem readResponses_plain (h : IsPlainResponses v) (hplain : v.plain = .ok w) :
    readResponses (w.orElse (.mapping [])) = readResponses (v.orElse (.mapping [])) := by
  cases v with
  | mapping fields =>
    obtain rfl := Except.ok.inj ((plain_of_shown h.1 h.2).symm.trans hplain)
    rw [Value.ofFields_eq, orElse_mapping, orElse_mapping, textFields, List.map_map, readResponses,
      List.foldlM_map]
    rfl
  | _ => rw [Except.ok.inj (hplain.symm.trans (Value.IsJson.plain_eq h))]

/-! ### Operations -/

/-- The names of the fields that are read of an operation, besides its responses. -/
def operationFields : List String :=
  ["parameters", "security", "tags", "requestBody", "deprecated", "operationId", "summary",
   "description"]

/-- An operation of which everything that is read is read the same in plain form. -/
structure IsPlainOperation (v : Value) : Prop where
  keys : v.KeepsKeys
  fields : ∀ name ∈ operationFields, (v.getD name).IsJson
  responses : IsPlainResponses (v.getD "responses")

theorem IsPlainOperation.of_isJson (h : v.IsJson) : IsPlainOperation v :=
  ⟨h.keepsKeys, fun name _ => h.getD name, .of_isJson (h.getD "responses")⟩

/-- An operation that is missing is missing in plain form, and no other one. -/
theorem IsPlainOperation.isNull_eq (h : IsPlainOperation v) (hplain : v.plain = .ok w) :
    w.isNull = v.isNull := by
  obtain ⟨-, rfl⟩ | ⟨entries, entries', rfl, rfl, -⟩ := h.keys.plain_cases hplain
  · rfl
  · rfl

/-- An operation is read from its plain form as it is. -/
theorem IsPlainOperation.readOperation_eq (h : IsPlainOperation v) (hplain : v.plain = .ok w)
    (path : Scalar) (method : Method) (shared security : Value) :
    readOperation path method w shared security = readOperation path method v shared security := by
  have hfield (name : String) (hname : name ∈ operationFields) : w.getD name = v.getD name :=
    h.keys.getD_eq hplain (h.fields name hname)
  have hresponses := readResponses_plain h.responses (h.keys.getD_plain hplain "responses")
  obtain ⟨-, rfl⟩ | ⟨entries, entries', rfl, rfl, -⟩ := h.keys.plain_cases hplain
  · rfl
  · rw [Value.ofFields_eq, Value.ofFields_eq] at hfield hresponses ⊢
    simp only [readOperation, textField, hresponses, hfield "parameters" (by decide),
      hfield "security" (by decide), hfield "tags" (by decide), hfield "requestBody" (by decide),
      hfield "deprecated" (by decide), hfield "operationId" (by decide),
      hfield "summary" (by decide), hfield "description" (by decide)]

/-! ### Paths -/

/-- A path of which everything that is read is read the same in plain form. -/
structure IsPlainPathItem (v : Value) : Prop where
  keys : v.KeepsKeys
  parameters : (v.getD "parameters").IsJson
  operations : ∀ method : Method, IsPlainOperation (v.getD method.key)

/-- Paths of which everything that is read is read the same in plain form. -/
structure IsPlainPaths (v : Value) : Prop where
  keys : v.KeepsKeys
  items : ∀ entries, v = ofFields entries → ∀ e ∈ entries, IsPlainPathItem e.2

theorem isPlainPaths_ofFields {entries : List (String × Value)}
    (hkeys : (entries.map Prod.fst).Nodup) (h : ∀ e ∈ entries, IsPlainPathItem e.2) :
    IsPlainPaths (ofFields entries) := by
  refine ⟨Value.keepsKeys_ofFields hkeys, fun entries' heq => ?_⟩
  rw [← Value.textFields_injective (Value.mapping.inj heq)]
  exact h

theorem IsPlainPathItem.of_isJson (h : v.IsJson) : IsPlainPathItem v :=
  ⟨h.keepsKeys, h.getD "parameters", fun method => .of_isJson (h.getD method.key)⟩

theorem IsPlainPaths.of_isJson (h : v.IsJson) : IsPlainPaths v :=
  ⟨h.keepsKeys, fun entries heq e he =>
    .of_isJson ((Value.isJson_ofFields.1 (heq ▸ h : (ofFields entries).IsJson)).2 e he)⟩

theorem IsPlainPathItem.outcome?_eq (h : IsPlainPathItem v) (hplain : v.plain = .ok w)
    (path : Scalar) (security : Value) (method : Method) :
    outcome? path w security method = outcome? path v security method := by
  have hoperation := h.keys.getD_plain hplain method.key
  have hmethod := h.operations method
  simp only [outcome?, h.keys.getD_eq hplain h.parameters, hmethod.isNull_eq hoperation,
    hmethod.readOperation_eq hoperation]

/-- The endpoints of a path are extracted from its plain form as they are. -/
theorem IsPlainPathItem.addPath_eq (h : IsPlainPathItem v) (hplain : v.plain = .ok w)
    (security : Value) (found : List Endpoint) (path : Scalar) :
    addPath security found (path, w) = addPath security found (path, v) := by
  have hround : addOutcome path w security = addOutcome path v security := by
    funext found method
    unfold addOutcome
    rw [h.outcome?_eq hplain]
  obtain ⟨-, rfl⟩ | ⟨entries, entries', rfl, rfl, -⟩ := h.keys.plain_cases hplain
  · rfl
  · exact congrArg (Method.all.foldlM · found) hround

/-- The endpoints of related paths are extracted one after the other. -/
theorem foldlM_addPath_eq {entries entries' : List (String × Value)} (security : Value)
    (hitems : ∀ e ∈ entries, IsPlainPathItem e.2)
    (h : List.Forall₂ IsPlainEntry entries entries') :
    (textFields entries').foldlM (addPath security) [] =
      (textFields entries).foldlM (addPath security) [] := by
  unfold textFields
  rw [List.foldlM_map, List.foldlM_map]
  refine foldlM_eq_of_forall₂ h (fun e he e' hplain found => ?_) []
  rw [← hplain.1]
  exact (hitems e he).addPath_eq hplain.2 security found (.text e.1)

/-! ### Descriptions -/

/-- A description of which everything that is read is read the same in plain form: its endpoints,
the descriptions of its tags, and its title. -/
structure IsPlainDocument (v : Value) : Prop where
  keys : v.KeepsKeys
  paths : IsPlainPaths (v.getD "paths")
  security : (v.getD "security").IsJson
  tags : (v.getD "tags").IsJson
  info : (v.getD "info").KeepsKeys
  title : ((v.getD "info").getD "title").IsJson

/-- A description that JSON has is such a description. -/
theorem IsPlainDocument.of_isJson (h : v.IsJson) : IsPlainDocument v :=
  ⟨h.keepsKeys, .of_isJson (h.getD "paths"), h.getD "security", h.getD "tags",
    (h.getD "info").keepsKeys, (h.getD "info").getD "title"⟩

/-- The endpoints of a mapping are those of its paths. -/
theorem extractEndpoints_ofFields (entries : List (String × Value)) :
    extractEndpoints (ofFields entries) =
      match ((ofFields entries).getD "paths").orElse (.mapping []) with
      | .mapping paths =>
        paths.foldlM (addPath (((ofFields entries).getD "security").orElse (.list []))) []
      | _ => stop DocumentError.pathsNotMapping := rfl

/-- The endpoints of a description are extracted from its plain form as they are. -/
theorem IsPlainDocument.extractEndpoints_eq (h : IsPlainDocument v) (hplain : v.plain = .ok w) :
    extractEndpoints w = extractEndpoints v := by
  have hsecurity := h.keys.getD_eq hplain h.security
  have hpaths := h.keys.getD_plain hplain "paths"
  obtain ⟨-, rfl⟩ | ⟨entries, entries', rfl, rfl, -⟩ := h.keys.plain_cases hplain
  · rfl
  rw [extractEndpoints_ofFields, extractEndpoints_ofFields, hsecurity]
  obtain ⟨-, heq⟩ | ⟨items, items', heq, heq', hall⟩ := h.paths.keys.plain_cases hpaths
  · rw [heq]
  · rw [heq, heq', Value.ofFields_eq items, orElse_mapping, Value.ofFields_eq items',
      orElse_mapping]
    exact foldlM_addPath_eq _ (h.paths.items items heq) hall

/-- The commands of a description are compiled from its plain form as they are. -/
theorem IsPlainDocument.treeOf_eq (h : IsPlainDocument v) (hplain : v.plain = .ok w) (name : String)
    (endpoints : List Endpoint) :
    Program.treeOf name w endpoints = Program.treeOf name v endpoints := by
  have htitle := h.info.getD_eq (h.keys.getD_plain hplain "info") h.title
  unfold Program.treeOf Command.tagDescriptions Program.titleHelp
  rw [h.keys.getD_eq hplain h.tags, htitle]

end ApiShell.Spec
