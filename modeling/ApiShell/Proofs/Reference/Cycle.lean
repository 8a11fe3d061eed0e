import ApiShell.Proofs.Reference.Recursion
import ApiShell.Proofs.Reference.Walk

/-!
# References that resolving leaves over

Resolving is a tree of calls.  A call fills a *place* of the result with what it makes of a node;
the call of a list or a mapping makes one call for each part, at the place of the part, and the call
of a reference that is not active makes one for its target, at the same place.

A reference left over is the node of a call.  It is active there, so one of the calls above it, at
the same place or at a place above, was the one that expanded it: it closes a cycle.  Where no
reference leads back to itself nothing is left over, and resolving once more changes nothing.  Both
hold up to late references, which are no references before resolving and look like one afterwards.
-/

namespace ApiShell.Reference

open Value (ref?)
open Relation (ReflTransGen TransGen)

/-! ### Places -/

/-- The value `w` stands in `v` at a place that no reference lies above. -/
inductive Stands : Value → List Step → Value → Prop
  | here {v : Value} : Stands v [] v
  | item {items : List Value} {n : Nat} {v w : Value} {place : List Step} :
      items[n]? = some v → Stands v place w → Stands (.list items) (.position n :: place) w
  | field {fields : List (Scalar × Value)} {k : Scalar} {v w : Value} {place : List Step} :
      ref? (.mapping fields) = none → (k, v) ∈ fields → Stands v place w →
        Stands (.mapping fields) (.key k :: place) w

variable {root v w : Value} {place : List Step} {active : List String} {ref : String}

/-- A place in a place is a place. -/
theorem Stands.append {u : Value} {place' : List Step} (h : Stands v place w)
    (h' : Stands w place' u) : Stands v (place ++ place') u := by
  induction h with
  | here => exact h'
  | item hn _ ih => exact .item hn (ih h')
  | field hr hf _ ih => exact .field hr hf (ih h')

/-- A reference that stands in a value is one of its references. -/
theorem Stands.mem_refs (h : Stands v place w) (href : ref? w = some ref) : ref ∈ v.refs := by
  induction h with
  | here => exact mem_refs_of_ref? href
  | item hn _ ih => exact Value.refs_subset_of_mem_items (List.mem_of_getElem? hn) (ih href)
  | field hr hf _ ih =>
    rw [refs_mapping_of_ref?_eq_none hr]
    exact Value.refs_subset_of_mem_fields hf (ih href)

/-- A value has no reference if none stands in it. -/
theorem refs_eq_nil_of_stands (h : ∀ place w, Stands v place w → ref? w = none) :
    v.refs = [] := by
  induction hn : height v using Nat.strongRecOn generalizing v with
  | _ n ih =>
    cases v with
    | list items =>
      have hitems : ∀ x ∈ items, x.refs = [] := by
        intro x hx
        obtain ⟨i, hi⟩ := List.getElem?_of_mem hx
        exact ih _ (hn ▸ height_lt_of_mem_items hx) (fun p w hw => h _ w (.item hi hw)) rfl
      exact refsOfItems_eq_nil_iff.2 hitems
    | mapping fields =>
      have hr : ref? (.mapping fields) = none := h [] _ .here
      have hfields : ∀ f ∈ fields, f.2.refs = [] := by
        intro f hf
        exact ih _ (hn ▸ height_lt_of_mem_fields hf) (fun p w hw => h _ w (.field hr hf hw)) rfl
      rw [refs_mapping_of_ref?_eq_none hr]
      exact refsOfFields_eq_nil_iff.2 hfields
    | _ => rfl

/-- A value without references resolves to itself. -/
theorem resolves_self_of_refs_eq_nil (h : v.refs = []) : Resolves root active v v := by
  induction hn : height v using Nat.strongRecOn generalizing v with
  | _ n ih =>
    have hsub : v.refs ⊆ root.refs := by simp [h]
    obtain ⟨items, rfl⟩ | ⟨fields, rfl⟩ | ha := list_or_mapping_or_isAtom v
    · refine resolves_list_iff.2 ⟨hsub, items, rfl, List.forall₂_same.2 fun x hx => ?_⟩
      exact ih _ (hn ▸ height_lt_of_mem_items hx) (refsOfItems_eq_nil_iff.1 h x hx) rfl
    · have hr : ref? (.mapping fields) = none := by
        by_contra hne
        obtain ⟨ref, href⟩ := Option.ne_none_iff_exists'.1 hne
        exact absurd (mem_refs_of_ref? href) (by simp [h])
      rw [refs_mapping_of_ref?_eq_none hr] at h
      refine (resolves_mapping_iff hr).2 ⟨hsub, fields, rfl, List.forall₂_same.2 fun f hf => ?_⟩
      exact ⟨rfl, ih _ (hn ▸ height_lt_of_mem_fields hf) (refsOfFields_eq_nil_iff.1 h f hf) rfl⟩
    · exact (resolves_atom_iff ha).2 rfl

/-! ### Calls -/

/-- A call of the recursion: the place of the result that it fills, the references that are active,
and the node that it resolves. -/
structure Call where
  place : List Step
  active : List String
  node : Value

/-- The calls that a call makes. -/
inductive Makes (root : Value) : Call → Call → Prop
  | item {place : List Step} {active : List String} {items : List Value} {n : Nat} {v : Value} :
      items[n]? = some v →
        Makes root ⟨place, active, .list items⟩ ⟨place ++ [.position n], active, v⟩
  | field {place : List Step} {active : List String} {fields : List (Scalar × Value)}
      {k : Scalar} {v : Value} : ref? (.mapping fields) = none → (k, v) ∈ fields →
        Makes root ⟨place, active, .mapping fields⟩ ⟨place ++ [.key k], active, v⟩
  | expand {place : List Step} {active : List String} {v target : Value} {ref : String} :
      ref? v = some ref → ref ∉ active → Pointer.lookup root ref = .ok target →
        Makes root ⟨place, active, v⟩ ⟨place, ref :: active, target⟩

/-- The call is one of those that resolving the document makes. -/
def Occurs (document : Value) (c : Call) : Prop :=
  ReflTransGen (Makes document) ⟨[], [], document⟩ c

/-- Expansions are calls at one place. -/
theorem Expands.calls {active' : List String} {u : Value} (h : Expands root active v active' u)
    (place : List Step) : ReflTransGen (Makes root) ⟨place, active, v⟩ ⟨place, active', u⟩ := by
  induction h with
  | refl => exact .refl
  | head hv ha ht _ ih => exact ih.head (.expand hv ha ht)

/-- A part of what is no reference was made below a call at the place of the whole: below the one
whose node is no reference either. -/
theorem Resolves.exists_call_part {c : Call} {u : Value} {step : Step}
    (h : Resolves root c.active c.node w) (hw : ref? w = none)
    (hpart : ∀ d, ref? d.node = none → Resolves root d.active d.node w →
      ∃ e, Makes root d e ∧ e.place = d.place ++ [step] ∧ Resolves root e.active e.node u) :
    ∃ e, ReflTransGen (Makes root) c e ∧ e.place = c.place ++ [step] ∧
      Resolves root e.active e.node u := by
  obtain ⟨active', v, hexp, ⟨ref, -, hv, rfl⟩ | ⟨hv, hres⟩⟩ := h.exists_expands
  · rw [hw] at hv
    cases hv
  · obtain ⟨e, hmakes, hplace, hres⟩ := hpart ⟨c.place, active', v⟩ hv hres
    exact ⟨e, (hexp.calls c.place).tail hmakes, hplace, hres⟩

/-- An item of a result was made by a call that the call of the list makes. -/
theorem Resolves.exists_makes_item {c : Call} {items' : List Value} {n : Nat}
    (h : Resolves root c.active c.node (.list items')) (hc : ref? c.node = none)
    (hn : items'[n]? = some w) :
    ∃ d, Makes root c d ∧ d.place = c.place ++ [.position n] ∧
      Resolves root d.active d.node w := by
  obtain ⟨cplace, cactive, cnode⟩ := c
  obtain ⟨items, _, rfl, heq, hitems⟩ | ⟨_, _, -, heq, -⟩ | ⟨ha, rfl⟩ := h.shape hc
  · cases heq
    have hrel := getElem?_resolvesItems hitems n
    rw [hn] at hrel
    cases hv : items[n]? with
    | none => rw [hv] at hrel; cases hrel
    | some v =>
      rw [hv] at hrel
      cases hrel with
      | some hvw => exact ⟨_, .item hv, rfl, hvw⟩
  · cases heq
  · exact ha.elim

/-- The value of a field of a result was made by a call that the call of the mapping makes. -/
theorem Resolves.exists_makes_field {c : Call} {fields' : List (Scalar × Value)} {k : Scalar}
    (h : Resolves root c.active c.node (.mapping fields')) (hc : ref? c.node = none)
    (hf : (k, w) ∈ fields') :
    ∃ d, Makes root c d ∧ d.place = c.place ++ [.key k] ∧ Resolves root d.active d.node w := by
  obtain ⟨cplace, cactive, cnode⟩ := c
  obtain ⟨_, _, -, heq, -⟩ | ⟨fields, _, rfl, heq, hfields⟩ | ⟨ha, rfl⟩ := h.shape hc
  · cases heq
  · cases heq
    obtain ⟨⟨k', v⟩, hmem, rfl, hvw⟩ := exists_mem_of_forall₂ hfields hf
    exact ⟨_, .field hc hmem, rfl, hvw⟩
  · exact ha.elim

/-- What stands in a result was made by a call at its place. -/
theorem Resolves.exists_call {c : Call} {u : Value} (h : Resolves root c.active c.node w)
    (hu : Stands w place u) :
    ∃ d, ReflTransGen (Makes root) c d ∧ d.place = c.place ++ place ∧
      Resolves root d.active d.node u := by
  induction hu generalizing c with
  | here => exact ⟨c, .refl, (List.append_nil _).symm, h⟩
  | item hn _ ih =>
    obtain ⟨d, hcd, hplace, hres⟩ :=
      h.exists_call_part rfl fun d hd hres => hres.exists_makes_item hd hn
    obtain ⟨e, hde, heplace, hres⟩ := ih hres
    refine ⟨e, hcd.trans hde, ?_, hres⟩
    rw [heplace, hplace, List.append_assoc, List.singleton_append]
  | field hr hf _ ih =>
    obtain ⟨d, hcd, hplace, hres⟩ :=
      h.exists_call_part hr fun d hd hres => hres.exists_makes_field hd hf
    obtain ⟨e, hde, heplace, hres⟩ := ih hres
    refine ⟨e, hcd.trans hde, ?_, hres⟩
    rw [heplace, hplace, List.append_assoc, List.singleton_append]

/-! ### Active references -/

/-- A call goes down from the place of the call that makes it. -/
theorem Makes.place_extends {c d : Call} (h : Makes root c d) : c.place <+: d.place := by
  cases h with
  | item _ => exact List.prefix_append _ _
  | field _ _ => exact List.prefix_append _ _
  | expand _ _ _ => exact List.prefix_rfl

/-- The call `d` expands the reference `ref`: it makes the call `e` for its target, at its own
place. -/
structure Expansion (document : Value) (ref : String) (d e : Call) : Prop where
  occurs : Occurs document d
  ref?_node : ref? d.node = some ref
  lookup : Pointer.lookup document ref = .ok e.node
  makes : Makes document d e

/-- A reference that is active in a call was expanded at a place at or above the place of the
call, and the call came of that. -/
theorem exists_expansion_of_mem_active {document : Value} {c : Call} (h : Occurs document c)
    (ha : ref ∈ c.active) :
    ∃ d e, Expansion document ref d e ∧ ReflTransGen (Makes document) e c ∧
      d.place <+: c.place := by
  induction h with
  | refl => cases ha
  | @tail c c' hc hmakes ih =>
    have keep (ha : ref ∈ c.active) :
        ∃ d e, Expansion document ref d e ∧ ReflTransGen (Makes document) e c' ∧
          d.place <+: c'.place := by
      obtain ⟨d, e, hde, hec, hplace⟩ := ih ha
      exact ⟨d, e, hde, hec.tail hmakes, hplace.trans hmakes.place_extends⟩
    cases hmakes with
    | item hn => exact keep ha
    | field hr hf => exact keep ha
    | expand hv hnew ht =>
      rcases List.mem_cons.1 ha with rfl | ha
      · exact ⟨_, _, ⟨hc, hv, ht, .expand hv hnew ht⟩, .refl, List.prefix_rfl⟩
      · exact keep ha

/-- The reference `s` stands in the target of the reference `r`. -/
def Leads (document : Value) (r s : String) : Prop :=
  ∃ target place w, Pointer.lookup document r = .ok target ∧ Stands target place w ∧
    ref? w = some s

/-- A reference that another one leads to is one of the document. -/
theorem Leads.mem_refs {document : Value} {r s : String} (h : Leads document r s) :
    s ∈ document.refs := by
  obtain ⟨target, place, w, ht, hw, hs⟩ := h
  exact Pointer.refs_lookup_subset ht (hw.mem_refs hs)

/-- A reference to a value without references leads to none. -/
theorem not_leads_of_refs_eq_nil {document target : Value} {r s : String}
    (ht : Pointer.lookup document r = .ok target) (hrefs : target.refs = []) :
    ¬ Leads document r s := by
  rintro ⟨target', place, w, ht', hw, hs⟩
  obtain rfl : target = target' := Except.ok.inj (ht.symm.trans ht')
  exact absurd (hw.mem_refs hs) (by simp [hrefs])

/-- The references that occur below the expansion of a reference are those that it leads to. -/
theorem transGen_leads {document : Value} {c e : Call} {r s : String}
    (he : Pointer.lookup document r = .ok e.node) (hec : ReflTransGen (Makes document) e c)
    (hc : ref? c.node = some s) : TransGen (Leads document) r s := by
  -- a call below stands in the target of a reference that `r` leads to
  have hbelow : ∃ r' target place, ReflTransGen (Leads document) r r' ∧
      Pointer.lookup document r' = .ok target ∧ Stands target place c.node := by
    clear hc
    induction hec with
    | refl => exact ⟨r, e.node, [], .refl, he, .here⟩
    | tail _ hmakes ih =>
      obtain ⟨r', target, place, hr, ht, hstands⟩ := ih
      cases hmakes with
      | item hn => exact ⟨r', target, _, hr, ht, hstands.append (.item hn .here)⟩
      | field hf hmem => exact ⟨r', target, _, hr, ht, hstands.append (.field hf hmem .here)⟩
      | expand hv _ ht' =>
        exact ⟨_, _, [], hr.tail ⟨target, place, _, ht, hstands, hv⟩, ht', .here⟩
  obtain ⟨r', target, place, hr, ht, hstands⟩ := hbelow
  exact TransGen.tail' hr ⟨target, place, c.node, ht, hstands, hc⟩

/-! ### Late references -/

/-- The value at a place of the result was made of a late reference. -/
def MadeLate (document : Value) (place : List Step) (ref : String) : Prop :=
  ∃ c, Occurs document c ∧ c.place = place ∧ lateRef? document c.node = some ref

mutual

/-- What stands under `$ref` in the mappings of a value is a text. -/
def hasTextRefs : Value → Bool
  | .list items => haveTextRefsItems items
  | .mapping fields =>
    (match Value.field? fields "$ref" with
      | some v => v.text?.isSome
      | none => true) && haveTextRefsFields fields
  | _ => true

/-- What stands under `$ref` in the mappings of the items of a list is a text. -/
def haveTextRefsItems : List Value → Bool
  | [] => true
  | v :: vs => hasTextRefs v && haveTextRefsItems vs

/-- What stands under `$ref` in the mappings of the fields of a mapping is a text. -/
def haveTextRefsFields : List (Scalar × Value) → Bool
  | [] => true
  | (_, v) :: fs => hasTextRefs v && haveTextRefsFields fs

end

theorem hasTextRefs_of_mem_items {items : List Value} (h : hasTextRefs (.list items))
    (hv : v ∈ items) : hasTextRefs v := by
  rw [hasTextRefs] at h
  induction items with
  | nil => cases hv
  | cons w ws ih =>
    rw [haveTextRefsItems, Bool.and_eq_true] at h
    rcases List.mem_cons.1 hv with rfl | hv
    · exact h.1
    · exact ih h.2 hv

theorem hasTextRefs_of_mem_fields {fields : List (Scalar × Value)} {f : Scalar × Value}
    (h : hasTextRefs (.mapping fields)) (hf : f ∈ fields) : hasTextRefs f.2 := by
  rw [hasTextRefs, Bool.and_eq_true] at h
  replace h := h.2
  induction fields with
  | nil => cases hf
  | cons g gs ih =>
    rw [haveTextRefsFields, Bool.and_eq_true] at h
    rcases List.mem_cons.1 hf with rfl | hf
    · exact h.1
    · exact ih hf h.2

/-- Texts under `$ref` pass on to the parts of a value. -/
theorem passesOn_hasTextRefs : Pointer.PassesOn fun v => hasTextRefs v :=
  ⟨hasTextRefs_of_mem_items, hasTextRefs_of_mem_fields⟩

/-- A value with texts under `$ref` is no late reference. -/
theorem lateRef?_eq_none (h : hasTextRefs v) : lateRef? root v = none := by
  cases v with
  | mapping fields =>
    rw [hasTextRefs, Bool.and_eq_true] at h
    cases hf : Value.field? fields "$ref" with
    | none =>
      have hget : Value.get? (.mapping fields) "$ref" = none := hf
      simp [lateRef?, ref?, hget]
    | some x =>
      have hget : Value.get? (.mapping fields) "$ref" = some x := hf
      rw [hf] at h
      obtain ⟨s, hs⟩ := Option.isSome_iff_exists.1 h.1
      simp [lateRef?, ref?, hget, hs]
  | _ => rfl

/-- In a document that has texts under `$ref` nothing is a late reference. -/
theorem not_madeLate_of_hasTextRefs {document : Value} (h : hasTextRefs document) :
    ¬ MadeLate document place ref := by
  rintro ⟨c, hc, -, hlate⟩
  have hnode : hasTextRefs c.node := by
    clear hlate
    induction hc with
    | refl => exact h
    | tail _ hmakes ih =>
      cases hmakes with
      | item hn => exact hasTextRefs_of_mem_items ih (List.mem_of_getElem? hn)
      | field hr hf => exact hasTextRefs_of_mem_fields ih hf
      | expand hv ha ht => exact passesOn_hasTextRefs.lookup h ht
  rw [lateRef?_eq_none hnode] at hlate
  cases hlate

/-! ### What is left over -/

/-- The reference `ref`, which is the value `w` at a place of the result, closes a cycle: its
expansion at that place or at one above it led to the call that left it over. -/
def ClosesCycle (document : Value) (place : List Step) (w : Value) (ref : String) : Prop :=
  ∃ d e c, Expansion document ref d e ∧ ReflTransGen (Makes document) e c ∧
    d.place <+: place ∧ c.place = place ∧ c.node = w

/-- A reference in a result closes a cycle or was made of a late reference. -/
theorem closesCycle_or_madeLate {document resolved : Value}
    (h : resolve document = .ok resolved) (hw : Stands resolved place w)
    (href : ref? w = some ref) :
    ClosesCycle document place w ref ∨ MadeLate document place ref := by
  have hstart : Resolves document (Call.active ⟨[], [], document⟩) document resolved :=
    resolve_eq_ok_iff.1 h
  obtain ⟨c, hc, hplace, hres⟩ := hstart.exists_call hw
  rw [List.nil_append] at hplace
  obtain ⟨active', u, hexp, hcase⟩ := hres.exists_expands
  have hcalls : Occurs document ⟨c.place, active', u⟩ := hc.trans (hexp.calls c.place)
  obtain ⟨r, hr, hu, rfl⟩ | ⟨hu, hres⟩ := hcase
  · obtain rfl : r = ref := Option.some.inj (hu.symm.trans href)
    obtain ⟨d, e, hde, hec, hd⟩ := exists_expansion_of_mem_active hcalls hr
    exact .inl ⟨d, e, _, hde, hec, hplace ▸ hd, hplace, rfl⟩
  · exact .inr ⟨_, hcalls, hplace, hres.lateRef?_eq_some hu href⟩

/-- No reference leads back to itself. -/
def Acyclic (document : Value) : Prop := ∀ ref, ¬ TransGen (Leads document) ref ref

/-- Where no reference leads back to itself, none closes a cycle. -/
theorem Acyclic.not_closesCycle {document : Value} (h : Acyclic document)
    (href : ref? w = some ref) : ¬ ClosesCycle document place w ref := by
  rintro ⟨d, e, c, hde, hec, -, -, rfl⟩
  exact h ref (transGen_leads hde.lookup hec href)

/-- What resolving leaves over closes cycles, up to late references; so where no reference leads
back to itself and none is late, nothing is left over and resolving again changes nothing. -/
theorem leftover_closesCycle {document resolved : Value} (h : resolve document = .ok resolved) :
    (∀ place w ref, Stands resolved place w → ref? w = some ref →
      ClosesCycle document place w ref ∨ MadeLate document place ref) ∧
    (Acyclic document → (∀ place ref, ¬ MadeLate document place ref) →
      resolved.refs = [] ∧ resolve resolved = .ok resolved) := by
  refine ⟨fun place w ref hw href => closesCycle_or_madeLate h hw href, fun hacyclic hlate => ?_⟩
  have hrefs : resolved.refs = [] := by
    refine refs_eq_nil_of_stands fun place w hw => ?_
    by_contra hne
    obtain ⟨ref, href⟩ := Option.ne_none_iff_exists'.1 hne
    rcases closesCycle_or_madeLate h hw href with hcycle | hmade
    · exact hacyclic.not_closesCycle href hcycle
    · exact hlate place ref hmade
  exact ⟨hrefs, resolve_eq_ok_iff.2 (resolves_self_of_refs_eq_nil hrefs)⟩

/-- A reference to a reference to a mapping. -/
def chainDocument : Value :=
  .ofFields [
    ("a", .ofFields [("$ref", .text "#/b")]),
    ("b", .ofFields [("$ref", .text "#/c")]),
    ("c", .ofFields [("value", .int 42)])]

/-- The mapping wherever a reference led to it. -/
def chainResolved : Value :=
  .ofFields [
    ("a", .ofFields [("value", .int 42)]),
    ("b", .ofFields [("value", .int 42)]),
    ("c", .ofFields [("value", .int 42)])]

theorem resolve_chainDocument : resolve chainDocument = .ok chainResolved := by
  have hc (active : List String) : Resolves chainDocument active (.ofFields [("value", .int 42)])
      (.ofFields [("value", .int 42)]) :=
    resolves_self_of_refs_eq_nil (by decide)
  have hb (active : List String) (hnew : "#/c" ∉ active) : Resolves chainDocument active
      (.ofFields [("$ref", .text "#/c")]) (.ofFields [("value", .int 42)]) :=
    (resolves_reference_iff rfl).2 ⟨by decide, .inr ⟨hnew, _, rfl, hc ("#/c" :: active)⟩⟩
  have ha : Resolves chainDocument [] (.ofFields [("$ref", .text "#/b")])
      (.ofFields [("value", .int 42)]) :=
    (resolves_reference_iff rfl).2 ⟨by decide, .inr ⟨by decide, _, rfl, hb ["#/b"] (by decide)⟩⟩
  exact resolve_eq_ok_iff.2 ((resolves_mapping_iff rfl).2 ⟨by decide, _, rfl,
    .cons ⟨rfl, ha⟩ (.cons ⟨rfl, hb [] (by decide)⟩ (.cons ⟨rfl, hc []⟩ .nil))⟩)

/-- The two references of the chain lead forwards only. -/
theorem acyclic_chainDocument : Acyclic chainDocument := by
  have hlast (s : String) : ¬ Leads chainDocument "#/c" s :=
    not_leads_of_refs_eq_nil rfl (by decide)
  have hfirst (s : String) (h : Leads chainDocument "#/b" s) : s = "#/c" := by
    obtain ⟨target, place, w, ht, hw, hs⟩ := h
    cases ht
    exact List.mem_singleton.1 (hw.mem_refs hs)
  have hrefs : chainDocument.refs = ["#/b", "#/c"] := by decide
  intro ref hcycle
  obtain ⟨_, -, hlead⟩ := Relation.TransGen.tail'_iff.1 hcycle
  obtain ⟨x, hx, hback⟩ := Relation.TransGen.head'_iff.1 hcycle
  have href := hlead.mem_refs
  rw [hrefs, List.mem_pair] at href
  rcases href with rfl | rfl
  · obtain rfl := hfirst x hx
    obtain heq | ⟨y, hy, -⟩ := Relation.ReflTransGen.cases_head hback
    · exact absurd heq (by decide)
    · exact hlast y hy
  · exact hlast x hx

/-- Both parts at once: in the recursive document what is left over closes a cycle, in the chain
nothing is left over. -/
theorem leftover_closesCycle_chainDocument :
    resolve recursiveDocument = .ok recursiveResolved ∧
      ClosesCycle recursiveDocument [.key (.text "start"), .key (.text "next")]
        (.ofFields [("$ref", .text "#/node")]) "#/node" ∧
    resolve chainDocument = .ok chainResolved ∧ Acyclic chainDocument ∧
      (∀ place ref, ¬ MadeLate chainDocument place ref) ∧
      chainResolved.refs = [] ∧ resolve chainResolved = .ok chainResolved := by
  have hstands : Stands recursiveResolved [.key (.text "start"), .key (.text "next")]
      (.ofFields [("$ref", .text "#/node")]) :=
    .field rfl (List.mem_cons_of_mem _ List.mem_cons_self)
      (.field rfl (List.mem_cons_of_mem _ List.mem_cons_self) .here)
  have hcycle := ((leftover_closesCycle resolve_recursiveDocument).1 _ _ _ hstands rfl).resolve_right
    (not_madeLate_of_hasTextRefs (by decide))
  have hlate (place : List Step) (ref : String) : ¬ MadeLate chainDocument place ref :=
    not_madeLate_of_hasTextRefs (by decide)
  have hagain := (leftover_closesCycle resolve_chainDocument).2 acyclic_chainDocument hlate
  exact ⟨resolve_recursiveDocument, hcycle, resolve_chainDocument, acyclic_chainDocument, hlate,
    hagain⟩

/-- The reference of the late document leads to no other. -/
theorem acyclic_lateDocument : Acyclic lateDocument := by
  have hrefs : lateDocument.refs = ["#/t"] := by decide
  intro ref hcycle
  obtain ⟨_, -, hlead⟩ := Relation.TransGen.tail'_iff.1 hcycle
  obtain ⟨x, hx, -⟩ := Relation.TransGen.head'_iff.1 hcycle
  have href := hlead.mem_refs
  rw [hrefs, List.mem_singleton] at href
  subst href
  exact not_leads_of_refs_eq_nil rfl (by decide) hx

/-- A late reference is left over without closing a cycle. -/
theorem not_forall_leftover_closesCycle :
    ¬ ∀ document resolved : Value, resolve document = .ok resolved →
      (∀ place w ref, Stands resolved place w → ref? w = some ref →
        ClosesCycle document place w ref) ∧
      (Acyclic document → resolved.refs = [] ∧ resolve resolved = .ok resolved) := by
  intro h
  have hrefs := ((h lateDocument lateResolved resolve_lateDocument).2 acyclic_lateDocument).1
  have hleft : lateResolved.refs = ["#/u"] := by decide
  rw [hleft] at hrefs
  cases hrefs

end ApiShell.Reference
