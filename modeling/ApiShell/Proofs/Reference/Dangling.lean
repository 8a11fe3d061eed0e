import ApiShell.Proofs.Reference.Cycle

/-!
# References that lead nowhere

A document is resolved unless a reference that can be reached in it leads nowhere.  The references
that can be reached are those that stand in the document, and those that stand in the target of one
that can be reached; what stands beside the `$ref` of a reference does not count.

`depthFirst` lists them in the order of a depth-first search: the target of a reference is searched
where the reference is first met, before what stands behind it, and only there.  Resolving does not
remember what it met.  It follows a reference as often as it comes to it, unless it is active.
Still it ends with the first of the list that leads nowhere: what can be reached from a reference
that was followed to its end was met by then, down to the references that were active, and where
these were being followed nothing is passed over.  `Explored` is this invariant, and `Passes` and
`Stops` say how a call compares with the search.
-/

namespace ApiShell.Reference

open Value (ref?)

variable {document v w : Value} {active unseen unseen' pending rest : List String}
  {ref r s : String} {fault : Fault} {α β : Type}

/-! ### References in the order of the document -/

mutual

/-- The references that stand in a value, in the order of the document. -/
def standing : Value → List String
  | .list items => standingInItems items
  | .mapping fields =>
    match ref? (.mapping fields) with
    | some ref => [ref]
    | none => standingInFields fields
  | _ => []

/-- The references that stand in the items of a list. -/
def standingInItems : List Value → List String
  | [] => []
  | v :: vs => standing v ++ standingInItems vs

/-- The references that stand in the fields of a mapping. -/
def standingInFields : List (Scalar × Value) → List String
  | [] => []
  | (_, v) :: fs => standing v ++ standingInFields fs

end

theorem standing_of_isAtom (hv : IsAtom v) : standing v = [] := by
  cases v with
  | list items => exact hv.elim
  | mapping fields => exact hv.elim
  | _ => rfl

theorem standing_reference (hv : ref? v = some ref) : standing v = [ref] := by
  obtain ⟨fields, rfl, -⟩ := exists_fields_of_ref? hv
  rw [standing, hv]

theorem standing_mapping {fields : List (Scalar × Value)} (hr : ref? (.mapping fields) = none) :
    standing (.mapping fields) = standingInFields fields := by
  rw [standing, hr]

theorem mem_standingInItems {items : List Value} :
    s ∈ standingInItems items ↔ ∃ v ∈ items, s ∈ standing v := by
  induction items with
  | nil => simp [standingInItems]
  | cons v vs ih => simp [standingInItems, ih]

theorem mem_standingInFields {fields : List (Scalar × Value)} :
    s ∈ standingInFields fields ↔ ∃ f ∈ fields, s ∈ standing f.2 := by
  induction fields with
  | nil => simp [standingInFields]
  | cons f fs ih => simp [standingInFields, ih]

/-- The list has the references that stand somewhere in the value. -/
theorem mem_standing_iff : s ∈ standing v ↔ ∃ place w, Stands v place w ∧ ref? w = some s := by
  constructor
  · intro h
    induction hn : height v using Nat.strongRecOn generalizing v with
    | _ n ih =>
      obtain ⟨items, rfl⟩ | ⟨fields, rfl⟩ | ha := list_or_mapping_or_isAtom v
      · obtain ⟨u, hu, hs⟩ := mem_standingInItems.1 h
        obtain ⟨place, w, hw, href⟩ := ih _ (hn ▸ height_lt_of_mem_items hu) hs rfl
        obtain ⟨i, hi⟩ := List.getElem?_of_mem hu
        exact ⟨_, w, .item hi hw, href⟩
      · cases hr : ref? (.mapping fields) with
        | some ref =>
          rw [standing_reference hr, List.mem_singleton] at h
          exact ⟨[], _, .here, h ▸ hr⟩
        | none =>
          rw [standing_mapping hr] at h
          obtain ⟨⟨k, u⟩, hu, hs⟩ := mem_standingInFields.1 h
          obtain ⟨place, w, hw, href⟩ := ih _ (hn ▸ height_lt_of_mem_fields hu) hs rfl
          exact ⟨_, w, .field hr hu hw, href⟩
      · rw [standing_of_isAtom ha] at h
        cases h
  · rintro ⟨place, w, hw, href⟩
    induction hw with
    | here => exact standing_reference href ▸ List.mem_singleton_self s
    | item hi _ ih => exact mem_standingInItems.2 ⟨_, List.mem_of_getElem? hi, ih href⟩
    | field hr hf _ ih =>
      rw [standing_mapping hr]
      exact mem_standingInFields.2 ⟨_, hf, ih href⟩

/-- The references that stand in the target of a reference; none where it leads nowhere. -/
def onward (document : Value) (ref : String) : List String :=
  match Pointer.lookup document ref with
  | .ok target => standing target
  | .error _ => []

theorem onward_of_lookup {target : Value} (h : Pointer.lookup document ref = .ok target) :
    onward document ref = standing target := by
  rw [onward, h]

theorem mem_onward_iff : s ∈ onward document r ↔ Leads document r s := by
  constructor
  · intro h
    unfold onward at h
    split at h
    · next target ht =>
      obtain ⟨place, w, hw, hs⟩ := mem_standing_iff.1 h
      exact ⟨target, place, w, ht, hw, hs⟩
    · cases h
  · rintro ⟨target, place, w, ht, hw, hs⟩
    rw [onward_of_lookup ht]
    exact mem_standing_iff.2 ⟨place, w, hw, hs⟩

/-! ### Depth-first search -/

/-- Depth-first search from the references of `pending`: each of `unseen` is listed where it is
first met, and no other. -/
def search (document : Value) (unseen : List String) : List String → List String
  | [] => []
  | ref :: pending =>
    if h : ref ∈ unseen then
      have : (without ref unseen).length < unseen.length := length_without_lt h
      ref :: search document (without ref unseen) (onward document ref ++ pending)
    else search document unseen pending
termination_by pending => (unseen.length, pending.length)

/-- The references that can be reached in a document, in depth-first order. -/
def depthFirst (document : Value) : List String :=
  search document document.refs (standing document)

theorem search_nil : search document unseen [] = [] := by rw [search]

theorem search_cons_of_mem (h : ref ∈ unseen) :
    search document unseen (ref :: pending) =
      ref :: search document (without ref unseen) (onward document ref ++ pending) := by
  rw [search, dif_pos h]

theorem search_cons_of_notMem (h : ref ∉ unseen) :
    search document unseen (ref :: pending) = search document unseen pending := by
  rw [search, dif_neg h]

/-- References that were met are passed over. -/
theorem search_append_of_notMem (h : ∀ r ∈ pending, r ∉ unseen) :
    search document unseen (pending ++ rest) = search document unseen rest := by
  induction pending with
  | nil => rfl
  | cons r pending ih =>
    rw [List.cons_append, search_cons_of_notMem (h r List.mem_cons_self)]
    exact ih fun s hs => h s (List.mem_cons_of_mem r hs)

/-- Only what was not met before is listed. -/
theorem mem_unseen_of_mem_search (h : r ∈ search document unseen pending) : r ∈ unseen := by
  induction unseen, pending using search.induct document with
  | case1 unseen => rw [search_nil] at h; cases h
  | case2 unseen ref pending hmem _ ih =>
    rw [search_cons_of_mem hmem] at h
    rcases List.mem_cons.1 h with rfl | h
    · exact hmem
    · exact (mem_without.1 (ih h)).1
  | case3 unseen ref pending hmem ih =>
    rw [search_cons_of_notMem hmem] at h
    exact ih h

/-- Nothing is listed twice. -/
theorem nodup_search : (search document unseen pending).Nodup := by
  induction unseen, pending using search.induct document with
  | case1 unseen => rw [search_nil]; exact List.nodup_nil
  | case2 unseen ref pending hmem _ ih =>
    rw [search_cons_of_mem hmem]
    exact List.nodup_cons.2 ⟨fun h => (mem_without.1 (mem_unseen_of_mem_search h)).2 rfl, ih⟩
  | case3 unseen ref pending hmem ih => rw [search_cons_of_notMem hmem]; exact ih

/-- A reference can be reached: it stands in the document, or in the target of another one that can
be reached. -/
inductive Reaches (document : Value) : String → Prop
  | stands {place : List Step} {w : Value} {ref : String} :
      Stands document place w → ref? w = some ref → Reaches document ref
  | leads {r s : String} : Reaches document r → Leads document r s → Reaches document s

theorem Reaches.mem_refs (h : Reaches document ref) : ref ∈ document.refs := by
  cases h with
  | stands hw href => exact hw.mem_refs href
  | leads _ hleads => exact hleads.mem_refs

/-- A search from references that can be reached lists such references. -/
theorem reaches_of_mem_search (hpending : ∀ r ∈ pending, Reaches document r)
    (h : r ∈ search document unseen pending) : Reaches document r := by
  induction unseen, pending using search.induct document with
  | case1 unseen => rw [search_nil] at h; cases h
  | case2 unseen ref pending hmem _ ih =>
    rw [search_cons_of_mem hmem] at h
    obtain ⟨href, hpending⟩ := List.forall_mem_cons.1 hpending
    rcases List.mem_cons.1 h with rfl | h
    · exact href
    · refine ih (fun s hs => ?_) h
      rcases List.mem_append.1 hs with hs | hs
      · exact .leads href (mem_onward_iff.1 hs)
      · exact hpending s hs
  | case3 unseen ref pending hmem ih =>
    rw [search_cons_of_notMem hmem] at h
    exact ih (fun s hs => hpending s (List.mem_cons_of_mem _ hs)) h

/-- To have met a reference before going on is to list it first. -/
theorem met_cons_iff {listed : List String} :
    r ∉ unseen ∨ r ∈ ref :: listed ↔ r ∉ without ref unseen ∨ r ∈ listed := by
  rw [mem_without, List.mem_cons]
  tauto

/-- What a search starts from is listed or was met before. -/
theorem met_of_mem_pending (h : r ∈ pending) :
    r ∉ unseen ∨ r ∈ search document unseen pending := by
  induction unseen, pending using search.induct document with
  | case1 unseen => cases h
  | case2 unseen ref pending hmem _ ih =>
    rw [search_cons_of_mem hmem]
    rcases List.mem_cons.1 h with rfl | h
    · exact .inr List.mem_cons_self
    · exact met_cons_iff.2 (ih (List.mem_append_right _ h))
  | case3 unseen ref pending hmem ih =>
    rw [search_cons_of_notMem hmem]
    rcases List.mem_cons.1 h with rfl | h
    · exact .inl hmem
    · exact ih h

/-- What stands in the target of a reference that is listed or was met before is listed or was met
before, if the search starts from all that was left of it. -/
theorem met_of_leads
    (hleft : ∀ r ∈ document.refs, r ∉ unseen → ∀ s, Leads document r s → s ∉ unseen ∨ s ∈ pending)
    (hr : r ∈ document.refs) (hmet : r ∉ unseen ∨ r ∈ search document unseen pending)
    (hleads : Leads document r s) : s ∉ unseen ∨ s ∈ search document unseen pending := by
  induction unseen, pending using search.induct document with
  | case1 unseen =>
    rw [search_nil] at hmet ⊢
    exact hleft r hr (hmet.resolve_right List.not_mem_nil) s hleads
  | case2 unseen ref pending hmem _ ih =>
    rw [search_cons_of_mem hmem] at hmet ⊢
    refine met_cons_iff.2 (ih (fun x hx hmetx y hxy => ?_) (met_cons_iff.1 hmet))
    by_cases hxref : x = ref
    · exact .inr (List.mem_append_left _ (mem_onward_iff.2 (hxref ▸ hxy)))
    · have hxunseen : x ∉ unseen := fun h => hmetx (mem_without.2 ⟨h, hxref⟩)
      exact (met_cons_iff.1 (hleft x hx hxunseen y hxy)).imp_right (List.mem_append_right _)
  | case3 unseen ref pending hmem ih =>
    rw [search_cons_of_notMem hmem] at hmet ⊢
    refine ih (fun x hx hmetx y hxy => ?_) hmet
    rcases hleft x hx hmetx y hxy with hy | hy
    · exact .inl hy
    · rcases List.mem_cons.1 hy with rfl | hy
      · exact .inl hmem
      · exact .inr hy

/-- The list has the references that can be reached. -/
theorem mem_depthFirst_iff : ref ∈ depthFirst document ↔ Reaches document ref := by
  constructor
  · refine reaches_of_mem_search fun r hr => ?_
    obtain ⟨place, w, hw, href⟩ := mem_standing_iff.1 hr
    exact .stands hw href
  · intro h
    refine Or.resolve_left ?_ (not_not.2 h.mem_refs)
    induction h with
    | stands hw href => exact met_of_mem_pending (mem_standing_iff.2 ⟨_, _, hw, href⟩)
    | leads hr hleads ih =>
      exact met_of_leads (fun x hx hnot => absurd hx hnot) hr.mem_refs ih hleads

/-! ### The search against the calls -/

/-- The reference leads nowhere. -/
def Dangles (document : Value) (ref : String) : Prop :=
  ∃ fault, Pointer.lookup document ref = .error fault

instance : Decidable (Dangles document ref) :=
  match h : Pointer.lookup document ref with
  | .error fault => .isTrue ⟨fault, h⟩
  | .ok _ => .isFalse fun ⟨_, hfault⟩ => nomatch h.symm.trans hfault

/-- What is known below the references of `active` of those that were met: they lead somewhere, and
what stands in their targets was met, unless they are active. -/
structure Explored (document : Value) (active unseen : List String) : Prop where
  lead : ∀ r ∈ document.refs, r ∉ unseen → ¬ Dangles document r
  closed : ∀ r ∈ document.refs, r ∉ unseen → r ∉ active → ∀ s ∈ onward document r, s ∉ unseen
  met : ∀ r ∈ active, r ∉ unseen

/-- The search from `pending` finds nothing that leads nowhere; it leaves `unseen'`, with which it
goes on to what stands behind. -/
structure Passes (document : Value) (active unseen pending unseen' : List String) : Prop where
  explored : Explored document active unseen'
  subset : unseen' ⊆ unseen
  met : ∀ r ∈ pending, r ∉ unseen'
  search_eq : ∃ listed, (∀ r ∈ listed, ¬ Dangles document r) ∧
    ∀ rest, search document unseen (pending ++ rest) = listed ++ search document unseen' rest

/-- The first reference that the search from `pending` finds to lead nowhere has this fault. -/
def Stops (document : Value) (unseen pending : List String) (fault : Fault) : Prop :=
  ∃ listed ref, (∀ r ∈ listed, ¬ Dangles document r) ∧ Pointer.lookup document ref = .error fault ∧
    ∀ rest, ∃ others, search document unseen (pending ++ rest) = listed ++ ref :: others

/-- A computation ends as the search does. -/
def Agrees (document : Value) (active unseen pending : List String) (x : Except Fault α) : Prop :=
  (∃ a unseen', x = .ok a ∧ Passes document active unseen pending unseen') ∨
    ∃ fault, x = .error fault ∧ Stops document unseen pending fault

theorem Passes.of_met (h : Explored document active unseen) (hmet : ∀ r ∈ pending, r ∉ unseen) :
    Passes document active unseen pending unseen :=
  ⟨h, fun _ hr => hr, hmet, [], nofun, fun _ => search_append_of_notMem hmet⟩

/-- What starts from references that were met does not stop. -/
theorem not_stops_of_met (hmet : ∀ r ∈ pending, r ∉ unseen) :
    ¬ Stops document unseen pending fault := by
  rintro ⟨listed, ref, -, -, hsearch⟩
  obtain ⟨others, hothers⟩ := hsearch []
  rw [search_append_of_notMem hmet, search_nil] at hothers
  simp at hothers

theorem Passes.append {unseen'' : List String} (h : Passes document active unseen pending unseen')
    (h' : Passes document active unseen' rest unseen'') :
    Passes document active unseen (pending ++ rest) unseen'' := by
  obtain ⟨listed, hlisted, hsearch⟩ := h.search_eq
  obtain ⟨listed', hlisted', hsearch'⟩ := h'.search_eq
  refine ⟨h'.explored, fun _ hr => h.subset (h'.subset hr), fun r hr => ?_, listed ++ listed',
    ?_, ?_⟩
  · rcases List.mem_append.1 hr with hr | hr
    · exact fun hmem => h.met r hr (h'.subset hmem)
    · exact h'.met r hr
  · exact fun r hr => (List.mem_append.1 hr).elim (hlisted r) (hlisted' r)
  · intro behind
    rw [List.append_assoc, hsearch, hsearch', List.append_assoc]

theorem Stops.append (h : Stops document unseen pending fault) :
    Stops document unseen (pending ++ rest) fault := by
  obtain ⟨listed, ref, hlisted, href, hsearch⟩ := h
  refine ⟨listed, ref, hlisted, href, fun behind => ?_⟩
  rw [List.append_assoc]
  exact hsearch (rest ++ behind)

theorem Stops.behind (h : Passes document active unseen pending unseen')
    (h' : Stops document unseen' rest fault) : Stops document unseen (pending ++ rest) fault := by
  obtain ⟨listed, hlisted, hsearch⟩ := h.search_eq
  obtain ⟨listed', ref, hlisted', href, hsearch'⟩ := h'
  refine ⟨listed ++ listed', ref, fun r hr => ?_, href, fun behind => ?_⟩
  · exact (List.mem_append.1 hr).elim (hlisted r) (hlisted' r)
  · obtain ⟨others, hothers⟩ := hsearch' behind
    exact ⟨others, by rw [List.append_assoc, hsearch, hothers, List.append_assoc]⟩

/-- A sequence ends as the search from what its parts are about. -/
theorem Agrees.bind {x : Except Fault α} {f : α → Except Fault β}
    (hx : Agrees document active unseen pending x)
    (hf : ∀ a unseen', Explored document active unseen' →
      Agrees document active unseen' rest (f a)) :
    Agrees document active unseen (pending ++ rest) (x >>= f) := by
  obtain ⟨a, unseen', rfl, hpasses⟩ | ⟨fault, rfl, hstops⟩ := hx
  · obtain ⟨b, unseen'', hb, hpasses'⟩ | ⟨fault, hfault, hstops⟩ := hf a unseen' hpasses.explored
    · exact .inl ⟨b, unseen'', hb, hpasses.append hpasses'⟩
    · exact .inr ⟨fault, hfault, .behind hpasses hstops⟩
  · exact .inr ⟨fault, rfl, hstops.append⟩

/-- A result agrees with a search from nowhere. -/
theorem Agrees.pure (h : Explored document active unseen) (a : α) :
    Agrees document active unseen [] (Pure.pure a : Except Fault α) :=
  .inl ⟨a, unseen, rfl, .of_met h nofun⟩

theorem Agrees.map {x : Except Fault α} (hx : Agrees document active unseen pending x) (f : α → β) :
    Agrees document active unseen pending (x >>= fun a => Pure.pure (f a)) := by
  rw [← List.append_nil pending]
  exact hx.bind fun a unseen' hexplored => .pure hexplored (f a)

theorem not_dangles_of_lookup {target : Value} (h : Pointer.lookup document ref = .ok target) :
    ¬ Dangles document ref := by
  rintro ⟨fault, hfault⟩
  rw [h] at hfault
  cases hfault

/-- To follow a reference for the first time, it becomes active and is met. -/
theorem Explored.follow {target : Value} (h : Explored document active unseen)
    (ht : Pointer.lookup document ref = .ok target) :
    Explored document (ref :: active) (without ref unseen) := by
  have hseen {x : String} (hx : x ∉ without ref unseen) (hne : x ≠ ref) : x ∉ unseen :=
    fun hmem => hx (mem_without.2 ⟨hmem, hne⟩)
  have hmet {x : String} (hx : x ∉ unseen) : x ∉ without ref unseen :=
    fun hmem => hx (mem_without.1 hmem).1
  refine ⟨fun r hr hnot => ?_, fun r hr hnot hactive x hx => ?_, fun r hr => ?_⟩
  · by_cases hne : r = ref
    · exact hne ▸ not_dangles_of_lookup ht
    · exact h.lead r hr (hseen hnot hne)
  · rw [List.mem_cons, not_or] at hactive
    exact hmet (h.closed r hr (hseen hnot hactive.1) hactive.2 x hx)
  · rcases List.mem_cons.1 hr with rfl | hr
    · exact fun hmem => (mem_without.1 hmem).2 rfl
    · exact hmet (h.met r hr)

/-- Once a reference was followed to its end, it need not be active any more. -/
theorem Explored.leave (h : Explored document (ref :: active) unseen)
    (hmet : ∀ s ∈ onward document ref, s ∉ unseen) : Explored document active unseen := by
  refine ⟨h.lead, fun r hr hnot hactive => ?_, fun r hr => h.met r (List.mem_cons_of_mem _ hr)⟩
  by_cases hne : r = ref
  · exact hne ▸ hmet
  · exact h.closed r hr hnot fun hmem => (List.mem_cons.1 hmem).elim hne hactive

/-- To follow a reference once more, it becomes active. -/
theorem Explored.follow_again (h : Explored document active unseen) (hmet : ref ∉ unseen) :
    Explored document (ref :: active) unseen := by
  refine ⟨h.lead, fun r hr hnot hactive => ?_, List.forall_mem_cons.2 ⟨hmet, h.met⟩⟩
  exact h.closed r hr hnot fun hmem => hactive (List.mem_cons_of_mem _ hmem)

/-- A reference that is met first ends as its target does. -/
theorem Agrees.of_target {x : Except Fault α} {target : Value} (hunseen : ref ∈ unseen)
    (ht : Pointer.lookup document ref = .ok target)
    (h : Agrees document (ref :: active) (without ref unseen) (standing target) x) :
    Agrees document active unseen [ref] x := by
  have hdangles := not_dangles_of_lookup ht
  have hstep (rest : List String) : search document unseen ([ref] ++ rest) =
      ref :: search document (without ref unseen) (standing target ++ rest) := by
    rw [List.singleton_append, search_cons_of_mem hunseen, onward_of_lookup ht]
  obtain ⟨a, unseen', rfl, hpasses⟩ | ⟨fault, rfl, listed, r, hlisted, hr, hsearch⟩ := h
  · obtain ⟨listed, hlisted, hsearch⟩ := hpasses.search_eq
    have hsubset : unseen' ⊆ unseen := fun _ hr => (mem_without.1 (hpasses.subset hr)).1
    have hgone : ref ∉ unseen' := fun hmem => (mem_without.1 (hpasses.subset hmem)).2 rfl
    have hexplored : Explored document active unseen' :=
      hpasses.explored.leave (onward_of_lookup ht ▸ hpasses.met)
    refine .inl ⟨a, unseen', rfl, hexplored, hsubset, List.forall_mem_singleton.2 hgone,
      ref :: listed, List.forall_mem_cons.2 ⟨hdangles, hlisted⟩, fun rest => ?_⟩
    rw [hstep, hsearch, List.cons_append]
  · refine .inr ⟨fault, rfl, ref :: listed, r, List.forall_mem_cons.2 ⟨hdangles, hlisted⟩, hr,
      fun rest => ?_⟩
    obtain ⟨others, hothers⟩ := hsearch rest
    exact ⟨others, by rw [hstep, hothers, List.cons_append]⟩

/-- A reference that was followed before and is not active ends well again. -/
theorem Agrees.of_met {x : Except Fault α} {target : Value}
    (hexplored : Explored document active unseen) (href : ref ∈ document.refs) (hmet : ref ∉ unseen) (ha : ref ∉ active)
    (ht : Pointer.lookup document ref = .ok target)
    (h : Agrees document (ref :: active) unseen (standing target) x) :
    Agrees document active unseen [ref] x := by
  have honward : ∀ s ∈ standing target, s ∉ unseen :=
    onward_of_lookup ht ▸ hexplored.closed ref href hmet ha
  obtain ⟨a, -, rfl, -⟩ | ⟨fault, -, hstops⟩ := h
  · exact .inl ⟨a, unseen, rfl, .of_met hexplored (List.forall_mem_singleton.2 hmet)⟩
  · exact absurd hstops (not_stops_of_met honward)

/-- The items of a list end as the search from what stands in them, if each of them does. -/
theorem agrees_resolveItems {items : List Value} (hsub : Value.refsOfItems items ⊆ document.refs)
    (hitems : ∀ v ∈ items, ∀ unseen (hv : v.refs ⊆ document.refs), Explored document active unseen →
      Agrees document active unseen (standing v) (resolveFrom document active v hv))
    (hexplored : Explored document active unseen) :
    Agrees document active unseen (standingInItems items)
      (resolveItems document active items hsub) := by
  induction items generalizing unseen with
  | nil =>
    rw [resolveItems]
    exact .pure hexplored []
  | cons v vs ih =>
    rw [resolveItems]
    refine (hitems v List.mem_cons_self unseen _ hexplored).bind fun w _ hexplored' => ?_
    exact (ih _ (fun u hu => hitems u (List.mem_cons_of_mem _ hu)) hexplored').map (w :: ·)

/-- The fields of a mapping end as the search from what stands in them, if each of them does. -/
theorem agrees_resolveFields {fields : List (Scalar × Value)}
    (hsub : Value.refsOfFields fields ⊆ document.refs)
    (hfields : ∀ f ∈ fields, ∀ unseen (hf : f.2.refs ⊆ document.refs),
      Explored document active unseen →
        Agrees document active unseen (standing f.2) (resolveFrom document active f.2 hf))
    (hexplored : Explored document active unseen) :
    Agrees document active unseen (standingInFields fields)
      (resolveFields document active fields hsub) := by
  induction fields generalizing unseen with
  | nil =>
    rw [resolveFields]
    exact .pure hexplored []
  | cons f fs ih =>
    obtain ⟨k, v⟩ := f
    rw [resolveFields]
    refine (hfields (k, v) List.mem_cons_self unseen _ hexplored).bind fun w _ hexplored' => ?_
    exact (ih _ (fun f hf => hfields f (List.mem_cons_of_mem _ hf)) hexplored').map ((k, w) :: ·)

/-- A call ends as the search from what stands in its node. -/
theorem agrees_resolveFrom (h : v.refs ⊆ document.refs)
    (hexplored : Explored document active unseen) :
    Agrees document active unseen (standing v) (resolveFrom document active v h) := by
  refine node_induction (motive := fun active v => ∀ unseen h,
    Explored document active unseen →
      Agrees document active unseen (standing v) (resolveFrom document active v h))
    ?_ ?_ ?_ ?_ h unseen h hexplored
  · intro active v ha unseen h hexplored
    rw [resolveFrom_of_isAtom ha, standing_of_isAtom ha]
    exact .pure hexplored v
  · intro active items hitems unseen h hexplored
    rw [resolveFrom]
    exact (agrees_resolveItems h hitems hexplored).map Value.list
  · intro active fields hr hfields unseen h hexplored
    rw [resolveFrom_mapping hr, standing_mapping hr]
    exact (agrees_resolveFields _ hfields hexplored).map Value.mapping
  · intro active v ref hv href htarget unseen h hexplored
    rw [standing_reference hv]
    by_cases ha : ref ∈ active
    · rw [resolveFrom_of_active hv ha]
      have hmet : ∀ r ∈ [ref], r ∉ unseen := List.forall_mem_singleton.2 (hexplored.met ref ha)
      exact .inl ⟨v, unseen, rfl, .of_met hexplored hmet⟩
    cases ht : Pointer.lookup document ref with
    | error fault =>
      have hunseen : ref ∈ unseen := by
        by_contra hmet
        exact hexplored.lead ref href hmet ⟨fault, ht⟩
      rw [resolveFrom_of_lookup_error hv ha ht]
      exact .inr ⟨fault, rfl, [], ref, List.forall_mem_nil _, ht,
        fun rest => ⟨_, search_cons_of_mem hunseen⟩⟩
    | ok target =>
      rw [resolveFrom_of_lookup hv ha ht]
      by_cases hunseen : ref ∈ unseen
      · exact .of_target hunseen ht (htarget ha target ht _ _ (hexplored.follow ht))
      · exact .of_met hexplored href hunseen ha ht
          (htarget ha target ht _ _ (hexplored.follow_again hunseen))

/-! ### When resolving fails -/

/-- The first reference in depth-first order that leads nowhere. -/
def firstDangling? (document : Value) : Option String :=
  (depthFirst document).find? fun ref => decide (Dangles document ref)

/-- A search stops at the first reference that leads nowhere. -/
theorem firstDangling?_of_eq_append {before after : List String}
    (hlist : depthFirst document = before ++ ref :: after)
    (hbefore : ∀ r ∈ before, ¬ Dangles document r) (href : Dangles document ref) :
    firstDangling? document = some ref := by
  rw [firstDangling?, List.find?_eq_some_iff_append]
  refine ⟨decide_eq_true href, before, after, hlist, fun r hr => ?_⟩
  rw [decide_eq_false (hbefore r hr)]
  rfl

/-- There is no first one exactly if no reference that can be reached leads nowhere. -/
theorem firstDangling?_eq_none_iff :
    firstDangling? document = none ↔ ∀ ref, Reaches document ref → ¬ Dangles document ref := by
  simp [firstDangling?, mem_depthFirst_iff]

/-- Resolving a document ends as the search does. -/
theorem resolve_cases (document : Value) :
    (firstDangling? document = none ∧ ∃ resolved, resolve document = .ok resolved) ∨
      ∃ ref fault, firstDangling? document = some ref ∧
        Pointer.lookup document ref = .error fault ∧ resolve document = .error fault := by
  have hexplored : Explored document [] document.refs :=
    ⟨fun r hr hnot => absurd hr hnot, fun r hr hnot => absurd hr hnot, nofun⟩
  obtain ⟨resolved, unseen', hresolved, hpasses⟩ |
      ⟨fault, hfault, listed, ref, hlisted, href, hsearch⟩ :=
    agrees_resolveFrom (fun _ hr => hr) hexplored
  · obtain ⟨listed, hlisted, hsearch⟩ := hpasses.search_eq
    have hlist : depthFirst document = listed := by
      have hall := hsearch []
      rwa [List.append_nil, search_nil, List.append_nil] at hall
    refine .inl ⟨firstDangling?_eq_none_iff.2 fun ref href => ?_, resolved, hresolved⟩
    exact hlisted ref (hlist ▸ mem_depthFirst_iff.2 href)
  · obtain ⟨others, hothers⟩ := hsearch []
    rw [List.append_nil] at hothers
    exact .inr ⟨ref, fault, firstDangling?_of_eq_append hothers hlisted ⟨fault, href⟩, href, hfault⟩

/-- Resolving a document fails with the fault of the first reference that leads nowhere. -/
theorem resolve_eq_error_iff :
    resolve document = .error fault ↔
      ∃ ref, firstDangling? document = some ref ∧ Pointer.lookup document ref = .error fault := by
  obtain ⟨hnone, resolved, hresolved⟩ | ⟨ref, fault', hsome, href, hfault⟩ := resolve_cases document
  · rw [hnone, hresolved]
    exact ⟨nofun, fun ⟨_, h, _⟩ => nomatch h⟩
  · rw [hsome, hfault]
    constructor
    · rintro ⟨⟩
      exact ⟨ref, rfl, href⟩
    · rintro ⟨_, ⟨⟩, h⟩
      exact href.symm.trans h

/-- Resolving a document gives a result if no reference that can be reached leads nowhere. -/
theorem exists_resolve_eq_ok_iff :
    (∃ resolved, resolve document = .ok resolved) ↔
      ∀ ref, Reaches document ref → ¬ Dangles document ref := by
  rw [← firstDangling?_eq_none_iff]
  obtain ⟨hnone, hresolved⟩ | ⟨ref, fault, hsome, -, hfault⟩ := resolve_cases document
  · exact iff_of_true hresolved hnone
  · rw [hsome, hfault]
    exact iff_of_false (fun ⟨_, h⟩ => nomatch h) nofun

/-- Resolving a document fails exactly if a reference that can be reached in it leads nowhere, and
then with the fault of the first one in depth-first order; else it gives a result.  The order has
each reference that can be reached, once.  A document is a value: it stays as it is. -/
theorem resolve_fails_iff (document : Value) :
    ((∃ fault, resolve document = .error fault) ↔
      ∃ ref, Reaches document ref ∧ Dangles document ref) ∧
    (∀ fault, resolve document = .error fault ↔
      ∃ ref, firstDangling? document = some ref ∧ Pointer.lookup document ref = .error fault) ∧
    ((∃ resolved, resolve document = .ok resolved) ↔
      ∀ ref, Reaches document ref → ¬ Dangles document ref) ∧
    (depthFirst document).Nodup ∧ ∀ ref, ref ∈ depthFirst document ↔ Reaches document ref := by
  have hfails : (∃ fault, resolve document = .error fault) ↔
      ¬ ∃ resolved, resolve document = .ok resolved := by
    cases resolve document <;> simp
  refine ⟨?_, fun fault => resolve_eq_error_iff, exists_resolve_eq_ok_iff, nodup_search,
    fun ref => mem_depthFirst_iff⟩
  rw [hfails, exists_resolve_eq_ok_iff]
  simp only [not_forall, not_not, exists_prop]

end ApiShell.Reference
