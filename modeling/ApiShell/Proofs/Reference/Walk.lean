import ApiShell.Proofs.Reference.Resolution
import Mathlib.Data.Option.Basic
import Mathlib.Logic.Relation

/-!
# Walks through a document and through its resolution

A walk follows steps from a value: to the field under a key, to the item at a position.  Wherever
it stands on a reference it first jumps to the place of the original document that the reference
points at.  What it comes to in the end is its *outcome*: an atom, the keys of a mapping, the
length of a list, a failure, or a loop of references that lead nowhere but to each other.

Resolving a document keeps the outcomes of all walks, except behind a *late reference*: a mapping
whose `$ref` is no text, but a reference to a text.  Such a mapping is no reference in the document
and looks like one in the result.
-/

namespace ApiShell.Reference

open Value (ref?)
open Relation (ReflTransGen TransGen)

/-! ### Following references -/

/-- Where the references of a value lead. -/
inductive Landing where
  | on (v : Value)
  | failure
  | loop

/-- The pointers other than `ref`. -/
def without (ref : String) (pointers : List String) : List String := pointers.filter (· ≠ ref)

theorem mem_without {ref r : String} {pointers : List String} :
    r ∈ without ref pointers ↔ r ∈ pointers ∧ r ≠ ref := by
  simp [without]

theorem length_without_lt {ref : String} {pointers : List String} (h : ref ∈ pointers) :
    (without ref pointers).length < pointers.length :=
  List.length_filter_lt_length_iff_exists.2 ⟨ref, h, by simp⟩

/-- Follow the references from a value, each of `unused` at most once and no others. -/
def settleFrom (root : Value) (unused : List String) (v : Value) : Landing :=
  match ref? v with
  | none => .on v
  | some ref =>
    if h : ref ∈ unused then
      match Pointer.lookup root ref with
      | .error _ => .failure
      | .ok target =>
        have : (without ref unused).length < unused.length := length_without_lt h
        settleFrom root (without ref unused) target
    else .loop
termination_by unused.length

/-- Follow the references from a value until it is none any more. -/
def settle (root v : Value) : Landing := settleFrom root (v.refs ++ root.refs) v

/-- The value `v` is a reference to the value `t` of `root`. -/
def PointsTo (root v t : Value) : Prop :=
  ∃ ref, ref? v = some ref ∧ Pointer.lookup root ref = .ok t

/-- Following references from a value ends in a landing, which is no loop. -/
inductive Settles (root : Value) : Value → Landing → Prop
  | here {v : Value} : ref? v = none → Settles root v (.on v)
  | dangling {v : Value} {ref : String} {fault : Fault} :
      ref? v = some ref → Pointer.lookup root ref = .error fault → Settles root v .failure
  | follow {v t : Value} {l : Landing} : PointsTo root v t → Settles root t l → Settles root v l

variable {root v w t : Value} {l l' : Landing}

/-- A reference points at one value only. -/
theorem PointsTo.unique {t' : Value} (h : PointsTo root v t) (h' : PointsTo root v t') :
    t = t' := by
  obtain ⟨ref, hv, ht⟩ := h
  obtain ⟨ref', hv', ht'⟩ := h'
  obtain rfl : ref = ref' := Option.some.inj (hv.symm.trans hv')
  exact Except.ok.inj (ht.symm.trans ht')

/-- What points at something is a reference. -/
theorem PointsTo.ref?_ne_none (h : PointsTo root v t) : ref? v ≠ none := by
  obtain ⟨ref, hv, -⟩ := h
  simp [hv]

/-- A reference settles where its target does. -/
theorem settles_of_pointsTo_iff (h : PointsTo root v t) :
    Settles root v l ↔ Settles root t l := by
  refine ⟨fun hv => ?_, .follow h⟩
  cases hv with
  | here hv => exact absurd hv h.ref?_ne_none
  | dangling hv hd =>
    obtain ⟨ref, hv', ht⟩ := h
    obtain rfl := Option.some.inj (hv.symm.trans hv')
    rw [hd] at ht
    cases ht
  | follow h' ht => exact h.unique h' ▸ ht

/-- A value settles in one landing only. -/
theorem Settles.unique (h : Settles root v l) (h' : Settles root v l') : l = l' := by
  induction h with
  | here hv =>
    cases h' with
    | here _ => rfl
    | dangling hv' _ => rw [hv] at hv'; cases hv'
    | follow hp _ => exact absurd hv hp.ref?_ne_none
  | dangling hv hd =>
    cases h' with
    | here hv' => rw [hv] at hv'; cases hv'
    | dangling _ _ => rfl
    | follow hp _ =>
      obtain ⟨ref, hv', ht⟩ := hp
      obtain rfl := Option.some.inj (hv.symm.trans hv')
      rw [hd] at ht
      cases ht
  | follow hp _ ih => exact ih ((settles_of_pointsTo_iff hp).1 h')

/-- A value that settles is on no cycle of references. -/
theorem Settles.not_transGen (h : Settles root v l) : ¬ TransGen (PointsTo root) v v := by
  induction h with
  | here hv =>
    intro hc
    obtain ⟨t, hp, -⟩ := Relation.TransGen.head'_iff.1 hc
    exact hp.ref?_ne_none hv
  | dangling hv hd =>
    intro hc
    obtain ⟨t, ⟨ref, hv', ht⟩, -⟩ := Relation.TransGen.head'_iff.1 hc
    obtain rfl := Option.some.inj (hv.symm.trans hv')
    rw [hd] at ht
    cases ht
  | follow hp _ ih =>
    intro hc
    obtain ⟨t, hp', hback⟩ := Relation.TransGen.head'_iff.1 hc
    exact ih (hp.unique hp' ▸ TransGen.tail' hback hp')

/-- What `settleFrom` gives, a loop apart, is where the value settles. -/
theorem settles_of_settleFrom {unused : List String} (h : settleFrom root unused v = l)
    (hl : l ≠ .loop) : Settles root v l := by
  induction unused, v using settleFrom.induct root generalizing l with
  | case1 unused v hv =>
    rw [settleFrom, hv] at h
    exact h ▸ .here hv
  | case2 unused v ref hv hmem fault ht =>
    rw [settleFrom, hv] at h
    simp only [hmem, ht, ↓reduceDIte] at h
    exact h ▸ .dangling hv ht
  | case3 unused v ref hv hmem target ht _ ih =>
    rw [settleFrom, hv] at h
    simp only [hmem, ht, ↓reduceDIte] at h
    exact .follow ⟨ref, hv, ht⟩ (ih h hl)
  | case4 unused v ref hv hmem =>
    rw [settleFrom, hv] at h
    simp only [hmem, ↓reduceDIte] at h
    exact absurd h.symm hl

/-- A loop that `settleFrom` finds is one: references lead from the value to a cycle.  Every
pointer that is used up was followed before, so it led here. -/
theorem exists_cycle_of_settleFrom {unused : List String}
    (h : settleFrom root unused v = .loop)
    (hused : ∀ ref ∈ v.refs ++ root.refs, ref ∉ unused →
      ∃ t, Pointer.lookup root ref = .ok t ∧ ReflTransGen (PointsTo root) t v) :
    ∃ c, ReflTransGen (PointsTo root) v c ∧ TransGen (PointsTo root) c c := by
  induction unused, v using settleFrom.induct root with
  | case1 unused v hv =>
    rw [settleFrom, hv] at h
    cases h
  | case2 unused v ref hv hmem fault ht =>
    rw [settleFrom, hv] at h
    simp only [hmem, ht, ↓reduceDIte] at h
    cases h
  | case3 unused v ref hv hmem target ht _ ih =>
    rw [settleFrom, hv] at h
    simp only [hmem, ht, ↓reduceDIte] at h
    have hstep : PointsTo root v target := ⟨ref, hv, ht⟩
    obtain ⟨c, htc, hcc⟩ := ih h fun r hr hr' => by
      by_cases hrr : r = ref
      · exact ⟨target, hrr ▸ ht, .refl⟩
      · have hroot : r ∈ root.refs :=
          (List.mem_append.1 hr).elim (fun hr => Pointer.refs_lookup_subset ht hr) id
        obtain ⟨t, hrt, htv⟩ := hused r (List.mem_append_right _ hroot)
          fun hmem => hr' (mem_without.2 ⟨hmem, hrr⟩)
        exact ⟨t, hrt, htv.tail hstep⟩
    exact ⟨c, htc.head hstep, hcc⟩
  | case4 unused v ref hv hmem =>
    obtain ⟨t, ht, htv⟩ :=
      hused ref (List.mem_append_left _ (mem_refs_of_ref? hv)) hmem
    exact ⟨v, .refl, TransGen.head' ⟨ref, hv, ht⟩ htv⟩

/-- References that settle lead to values that settle. -/
theorem Settles.of_reflTransGen (h : Settles root v l) (hvt : ReflTransGen (PointsTo root) v t) :
    Settles root t l := by
  induction hvt with
  | refl => exact h
  | tail _ hp ih => exact (settles_of_pointsTo_iff hp).1 ih

/-- The loops that `settle` finds are the cycles of references that a value leads to. -/
theorem settle_eq_loop_iff : settle root v = .loop ↔
    ∃ c, ReflTransGen (PointsTo root) v c ∧ TransGen (PointsTo root) c c := by
  constructor
  · intro h
    exact exists_cycle_of_settleFrom h fun ref hr hr' => absurd hr hr'
  · rintro ⟨c, hvc, hcc⟩
    by_contra hloop
    have hv : Settles root v (settle root v) := settles_of_settleFrom rfl hloop
    exact (hv.of_reflTransGen hvc).not_transGen hcc

/-- `settle` decides where a value settles. -/
theorem settle_eq_iff (hl : l ≠ .loop) : settle root v = l ↔ Settles root v l := by
  refine ⟨fun h => settles_of_settleFrom h hl, fun h => ?_⟩
  by_cases hloop : settle root v = .loop
  · obtain ⟨c, hvc, hcc⟩ := settle_eq_loop_iff.1 hloop
    exact absurd hcc (h.of_reflTransGen hvc).not_transGen
  · exact (settles_of_settleFrom rfl hloop).unique h

/-- A reference settles where its target does, be it in a loop. -/
theorem settle_eq_of_pointsTo (h : PointsTo root v t) : settle root v = settle root t := by
  by_cases ht : settle root t = .loop
  · by_contra hne
    have hv : settle root v ≠ .loop := fun hv => hne (hv.trans ht.symm)
    have hsettles := (settles_of_pointsTo_iff h).1 ((settle_eq_iff hv).1 rfl)
    exact hv ((settle_eq_iff hv).2 hsettles ▸ ht)
  · exact (settle_eq_iff ht).2 (.follow h ((settle_eq_iff ht).1 rfl))

/-- Values that references lead to settle where the first one does. -/
theorem settle_eq_of_reflTransGen (h : ReflTransGen (PointsTo root) v t) :
    settle root v = settle root t := by
  induction h with
  | refl => rfl
  | tail _ hp ih => exact ih.trans (settle_eq_of_pointsTo hp)

/-- A value that is no reference stays where it is. -/
theorem settle_eq_on (hv : ref? v = none) : settle root v = .on v :=
  (settle_eq_iff Landing.noConfusion).2 (.here hv)

/-! ### Walks -/

/-- A step of a walk: to the field under a key or to the item at a position. -/
inductive Step where
  | key (k : Scalar)
  | position (n : Nat)
deriving DecidableEq

/-- The part of a value that a step leads to. -/
def part? (v : Value) (step : Step) : Option Value :=
  match v, step with
  | .mapping fields, .key k => (fields.find? fun f => f.1.same k).map Prod.snd
  | .list items, .position n => items[n]?
  | _, _ => none

/-- What a walk comes to. -/
inductive Outcome where
  | atom (v : Value)
  | keys (ks : List Scalar)
  | length (n : Nat)
  | failure
  | loop

/-- A field under a text key is a part. -/
theorem get?_eq_part? (v : Value) (key : String) : v.get? key = part? v (.key (.text key)) := by
  cases v <;> rfl

/-- What can be seen of a value without a further step. -/
def sight : Value → Outcome
  | .mapping fields => .keys (fields.map Prod.fst)
  | .list items => .length items.length
  | v => .atom v

/-- Go on from a landing on a value. -/
def Landing.goOn (l : Landing) (f : Value → Outcome) : Outcome :=
  match l with
  | on v => f v
  | failure => .failure
  | loop => .loop

/-- The outcome of a walk from a value, which jumps into `root` wherever it stands on a
reference. -/
def walk (root : Value) : Value → List Step → Outcome
  | v, [] => (settle root v).goOn sight
  | v, step :: steps => (settle root v).goOn fun u =>
    match part? u step with
    | some next => walk root next steps
    | none => .failure

/-- The values on which a walk settles on its way. -/
def visited (root : Value) : Value → List Step → List Value
  | v, [] =>
    match settle root v with
    | .on u => [u]
    | _ => []
  | v, step :: steps =>
    match settle root v with
    | .on u =>
      u :: match part? u step with
        | some next => visited root next steps
        | none => []
    | _ => []

/-- The text that makes a mapping a late reference: its `$ref` is no text, but leads to that one. -/
def lateRef? (root v : Value) : Option String :=
  match ref? v, v.get? "$ref" with
  | none, some target =>
    match settle root target with
    | .on u => u.text?
    | _ => none
  | _, _ => none

/-- A walk depends only on where its start settles. -/
theorem walk_congr (h : settle root v = settle root w) (steps : List Step) :
    walk root v steps = walk root w steps := by
  cases steps with
  | nil => rw [walk, walk, h]
  | cons step steps => rw [walk, walk, h]

/-! ### Resolving keeps the outcomes -/

variable {active : List String}

/-- Expansions follow references. -/
theorem Expands.reflTransGen {active' : List String} (h : Expands root active v active' t) :
    ReflTransGen (PointsTo root) v t := by
  induction h with
  | refl => exact .refl
  | head hv _ ht _ ih => exact ih.head ⟨_, hv, ht⟩

/-- The fields that a key names before and after resolving. -/
theorem find?_resolvesFields {fields fields' : List (Scalar × Value)}
    (h : List.Forall₂ (ResolvesField root active) fields fields') (p : Scalar → Bool) :
    Option.Rel (Resolves root active) ((fields.find? fun f => p f.1).map Prod.snd)
      ((fields'.find? fun f => p f.1).map Prod.snd) := by
  induction h with
  | nil => exact .none
  | @cons f g fs gs hfg _ ih =>
    rw [List.find?_cons, List.find?_cons, ← hfg.1]
    cases p f.1 with
    | true => exact .some hfg.2
    | false => exact ih

/-- The items at a position before and after resolving. -/
theorem getElem?_resolvesItems {items items' : List Value}
    (h : List.Forall₂ (Resolves root active) items items') (n : Nat) :
    Option.Rel (Resolves root active) items[n]? items'[n]? := by
  induction h generalizing n with
  | nil => exact .none
  | cons hvw _ ih =>
    cases n with
    | zero => exact .some hvw
    | succ n => exact ih n

/-- The keys of a mapping stay. -/
theorem map_fst_resolvesFields {fields fields' : List (Scalar × Value)}
    (h : List.Forall₂ (ResolvesField root active) fields fields') :
    fields'.map Prod.fst = fields.map Prod.fst := by
  induction h with
  | nil => rfl
  | cons hfg _ ih => rw [List.map_cons, List.map_cons, hfg.1, ih]

/-- A step leads to a part and to what resolving makes of it, or nowhere in both values. -/
theorem Resolves.part?_rel (h : Resolves root active v w) (hv : ref? v = none) (step : Step) :
    Option.Rel (Resolves root active) (part? v step) (part? w step) := by
  obtain ⟨items, items', rfl, rfl, hitems⟩ | ⟨fields, fields', rfl, rfl, hfields⟩ | ⟨ha, rfl⟩ :=
    h.shape hv
  · cases step with
    | key k => exact .none
    | position n => exact getElem?_resolvesItems hitems n
  · cases step with
    | key k => exact find?_resolvesFields hfields fun key => key.same k
    | position n => exact .none
  · cases w with
    | list items => exact ha.elim
    | mapping fields => exact ha.elim
    | _ => exact .none

/-- A value that is no reference looks the same after resolving. -/
theorem Resolves.sight_eq (h : Resolves root active v w) (hv : ref? v = none) :
    sight w = sight v := by
  obtain ⟨items, items', rfl, rfl, hitems⟩ | ⟨fields, fields', rfl, rfl, hfields⟩ | ⟨ha, rfl⟩ :=
    h.shape hv
  · exact congrArg Outcome.length hitems.length_eq.symm
  · exact congrArg Outcome.keys (map_fst_resolvesFields hfields)
  · rfl

/-- What resolves to a text leads to it by references. -/
theorem Resolves.settle_text {s : String} (h : Resolves root active v (.text s)) :
    settle root v = .on (.text s) := by
  obtain ⟨active', u, hvu, ⟨ref, -, hu, rfl⟩ | ⟨hu, hres⟩⟩ := h.exists_expands
  · cases hu
  · rw [settle_eq_of_reflTransGen hvu.reflTransGen, settle_eq_on hu]
    obtain ⟨_, _, rfl, hw, -⟩ | ⟨_, _, rfl, hw, -⟩ | ⟨-, hw⟩ := hres.shape hu
    · cases hw
    · cases hw
    · rw [hw]

/-- A mapping that is no reference and looks like one after resolving is a late reference. -/
theorem Resolves.lateRef?_eq_some {ref : String} (h : Resolves root active v w)
    (hv : ref? v = none) (hw : ref? w = some ref) : lateRef? root v = some ref := by
  obtain ⟨y, hy, hyref⟩ := Option.bind_eq_some_iff.1 hw
  have hrel := h.part?_rel hv (.key (.text "$ref"))
  rw [← get?_eq_part?, ← get?_eq_part?, hy] at hrel
  cases hx : v.get? "$ref" with
  | none => rw [hx] at hrel; cases hrel
  | some x =>
    rw [hx] at hrel
    cases hrel with
    | some hxy =>
      obtain rfl : y = .text ref := by
        cases y with
        | scalar s => cases s <;> simp_all [Value.text?]
        | _ => cases hyref
      rw [lateRef?, hv, hx]
      simp only [hxy.settle_text]
      exact hyref

/-- The first value on which a walk settles is visited. -/
theorem mem_visited_of_settle {u : Value} (h : settle root v = .on u) (steps : List Step) :
    u ∈ visited root v steps := by
  cases steps with
  | nil => simp [visited, h]
  | cons step steps => simp [visited, h]

/-- Unless a value settles on a late reference, what resolving makes of it settles in the same
landing, or each of the two settles on a value that is no reference and one is what resolving makes
of the other. -/
theorem Resolves.settle_cases (h : Resolves root active v w)
    (hlate : ∀ u, settle root v = .on u → lateRef? root u = none) :
    settle root w = settle root v ∨
      ∃ u active', settle root v = .on u ∧ settle root w = .on w ∧ ref? u = none ∧
        Resolves root active' u w := by
  obtain ⟨active', u, hvu, ⟨_, -, -, rfl⟩ | ⟨hu, hres⟩⟩ := h.exists_expands
  · exact .inl (settle_eq_of_reflTransGen hvu.reflTransGen).symm
  · have hv : settle root v = .on u :=
      (settle_eq_of_reflTransGen hvu.reflTransGen).trans (settle_eq_on hu)
    have hw : ref? w = none := by
      by_contra hne
      obtain ⟨ref, href⟩ := Option.ne_none_iff_exists'.1 hne
      exact absurd (hlate u hv) (by simp [hres.lateRef?_eq_some hu href])
    exact .inr ⟨u, active', hv, settle_eq_on hw, hu, hres⟩

/-- A walk through what resolving makes of a value has the outcome of the same walk through the
value, unless that one meets a late reference. -/
theorem Resolves.walk_eq (h : Resolves root active v w) (steps : List Step)
    (hlate : ∀ u ∈ visited root v steps, lateRef? root u = none) :
    walk root w steps = walk root v steps := by
  induction steps generalizing active v w with
  | nil =>
    obtain heq | ⟨u, active', hv, hw, hu, hres⟩ :=
      h.settle_cases fun u hu => hlate u (mem_visited_of_settle hu _)
    · exact walk_congr heq []
    · rw [walk, walk, hv, hw]
      exact hres.sight_eq hu
  | cons step steps ih =>
    obtain heq | ⟨u, active', hv, hw, hu, hres⟩ :=
      h.settle_cases fun u hu => hlate u (mem_visited_of_settle hu _)
    · exact walk_congr heq (step :: steps)
    · rw [walk, walk, hv, hw, Landing.goOn, Landing.goOn]
      simp only [visited, hv, List.forall_mem_cons] at hlate
      have hrel := hres.part?_rel hu step
      -- the step leads to a part of both values or of neither
      generalize part? u step = x at hrel hlate ⊢
      generalize part? w step = y at hrel ⊢
      cases hrel with
      | none => rfl
      | some hxy => exact ih hxy hlate.2

/-- Resolving a document keeps the outcome of every walk that meets no late reference. -/
theorem walk_resolve {document resolved : Value} (h : resolve document = .ok resolved)
    (steps : List Step)
    (hlate : ∀ u ∈ visited document document steps, lateRef? document u = none) :
    walk document resolved steps = walk document document steps :=
  (resolve_eq_ok_iff.1 h).walk_eq steps hlate

/-- A tree node that refers to itself, and a reference to it. -/
def recursiveDocument : Value :=
  .ofFields [
    ("node", .ofFields [("name", .text "n"), ("next", .ofFields [("$ref", .text "#/node")])]),
    ("start", .ofFields [("$ref", .text "#/node")])]

/-- The tree node unrolled once where a reference leads to it. -/
def recursiveResolved : Value :=
  .ofFields [
    ("node", .ofFields [
      ("name", .text "n"),
      ("next", .ofFields [
        ("name", .text "n"), ("next", .ofFields [("$ref", .text "#/node")])])]),
    ("start", .ofFields [
      ("name", .text "n"), ("next", .ofFields [("$ref", .text "#/node")])])]

theorem resolve_recursiveDocument : resolve recursiveDocument = .ok recursiveResolved := by
  have hleft : Resolves recursiveDocument ["#/node"] (.ofFields [("$ref", .text "#/node")])
      (.ofFields [("$ref", .text "#/node")]) :=
    (resolves_reference_iff rfl).2 ⟨by decide, .inl ⟨by decide, rfl⟩⟩
  have hnode (active : List String) (next : Value)
      (h : Resolves recursiveDocument active (.ofFields [("$ref", .text "#/node")]) next) :
      Resolves recursiveDocument active
        (.ofFields [("name", .text "n"), ("next", .ofFields [("$ref", .text "#/node")])])
        (.ofFields [("name", .text "n"), ("next", next)]) :=
    (resolves_mapping_iff rfl).2 ⟨by decide, _, rfl,
      .cons ⟨rfl, resolves_scalar⟩ (.cons ⟨rfl, h⟩ .nil)⟩
  have hstart : Resolves recursiveDocument [] (.ofFields [("$ref", .text "#/node")])
      (.ofFields [("name", .text "n"), ("next", .ofFields [("$ref", .text "#/node")])]) :=
    (resolves_reference_iff rfl).2
      ⟨by decide, .inr ⟨by decide, _, rfl, hnode ["#/node"] _ hleft⟩⟩
  exact resolve_eq_ok_iff.2 ((resolves_mapping_iff rfl).2 ⟨by decide, _, rfl,
    .cons ⟨rfl, hnode [] _ hstart⟩ (.cons ⟨rfl, hstart⟩ .nil)⟩)

/-- The steps that walk down the tree node three times from its start. -/
def recursiveSteps : List Step := [.key (.text "start"), .key (.text "next"),
  .key (.text "next"), .key (.text "next"), .key (.text "name")]

/-- A walk that goes on behind the reference left over comes to the name of the node. -/
theorem walk_resolve_recursiveDocument :
    resolve recursiveDocument = .ok recursiveResolved ∧
      (∀ u ∈ visited recursiveDocument recursiveDocument recursiveSteps,
        lateRef? recursiveDocument u = none) ∧
      walk recursiveDocument recursiveResolved recursiveSteps =
        walk recursiveDocument recursiveDocument recursiveSteps ∧
      walk recursiveDocument recursiveDocument recursiveSteps = .atom (.text "n") := by
  have hall : (visited recursiveDocument recursiveDocument recursiveSteps).all
      (fun u => (lateRef? recursiveDocument u).isNone) = true := by decide +kernel
  have hlate : ∀ u ∈ visited recursiveDocument recursiveDocument recursiveSteps,
      lateRef? recursiveDocument u = none :=
    fun u hu => Option.isNone_iff_eq_none.1 (List.all_eq_true.1 hall u hu)
  have hwalk := walk_resolve resolve_recursiveDocument recursiveSteps hlate
  exact ⟨resolve_recursiveDocument, hlate, hwalk, by with_unfolding_all rfl⟩

/-- A mapping whose `$ref` is a reference to a text. -/
def lateDocument : Value :=
  .ofFields [
    ("a", .ofFields [("$ref", .ofFields [("$ref", .text "#/t")])]),
    ("t", .text "#/u"),
    ("u", .ofFields [("x", .int 1)])]

/-- The mapping looks like a reference to another place. -/
def lateResolved : Value :=
  .ofFields [
    ("a", .ofFields [("$ref", .text "#/u")]),
    ("t", .text "#/u"),
    ("u", .ofFields [("x", .int 1)])]

theorem resolve_lateDocument : resolve lateDocument = .ok lateResolved := by
  have href : Resolves lateDocument [] (.ofFields [("$ref", .text "#/t")]) (.text "#/u") :=
    (resolves_reference_iff rfl).2 ⟨by decide, .inr ⟨by decide, _, rfl, resolves_scalar⟩⟩
  have ha : Resolves lateDocument [] (.ofFields [("$ref", .ofFields [("$ref", .text "#/t")])])
      (.ofFields [("$ref", .text "#/u")]) :=
    (resolves_mapping_iff rfl).2 ⟨by decide, _, rfl, .cons ⟨rfl, href⟩ .nil⟩
  have hu : Resolves lateDocument [] (.ofFields [("x", .int 1)]) (.ofFields [("x", .int 1)]) :=
    (resolves_mapping_iff rfl).2 ⟨by decide, _, rfl, .cons ⟨rfl, resolves_scalar⟩ .nil⟩
  exact resolve_eq_ok_iff.2 ((resolves_mapping_iff rfl).2 ⟨by decide, _, rfl,
    .cons ⟨rfl, ha⟩ (.cons ⟨rfl, resolves_scalar⟩ (.cons ⟨rfl, hu⟩ .nil))⟩)

/-- Behind a late reference the outcomes differ. -/
theorem not_forall_walk_resolve :
    ¬ ∀ (document resolved : Value) (steps : List Step), resolve document = .ok resolved →
      walk document resolved steps = walk document document steps := by
  intro h
  have heq := h lateDocument lateResolved [.key (.text "a")] resolve_lateDocument
  have hres : walk lateDocument lateResolved [.key (.text "a")] = .keys [.text "x"] := by
    with_unfolding_all rfl
  have hdoc : walk lateDocument lateDocument [.key (.text "a")] = .keys [.text "$ref"] := by
    with_unfolding_all rfl
  rw [hres, hdoc] at heq
  simp at heq

end ApiShell.Reference
