import ApiShell.Proofs.Pointer
import ApiShell.Proofs.Reference.Resolution
import Mathlib.Algebra.Order.Ring.Nat
import Mathlib.Data.List.Nodup

/-!
# The recursion of resolving ends

Resolving a reference goes on with its target, which may be larger than the reference and may hold
it, so no descent into parts bounds the recursion.  What bounds it is the number of references that
are not active: it falls with every jump, and between two jumps the recursion only goes down into
parts of the document.

`resolveWithin` is the bare recursion: it carries no proof that it ends, stops below a given depth,
and notes at each of its calls the chain of references that are being expanded there.  The theorem
is that a depth known beforehand is always enough for it to give what `resolve` gives, and that no
chain that it notes holds a reference twice.
-/

namespace ApiShell.Reference

open Value (ref?)

/-! ### Computations of limited depth -/

/-- Computations that note chains of references, meet faults and run out of depth. -/
abbrev Bounded := ExceptT Fault (OptionT (StateM (List (List String))))

namespace Bounded

variable {α β : Type}

/-- What a computation answers after the notes `notes`, if it does not run out of depth, and the
notes that it leaves. -/
def runWith (x : Bounded α) (notes : List (List String)) :
    Option (Except Fault α) × List (List String) :=
  StateT.run (OptionT.run (ExceptT.run x)) notes

/-- The end of the depth. -/
def outOfDepth : Bounded α := ExceptT.lift failure

/-- Note the chain of a call. -/
def noteChain (chain : List String) : Bounded Unit :=
  ExceptT.lift (OptionT.lift (modify fun notes => notes ++ [chain]))

/-- Whatever was noted before, the computation answers `r`. -/
def Gives (x : Bounded α) (r : Except Fault α) : Prop := ∀ notes, (x.runWith notes).1 = some r

/-- The computation notes only chains for which `P` holds. -/
def Notes (P : List String → Prop) (x : Bounded α) : Prop :=
  ∀ notes, (∀ chain ∈ notes, P chain) → ∀ chain ∈ (x.runWith notes).2, P chain

theorem runWith_bind (x : Bounded α) (f : α → Bounded β) (notes : List (List String)) :
    (x >>= f).runWith notes = match x.runWith notes with
      | (some (.ok a), notes') => (f a).runWith notes'
      | (some (.error e), notes') => (some (.error e), notes')
      | (none, notes') => (none, notes') := by
  simp only [runWith, ExceptT.run_bind, OptionT.run_bind, Option.elimM, StateT.run_bind]
  rcases StateT.run (OptionT.run (ExceptT.run x)) notes with ⟨_ | _ | a, notes'⟩ <;> rfl

/-- A result is given without notes. -/
theorem Gives.pure (a : α) : Gives (Pure.pure a) (.ok a) := fun _ => rfl

/-- A note changes nothing of what is given behind it. -/
theorem Gives.afterNote {x : Bounded α} {r : Except Fault α} (h : Gives x r)
    (chain : List String) : Gives (noteChain chain >>= fun _ => x) r :=
  fun notes => h (notes ++ [chain])

/-- A sequence gives the sequence of what its parts give. -/
theorem Gives.bind {x : Bounded α} {r : Except Fault α} {f : α → Bounded β}
    {g : α → Except Fault β} (hx : Gives x r) (hf : ∀ a, r = .ok a → Gives (f a) (g a)) :
    Gives (x >>= f) (r >>= g) := by
  intro notes
  have hr := hx notes
  rw [runWith_bind]
  generalize x.runWith notes = run at hr
  obtain ⟨_, notes'⟩ := run
  cases hr
  cases r with
  | error e => rfl
  | ok a => exact hf a rfl notes'

/-- A result is given without notes. -/
theorem Notes.pure {P : List String → Prop} (a : α) : Notes P (Pure.pure a) := fun _ h => h

/-- The end of the depth leaves no note. -/
theorem Notes.outOfDepth {P : List String → Prop} : Notes P (outOfDepth : Bounded α) :=
  fun _ h => h

/-- A fault or a value is given without notes. -/
theorem Notes.ofExcept {P : List String → Prop} (r : Except Fault α) :
    Notes P (MonadExcept.ofExcept r : Bounded α) := by
  cases r with
  | error e => exact fun _ h => h
  | ok a => exact fun _ h => h

/-- The chain that is noted counts. -/
theorem Notes.noteChain {P : List String → Prop} {chain : List String} (h : P chain) :
    Notes P (noteChain chain) := by
  intro notes hnotes c hc
  rcases List.mem_append.1 hc with hc | hc
  · exact hnotes c hc
  · exact List.mem_singleton.1 hc ▸ h

/-- A sequence notes what its parts note. -/
theorem Notes.bind {P : List String → Prop} {x : Bounded α} {f : α → Bounded β}
    (hx : Notes P x) (hf : ∀ a, Notes P (f a)) : Notes P (x >>= f) := by
  intro notes hnotes
  have hx := hx notes hnotes
  rw [runWith_bind]
  generalize x.runWith notes = run at hx
  obtain ⟨_ | _ | a, notes'⟩ := run
  · exact hx
  · exact hx
  · exact hf a notes' hx

/-- A loop notes what its rounds note. -/
theorem Notes.mapM_mem {P : List String → Prop} {f : α → Bounded β} {as : List α}
    (h : ∀ a ∈ as, Notes P (f a)) : Notes P (as.mapM f) := by
  induction as with
  | nil => exact Notes.pure []
  | cons a as ih =>
    rw [List.mapM_cons]
    have hrest := ih fun b hb => h b (List.mem_cons_of_mem _ hb)
    exact (h a List.mem_cons_self).bind fun b => hrest.bind fun bs => Notes.pure (b :: bs)

end Bounded

open Bounded

/-! ### The bare recursion -/

/-- Resolve the references of a node of `root`, those of `active` having led to it, in at most
`depth` nested calls. -/
def resolveWithin (root : Value) : Nat → List String → Value → Bounded Value
  | 0, _, _ => outOfDepth
  | depth + 1, active, node => do
    noteChain active
    match node with
    | .list items => return .list (← items.mapM (resolveWithin root depth active))
    | .mapping fields =>
      match ref? (.mapping fields) with
      | some ref =>
        if ref ∈ active then return .mapping fields
        let target ← MonadExcept.ofExcept (Pointer.lookup root ref)
        resolveWithin root depth (ref :: active) target
      | none =>
        return .mapping (← fields.mapM fun f => return (f.1, ← resolveWithin root depth active f.2))
    | other => return other

/-! ### A bound on the depth -/

mutual

/-- The number of lists and mappings that are nested in a value. -/
def height : Value → Nat
  | .list items => heightOfItems items + 1
  | .mapping fields => heightOfFields fields + 1
  | _ => 0

/-- The largest height of the items of a list. -/
def heightOfItems : List Value → Nat
  | [] => 0
  | v :: vs => max (height v) (heightOfItems vs)

/-- The largest height of the fields of a mapping. -/
def heightOfFields : List (Scalar × Value) → Nat
  | [] => 0
  | (_, v) :: fs => max (height v) (heightOfFields fs)

end

variable {root : Value} {active : List String}

/-- An item is lower than its list. -/
theorem height_lt_of_mem_items {items : List Value} {v : Value} (h : v ∈ items) :
    height v < height (.list items) := by
  rw [height, Nat.lt_succ_iff]
  induction items with
  | nil => cases h
  | cons w ws ih =>
    rcases List.mem_cons.1 h with rfl | h
    · exact Nat.le_max_left _ _
    · exact (ih h).trans (Nat.le_max_right _ _)

/-- The value of a field is lower than its mapping. -/
theorem height_lt_of_mem_fields {fields : List (Scalar × Value)} {f : Scalar × Value}
    (h : f ∈ fields) : height f.2 < height (.mapping fields) := by
  rw [height, Nat.lt_succ_iff]
  induction fields with
  | nil => cases h
  | cons g gs ih =>
    rcases List.mem_cons.1 h with rfl | h
    · exact Nat.le_max_left _ _
    · exact (ih h).trans (Nat.le_max_right _ _)

/-- What a pointer leads to is no higher than the document. -/
theorem height_lookup_le {target : Value} {ref : String}
    (h : Pointer.lookup root ref = .ok target) : height target ≤ height root := by
  have hparts : Pointer.PassesOn fun v => height v ≤ height root :=
    ⟨fun hle hv => (height_lt_of_mem_items hv).le.trans hle,
      fun hle hf => (height_lt_of_mem_fields hf).le.trans hle⟩
  exact hparts.lookup le_rfl h

/-- The nested calls that may be needed below a node of the height `h`. -/
def callsBelow (root : Value) (active : List String) (h : Nat) : Nat :=
  inactive root active * (height root + 1) + h

/-- A jump lowers the bound. -/
theorem callsBelow_cons_lt {ref : String} {h' : Nat} (href : ref ∈ root.refs)
    (ha : ref ∉ active) (hh : h' ≤ height root) (h : Nat) :
    callsBelow root (ref :: active) h' < callsBelow root active h := by
  have hlt := inactive_cons_lt href ha
  calc callsBelow root (ref :: active) h'
      < (inactive root (ref :: active) + 1) * (height root + 1) := by
        rw [callsBelow, Nat.add_mul, Nat.one_mul]
        omega
    _ ≤ inactive root active * (height root + 1) := Nat.mul_le_mul_right _ hlt
    _ ≤ callsBelow root active h := Nat.le_add_right _ _

/-- The items of a list give what resolving them gives, if each of them does. -/
theorem gives_mapM_items {depth : Nat} {items : List Value}
    (h : Value.refsOfItems items ⊆ root.refs)
    (hgives : ∀ v ∈ items, ∀ hv : v.refs ⊆ root.refs,
      Gives (resolveWithin root depth active v) (resolveFrom root active v hv)) :
    Gives (items.mapM (resolveWithin root depth active)) (resolveItems root active items h) := by
  induction items with
  | nil =>
    rw [resolveItems]
    exact Gives.pure []
  | cons v vs ih =>
    rw [List.mapM_cons, resolveItems]
    refine (hgives v List.mem_cons_self _).bind fun w _ => ?_
    refine (ih _ fun x hx => hgives x (List.mem_cons_of_mem _ hx)).bind fun ws _ => ?_
    exact Gives.pure (w :: ws)

/-- The fields of a mapping give what resolving them gives, if each of their values does. -/
theorem gives_mapM_fields {depth : Nat} {fields : List (Scalar × Value)}
    (h : Value.refsOfFields fields ⊆ root.refs)
    (hgives : ∀ f ∈ fields, ∀ hf : f.2.refs ⊆ root.refs,
      Gives (resolveWithin root depth active f.2) (resolveFrom root active f.2 hf)) :
    Gives (fields.mapM fun f => return (f.1, ← resolveWithin root depth active f.2))
      (resolveFields root active fields h) := by
  induction fields with
  | nil =>
    rw [resolveFields]
    exact Gives.pure []
  | cons f fs ih =>
    rw [List.mapM_cons, resolveFields, bind_assoc]
    refine (hgives f List.mem_cons_self _).bind fun w _ => ?_
    rw [pure_bind]
    refine (ih _ fun g hg => hgives g (List.mem_cons_of_mem _ hg)).bind fun gs _ => ?_
    exact Gives.pure ((f.1, w) :: gs)

/-- In enough depth the bare recursion gives what resolving gives. -/
theorem gives_resolveWithin {depth : Nat} {node : Value} (h : node.refs ⊆ root.refs)
    (hheight : height node ≤ height root)
    (hdepth : callsBelow root active (height node) < depth) :
    Gives (resolveWithin root depth active node) (resolveFrom root active node h) := by
  induction depth generalizing active node with
  | zero => omega
  | succ depth ih =>
    cases node with
    | list items =>
      rw [resolveWithin, resolveFrom]
      refine .afterNote ((gives_mapM_items h fun v hv hrefs => ?_).bind fun ws _ => .pure _) active
      have hlt := height_lt_of_mem_items hv
      exact ih hrefs (hlt.le.trans hheight) (by unfold callsBelow at *; omega)
    | mapping fields =>
      rw [resolveWithin]
      refine .afterNote ?_ active
      cases hr : ref? (.mapping fields) with
      | none =>
        rw [resolveFrom_mapping hr]
        refine (gives_mapM_fields _ fun f hf hrefs => ?_).bind fun gs _ => .pure _
        have hlt := height_lt_of_mem_fields hf
        exact ih hrefs (hlt.le.trans hheight) (by unfold callsBelow at *; omega)
      | some ref =>
        by_cases ha : ref ∈ active
        · rw [resolveFrom_of_active hr ha]
          simp only [ha, ↓reduceIte]
          exact .pure _
        · simp only [ha, ↓reduceIte]
          cases ht : Pointer.lookup root ref with
          | error fault =>
            rw [resolveFrom_of_lookup_error hr ha ht]
            exact fun _ => rfl
          | ok target =>
            rw [resolveFrom_of_lookup hr ha ht]
            have hlt := callsBelow_cons_lt (h (mem_refs_of_ref? hr)) ha (height_lookup_le ht)
              (height (.mapping fields))
            exact ih _ (height_lookup_le ht) (by omega)
    | _ =>
      rw [resolveFrom.eq_def]
      exact .afterNote (.pure _) active

/-- A chain of references of the document that holds none of them twice. -/
def IsSimple (root : Value) (chain : List String) : Prop := chain.Nodup ∧ chain ⊆ root.refs

/-- The bare recursion notes simple chains only. -/
theorem notes_resolveWithin {depth : Nat} {node : Value} (h : node.refs ⊆ root.refs)
    (hactive : IsSimple root active) :
    Notes (IsSimple root) (resolveWithin root depth active node) := by
  induction depth generalizing active node with
  | zero => exact Notes.outOfDepth
  | succ depth ih =>
    have hnote : Notes (IsSimple root) (noteChain active) := .noteChain hactive
    cases node with
    | list items =>
      rw [resolveWithin]
      refine hnote.bind fun _ => (Notes.mapM_mem fun v hv => ?_).bind fun _ => .pure _
      exact ih (fun _ hx => h (Value.refs_subset_of_mem_items hv hx)) hactive
    | mapping fields =>
      rw [resolveWithin]
      refine hnote.bind fun _ => ?_
      cases hr : ref? (.mapping fields) with
      | none =>
        refine (Notes.mapM_mem fun f hf => ?_).bind fun _ => .pure _
        rw [refs_mapping_of_ref?_eq_none hr] at h
        exact (ih (fun _ hx => h (Value.refs_subset_of_mem_fields hf hx)) hactive).bind
          fun _ => .pure _
      | some ref =>
        by_cases ha : ref ∈ active
        · simp only [ha, ↓reduceIte]
          exact .pure _
        · simp only [ha, ↓reduceIte]
          cases ht : Pointer.lookup root ref with
          | error fault => exact fun _ hnotes => hnotes
          | ok target =>
            have href : ref ∈ root.refs := h (mem_refs_of_ref? hr)
            exact ih (Pointer.refs_lookup_subset ht)
              ⟨List.nodup_cons.2 ⟨ha, hactive.1⟩, List.cons_subset.2 ⟨href, hactive.2⟩⟩
    | _ => exact hnote.bind fun _ => .pure _

/-- A number of nested calls that is enough to resolve a document: for each reference, and once
more, the height of the document and a last call. -/
def callBound (document : Value) : Nat := (document.refs.length + 1) * (height document + 1)

/-- Resolving ends: below a bound that the document sets, the bare recursion gives what resolving
gives, a result or a fault, and along its branches no reference is expanded twice. -/
theorem resolve_terminates (document : Value) (spare : Nat) :
    ∃ chains,
      (resolveWithin document (callBound document + spare) [] document).runWith [] =
        (some (resolve document), chains) ∧
      ∀ chain ∈ chains, chain.Nodup ∧ chain ⊆ document.refs := by
  have hsub : document.refs ⊆ document.refs := fun _ h => h
  have hbound : callsBelow document [] (height document) < callBound document + spare := by
    have hle : inactive document [] ≤ document.refs.length := List.length_filter_le _ _
    have hmul := Nat.mul_le_mul_right (height document + 1) hle
    rw [callBound, callsBelow, Nat.add_mul, Nat.one_mul]
    omega
  have hgives := gives_resolveWithin hsub le_rfl hbound
  have hnotes : Notes (IsSimple document)
      (resolveWithin document (callBound document + spare) [] document) :=
    notes_resolveWithin hsub ⟨List.nodup_nil, List.nil_subset _⟩
  exact ⟨_, Prod.ext (hgives []) rfl, hnotes [] fun _ h => nomatch h⟩

end ApiShell.Reference
