import ApiShell.Proofs.Command.Grouping
import ApiShell.Proofs.Command.Identifier

/-!
# Every parameter has its fate

The parameters of an endpoint are sorted one after the other.  A parameter that was there before is
left out; one in the path becomes an argument; any other one becomes a flag, unless it has no usable
name or one of the names that its flag would occupy is taken.  What one round can do is said once, in
`Sorted.Adds`; what is true after all rounds follows by induction on the parameters sorted so far.
-/

namespace ApiShell.Command

open Run (AppendsOnly)
open Spec (Endpoint Parameter Location)

/-! ### Arguments and flags -/

theorem answer_orStop_eq_ok_iff {α : Type} {x : Except Defect α} {a : α} :
    (orStop x).answer = .ok a ↔ x = .ok a := by
  cases x with
  | error d => exact ⟨nofun, nofun⟩
  | ok b => exact ⟨fun h => congrArg _ (Except.ok.inj h), fun h => congrArg _ (Except.ok.inj h)⟩

/-- The default that the schema of a parameter declares, of whatever kind. -/
def rawDefault (p : Parameter) : Value := (p.schema?.map (·.default)).getD .null

/-- The names that the flag of a parameter occupies: with the negative form where the flag is a switch
that is required or on by default. -/
def claimedNames (p : Parameter) : List String :=
  if flagKindFor p = .bool ∧ (p.required ∨ defaultBool? (rawDefault p) = some true) then
    [p.name, s!"no-{p.name}"]
  else [p.name]

/-- The argument is that of the parameter. -/
structure Argument.IsOf (a : Argument) (p : Parameter) : Prop where
  name : a.name = p.name
  help : helpFor p = .ok a.help

/-- The flag is that of the parameter. -/
structure Flag.IsOf (f : Flag) (p : Parameter) : Prop where
  name : f.name = p.name
  location : f.location = p.location
  kind : f.kind = flagKindFor p
  required : f.required = p.required
  default : ∃ declared, (declaredDefault? f.kind (rawDefault p)).answer = .ok declared ∧
    f.default = declared.getD (.zero f.kind) ∧ f.declaredDefault = declared.isSome

theorem of_argumentFor {p : Parameter} {taken : List String} {a : Argument}
    (h : (argumentFor p taken).answer = .ok a) :
    a.IsOf p ∧ a.identifier = unique p.name taken := by
  unfold argumentFor at h
  rw [Run.answer_bind fun _ => .pure _] at h
  obtain ⟨help, hhelp, h⟩ := bind_eq_ok_iff.1 h
  obtain rfl := Except.ok.inj h
  exact ⟨⟨rfl, answer_orStop_eq_ok_iff.1 hhelp⟩, rfl⟩

theorem of_flagFor {p : Parameter} {taken : List String} {f : Flag}
    (h : (flagFor p taken).answer = .ok f) : f.IsOf p ∧ f.identifier = unique p.name taken := by
  unfold flagFor at h
  dsimp only at h
  rw [Run.answer_bind fun _ => (appendsOnly_schemaDefault _ _).bind fun _ => .pure _] at h
  obtain ⟨help, -, h⟩ := bind_eq_ok_iff.1 h
  rw [Run.answer_bind fun _ => .pure _] at h
  obtain ⟨declared, hdeclared, h⟩ := bind_eq_ok_iff.1 h
  obtain rfl := Except.ok.inj h
  exact ⟨⟨rfl, rfl, rfl, rfl, declared, hdeclared, rfl, rfl⟩, rfl⟩

/-- A declared default is of the kind for which it is read. -/
theorem kind_of_declaredDefault {kind : FlagKind} {raw : Value} {v : FlagValue}
    (h : (declaredDefault? kind raw).answer = .ok (some v)) : v.kind = kind := by
  unfold declaredDefault? at h
  split at h
  · cases h
  cases kind with
  | integer =>
    dsimp only at h
    split at h
    · obtain rfl := Option.some.inj (Except.ok.inj h)
      rfl
    · split at h <;> cases h
  | bool | stringList | string =>
    dsimp only at h
    split at h
    · obtain rfl := Option.some.inj (Except.ok.inj h)
      rfl
    · cases h

/-- The default of a switch is declared when it reads as a truth value. -/
theorem answer_declaredDefault_bool (raw : Value) :
    (declaredDefault? .bool raw).answer = .ok ((defaultBool? raw).map .bool) := by
  unfold declaredDefault?
  split
  · next hnull =>
    have hraw : raw = .null := by
      unfold Value.isNull at hnull
      split at hnull
      · rfl
      · cases hnull
    rw [hraw]
    rfl
  · dsimp only
    cases defaultBool? raw <;> rfl

/-- The default of a flag for numbers is declared when it reads as an integer. -/
theorem answer_declaredDefault_integer {raw : Value} (h : raw.isNull = false) :
    (declaredDefault? .integer raw).answer = .ok ((defaultInteger? raw).map .integer) := by
  unfold declaredDefault?
  rw [if_neg (Bool.eq_false_iff.1 h)]
  dsimp only
  cases defaultInteger? raw with
  | some n => rfl
  | none =>
    dsimp only
    split <;> rfl

/-- The two forms of a flag have different names. -/
theorem Flag.nodup_optionNames (f : Flag) : f.optionNames.Nodup := by
  have hforms : f.name ≠ s!"no-{f.name}" := by
    intro h
    have hlists : f.name.toList = "no-".toList ++ f.name.toList :=
      (congrArg String.toList h).trans String.toList_append
    have hlength := congrArg List.length hlists
    rw [List.length_append] at hlength
    exact absurd hlength (Nat.ne_of_lt (Nat.lt_add_of_pos_left (by decide)))
  unfold Flag.optionNames
  split
  · exact List.nodup_cons.2 ⟨fun h => hforms (List.mem_singleton.1 h), List.nodup_singleton _⟩
  · exact List.nodup_singleton _

theorem Flag.name_mem_optionNames (f : Flag) : f.name ∈ f.optionNames := by
  unfold Flag.optionNames
  split <;> exact List.mem_cons_self

/-- The default of a flag is of the flag's kind, whether it is declared or not. -/
theorem Flag.IsOf.kind_default {f : Flag} {p : Parameter} (h : f.IsOf p) :
    f.default.kind = f.kind := by
  obtain ⟨declared, hdeclared, hdefault, -⟩ := h.default
  rw [hdefault]
  cases declared with
  | none => exact FlagValue.kind_zero _
  | some v => exact kind_of_declaredDefault hdeclared

theorem Flag.IsOf.optionNames {f : Flag} {p : Parameter} (h : f.IsOf p) :
    f.optionNames = claimedNames p := by
  obtain ⟨declared, hdeclared, hdefault, -⟩ := h.default
  have hform : f.hasNegativeForm =
      decide (flagKindFor p = .bool ∧ (p.required ∨ defaultBool? (rawDefault p) = some true)) := by
    rw [Flag.hasNegativeForm, hdefault, h.kind, h.required]
    by_cases hbool : flagKindFor p = .bool
    · rw [h.kind, hbool, answer_declaredDefault_bool] at hdeclared
      obtain rfl := Except.ok.inj hdeclared
      rw [hbool]
      cases defaultBool? (rawDefault p) with
      | none => simp [FlagValue.zero]
      | some b => simp [or_comm]
    · rw [decide_eq_false fun h => hbool h.1]
      split <;> first | rfl | exact absurd ‹flagKindFor p = .bool› hbool
  rw [Flag.optionNames, hform, h.name, claimedNames]
  simp only [decide_eq_true_eq]

/-! ### Rounds -/

/-- What sorting in one more parameter does. -/
inductive Sorted.Adds (s : Sorted) (p : Parameter) : Sorted → Prop where
  /-- The parameter was there before. -/
  | repeated : (p.name, p.location) ∈ s.seen → s.Adds p s
  /-- It becomes an argument. -/
  | argument (a : Argument) : (p.name, p.location) ∉ s.seen → p.location = .path → a.IsOf p →
      a.identifier = unique p.name s.identifiers →
      s.Adds p { s with
        seen := (p.name, p.location) :: s.seen
        identifiers := a.identifier :: s.identifiers
        arguments := s.arguments ++ [a] }
  /-- It has no usable name. -/
  | refused : (p.name, p.location) ∉ s.seen → p.location ≠ .path → flagRefusal? p ≠ none →
      s.Adds p { s with seen := (p.name, p.location) :: s.seen }
  /-- One of the names of its flag is taken. -/
  | clashing (n : String) : (p.name, p.location) ∉ s.seen → p.location ≠ .path →
      flagRefusal? p = none → n ∈ claimedNames p → n ∈ s.optionNames →
      s.Adds p { s with seen := (p.name, p.location) :: s.seen }
  /-- It becomes a flag. -/
  | flag (f : Flag) : (p.name, p.location) ∉ s.seen → p.location ≠ .path →
      flagRefusal? p = none → f.IsOf p → f.identifier = unique p.name s.identifiers →
      (∀ n ∈ f.optionNames, n ∉ s.optionNames) →
      s.Adds p { s with
        seen := (p.name, p.location) :: s.seen
        identifiers := f.identifier :: s.identifiers
        optionNames := f.optionNames ++ s.optionNames
        flags := s.flags ++ [f] }

/-- What sorting in one more parameter does, with what its argument or flag is made of. -/
inductive Sorted.Takes (s : Sorted) (p : Parameter) : Sorted → Prop where
  | repeated : (p.name, p.location) ∈ s.seen → s.Takes p s
  | argument (a : Argument) : (p.name, p.location) ∉ s.seen → p.location = .path →
      (argumentFor p s.identifiers).answer = .ok a →
      s.Takes p { s with
        seen := (p.name, p.location) :: s.seen
        identifiers := a.identifier :: s.identifiers
        arguments := s.arguments ++ [a] }
  | refused : (p.name, p.location) ∉ s.seen → p.location ≠ .path → flagRefusal? p ≠ none →
      s.Takes p { s with seen := (p.name, p.location) :: s.seen }
  | clashing (f : Flag) (n : String) : (p.name, p.location) ∉ s.seen → p.location ≠ .path →
      flagRefusal? p = none → (flagFor p s.identifiers).answer = .ok f → n ∈ f.optionNames →
      n ∈ s.optionNames → s.Takes p { s with seen := (p.name, p.location) :: s.seen }
  | flag (f : Flag) : (p.name, p.location) ∉ s.seen → p.location ≠ .path →
      flagRefusal? p = none → (flagFor p s.identifiers).answer = .ok f →
      (∀ n ∈ f.optionNames, n ∉ s.optionNames) →
      s.Takes p { s with
        seen := (p.name, p.location) :: s.seen
        identifiers := f.identifier :: s.identifiers
        optionNames := f.optionNames ++ s.optionNames
        flags := s.flags ++ [f] }

theorem Sorted.takes_of_add {name : String} {s s' : Sorted} {p : Parameter}
    (h : (s.add name p).answer = .ok s') : s.Takes p s' := by
  unfold Sorted.add at h
  dsimp only at h
  by_cases hseen : (p.name, p.location) ∈ s.seen
  · rw [if_pos (List.contains_iff_mem.2 hseen)] at h
    obtain rfl := Except.ok.inj h
    exact .repeated hseen
  rw [if_neg fun hmem => hseen (List.contains_iff_mem.1 hmem)] at h
  by_cases hpath : p.location = .path
  · rw [if_pos hpath, Run.answer_bind fun _ => .pure _] at h
    obtain ⟨a, ha, h⟩ := bind_eq_ok_iff.1 h
    obtain rfl := Except.ok.inj h
    exact .argument a hseen hpath ha
  rw [if_neg hpath] at h
  cases hrefusal : flagRefusal? p with
  | some refusal =>
    rw [hrefusal] at h
    obtain rfl := Except.ok.inj h
    exact .refused hseen hpath (hrefusal ▸ Option.some_ne_none refusal)
  | none =>
    rw [hrefusal] at h
    dsimp only at h
    rw [Run.answer_bind] at h
    swap
    · intro f
      cases f.optionNames.find? s.optionNames.contains with
      | some clash => exact (AppendsOnly.note .warning _).bind fun _ => .pure _
      | none => exact .pure _
    obtain ⟨f, hf, h⟩ := bind_eq_ok_iff.1 h
    cases hclash : f.optionNames.find? s.optionNames.contains with
    | some n =>
      rw [hclash] at h
      obtain rfl := Except.ok.inj h
      exact .clashing f n hseen hpath hrefusal hf (List.mem_of_find?_eq_some hclash)
        (List.contains_iff_mem.1 (List.find?_some hclash))
    | none =>
      rw [hclash] at h
      obtain rfl := Except.ok.inj h
      refine .flag f hseen hpath hrefusal hf fun n hn hmem => ?_
      exact List.find?_eq_none.1 hclash n hn (List.contains_iff_mem.2 hmem)

/-- What is made of a parameter is an argument or a flag of it. -/
theorem Sorted.Takes.adds {s s' : Sorted} {p : Parameter} (h : s.Takes p s') : s.Adds p s' := by
  cases h with
  | repeated hseen => exact .repeated hseen
  | argument a hseen hpath ha =>
    obtain ⟨hargument, hidentifier⟩ := of_argumentFor ha
    exact .argument a hseen hpath hargument hidentifier
  | refused hseen hpath hrefusal => exact .refused hseen hpath hrefusal
  | clashing f n hseen hpath hrefusal hf hn htaken =>
    have hflag := (of_flagFor hf).1
    exact .clashing n hseen hpath hrefusal (hflag.optionNames ▸ hn) htaken
  | flag f hseen hpath hrefusal hf hfree =>
    obtain ⟨hflag, hidentifier⟩ := of_flagFor hf
    exact .flag f hseen hpath hrefusal hflag hidentifier hfree

theorem Sorted.adds_of_add {name : String} {s s' : Sorted} {p : Parameter}
    (h : (s.add name p).answer = .ok s') : s.Adds p s' :=
  (Sorted.takes_of_add h).adds

/-- What is true before the parameters are sorted and stays true in each round, whatever the round
makes of its parameter, is true of a command that is made of them. -/
theorem compileEndpoint_induction_takes {e : Endpoint} {l : Leaf}
    {I : List Parameter → Sorted → Prop} (h : (compileEndpoint e).answer = .ok l)
    (hstart : I [] {})
    (hround : ∀ passed p s s', I passed s → s.Takes p s' → I (passed ++ [p]) s') :
    ∃ s, I e.parameters s ∧ l.arguments = s.arguments ∧ l.flags = s.flags := by
  unfold compileEndpoint at h
  rw [Run.answer_bind fun _ => .pure _] at h
  obtain ⟨s, hs, hl⟩ := bind_eq_ok_iff.1 h
  obtain rfl := Except.ok.inj hl
  rw [Run.answer_foldlM (appendsOnly_add (commandName e))] at hs
  exact ⟨s, foldlM_induction hs hstart fun passed p s s' hI hadd =>
    hround passed p s s' hI (Sorted.takes_of_add hadd), rfl, rfl⟩

/-- What is true before the parameters are sorted and stays true in each round is true of a command
that is made of them. -/
theorem compileEndpoint_induction {e : Endpoint} {l : Leaf} {I : List Parameter → Sorted → Prop}
    (h : (compileEndpoint e).answer = .ok l) (hstart : I [] {})
    (hround : ∀ passed p s s', I passed s → s.Adds p s' → I (passed ++ [p]) s') :
    ∃ s, I e.parameters s ∧ l.arguments = s.arguments ∧ l.flags = s.flags :=
  compileEndpoint_induction_takes h hstart fun passed p s s' hI htakes =>
    hround passed p s s' hI htakes.adds

/-! ### What is true of the parameters sorted so far -/

/-- A parameter of the same name and place was there before. -/
def Repeats (before : List Parameter) (p : Parameter) : Prop :=
  ∃ q ∈ before, q.name = p.name ∧ q.location = p.location

/-- The parameters in the path. -/
def pathParameters (parameters : List Parameter) : List Parameter :=
  parameters.filter (·.location = .path)

/-- The parameters that are not in the path. -/
def otherParameters (parameters : List Parameter) : List Parameter :=
  parameters.filter (·.location ≠ .path)

/-- The names that the flags occupy are told apart, and a parameter is only an argument or flag the
first time it is there. -/
structure Sorted.Keeps (passed : List Parameter) (s : Sorted) : Prop where
  seen : ∀ p : Parameter, (p.name, p.location) ∈ s.seen ↔ Repeats passed p
  optionNames : ∀ n, n ∈ s.optionNames ↔ n ∈ reservedFlags ∨ ∃ f ∈ s.flags, n ∈ f.optionNames
  nodup : (s.flags.flatMap Flag.optionNames).Nodup
  notMem_reserved : ∀ f ∈ s.flags, ∀ n ∈ f.optionNames, n ∉ reservedFlags
  arguments : s.arguments.map (·.name) = ((pathParameters passed).map (·.name)).eraseDups
  flags : ∃ kept, kept.Sublist (otherParameters passed) ∧ List.Forall₂ Flag.IsOf s.flags kept

theorem repeats_concat {before : List Parameter} {q p : Parameter} :
    Repeats (before ++ [q]) p ↔ Repeats before p ∨ (q.name = p.name ∧ q.location = p.location) := by
  simp only [Repeats, List.mem_append, List.mem_singleton, or_and_right, exists_or,
    exists_eq_left]

theorem pathParameters_concat (parameters : List Parameter) (p : Parameter) :
    pathParameters (parameters ++ [p]) =
      if p.location = .path then pathParameters parameters ++ [p]
      else pathParameters parameters := by
  simp only [pathParameters, filter_concat, decide_eq_true_eq]

theorem otherParameters_concat (parameters : List Parameter) (p : Parameter) :
    otherParameters (parameters ++ [p]) =
      if p.location = .path then otherParameters parameters
      else otherParameters parameters ++ [p] := by
  simp only [otherParameters, filter_concat, decide_eq_true_eq, ne_eq, ite_not]

theorem otherParameters_sublist_concat (parameters : List Parameter) (p : Parameter) :
    (otherParameters parameters).Sublist (otherParameters (parameters ++ [p])) := by
  rw [otherParameters, otherParameters, List.filter_append]
  exact List.sublist_append_left _ _

namespace Sorted

variable {passed : List Parameter} {s s' : Sorted} {p : Parameter}

theorem Keeps.start : Keeps [] {} where
  seen _ := ⟨fun h => absurd h List.not_mem_nil, fun ⟨_, hq, _⟩ => absurd hq List.not_mem_nil⟩
  optionNames _ := ⟨.inl, fun h => h.resolve_right fun ⟨_, hf, _⟩ => absurd hf List.not_mem_nil⟩
  nodup := .nil
  notMem_reserved _ hf := absurd hf List.not_mem_nil
  arguments := rfl
  flags := ⟨[], .slnil, .nil⟩

/-- A parameter that is new counts as seen from then on. -/
theorem Keeps.mem_seen_cons (h : s.Keeps passed) (p q : Parameter) :
    (q.name, q.location) ∈ (p.name, p.location) :: s.seen ↔ Repeats (passed ++ [p]) q := by
  rw [List.mem_cons, Prod.mk.injEq, h.seen, repeats_concat, or_comm, eq_comm,
    eq_comm (a := q.location)]

/-- A parameter that is left out changes nothing else. -/
theorem Keeps.leaveOut (h : s.Keeps passed) {seen : List (String × Location)}
    (hseen : ∀ q : Parameter, (q.name, q.location) ∈ seen ↔ Repeats (passed ++ [p]) q)
    (hpath : p.location = .path → Repeats passed p) :
    Keeps (passed ++ [p]) { s with seen } where
  seen := hseen
  optionNames := h.optionNames
  nodup := h.nodup
  notMem_reserved := h.notMem_reserved
  arguments := by
    dsimp only
    rw [h.arguments, pathParameters_concat]
    split
    · next hp =>
      obtain ⟨q, hq, hname, hplace⟩ := hpath hp
      have hmem : p.name ∈ (pathParameters passed).map (·.name) := by
        rw [← hname]
        exact List.mem_map_of_mem (List.mem_filter.2 ⟨hq, by simp [hplace, hp]⟩)
      rw [List.map_append, List.map_singleton, eraseDups_concat, if_pos hmem]
    · rfl
  flags := by
    obtain ⟨kept, hkept, hflags⟩ := h.flags
    exact ⟨kept, hkept.trans (otherParameters_sublist_concat passed p), hflags⟩

/-- A parameter in the path that is new becomes the last argument. -/
theorem Keeps.addArgument (h : s.Keeps passed) (hnew : (p.name, p.location) ∉ s.seen)
    (hpath : p.location = .path) {a : Argument} (ha : a.IsOf p) (identifiers : List String) :
    Keeps (passed ++ [p]) { s with
      seen := (p.name, p.location) :: s.seen
      identifiers
      arguments := s.arguments ++ [a] } where
  seen := h.mem_seen_cons p
  optionNames := h.optionNames
  nodup := h.nodup
  notMem_reserved := h.notMem_reserved
  arguments := by
    have hfirst : p.name ∉ (pathParameters passed).map (·.name) := by
      intro hmem
      obtain ⟨q, hq, hname⟩ := List.mem_map.1 hmem
      obtain ⟨hq, hplace⟩ := List.mem_filter.1 hq
      refine hnew ((h.seen p).2 ⟨q, hq, hname, ?_⟩)
      rw [hpath]
      exact of_decide_eq_true hplace
    rw [pathParameters_concat, if_pos hpath, List.map_append, List.map_append, List.map_singleton,
      List.map_singleton, eraseDups_concat, if_neg hfirst, h.arguments, ha.name]
  flags := by
    rw [otherParameters_concat, if_pos hpath]
    exact h.flags

/-- A parameter that claims no name that is taken becomes the last flag. -/
theorem Keeps.addFlag (h : s.Keeps passed) (hplace : p.location ≠ .path) {f : Flag} (hf : f.IsOf p)
    (hfree : ∀ n ∈ f.optionNames, n ∉ s.optionNames) (identifiers : List String) :
    Keeps (passed ++ [p]) { s with
      seen := (p.name, p.location) :: s.seen
      identifiers
      optionNames := f.optionNames ++ s.optionNames
      flags := s.flags ++ [f] } where
  seen := h.mem_seen_cons p
  optionNames n := by
    have hflags : (∃ g ∈ s.flags ++ [f], n ∈ g.optionNames) ↔
        (∃ g ∈ s.flags, n ∈ g.optionNames) ∨ n ∈ f.optionNames := by
      simp only [List.mem_append, List.mem_singleton, or_and_right, exists_or, exists_eq_left]
    rw [List.mem_append, h.optionNames, hflags, or_comm, or_assoc]
  nodup := by
    rw [List.flatMap_append, List.flatMap_singleton, List.nodup_append]
    refine ⟨h.nodup, f.nodup_optionNames, fun n hn m hm => ?_⟩
    rintro rfl
    obtain ⟨g, hg, hn⟩ := List.mem_flatMap.1 hn
    exact hfree n hm ((h.optionNames n).2 (.inr ⟨g, hg, hn⟩))
  notMem_reserved := by
    intro g hg n hn
    rcases List.mem_append.1 hg with hg | hg
    · exact h.notMem_reserved g hg n hn
    · obtain rfl := List.mem_singleton.1 hg
      exact fun hmem => hfree n hn ((h.optionNames n).2 (.inl hmem))
  arguments := by
    rw [pathParameters_concat, if_neg hplace]
    exact h.arguments
  flags := by
    obtain ⟨kept, hkept, hall⟩ := h.flags
    rw [otherParameters_concat, if_neg hplace]
    exact ⟨kept ++ [p], hkept.append (List.Sublist.refl [p]), List.rel_append hall (.cons hf .nil)⟩

/-- What is kept apart stays apart in each round. -/
theorem Keeps.round (h : s.Keeps passed) (hadd : s.Adds p s') : s'.Keeps (passed ++ [p]) := by
  cases hadd with
  | repeated hseen =>
    have hrepeats := (h.seen p).1 hseen
    refine h.leaveOut (fun q => ?_) fun _ => hrepeats
    rw [h.seen, repeats_concat]
    refine ⟨.inl, fun hq => hq.elim id ?_⟩
    rintro ⟨hname, hplace⟩
    rw [Repeats, ← hname, ← hplace]
    exact hrepeats
  | refused _ hplace _ => exact h.leaveOut (h.mem_seen_cons p) fun hpath => absurd hpath hplace
  | clashing _ _ hplace _ _ _ =>
    exact h.leaveOut (h.mem_seen_cons p) fun hpath => absurd hpath hplace
  | argument a hnew hpath ha _ => exact h.addArgument hnew hpath ha _
  | flag f hnew hplace hrefusal hf _ hfree => exact h.addFlag hplace hf hfree _

end Sorted

/-! ### Fates -/

/-- What becomes of a parameter. -/
inductive Fate where
  | argument (a : Argument)
  | flag (f : Flag)
  | dropped

/-- A parameter makes nothing after others of which `flags` were made: it repeats one of them, or it is
not in the path and has no usable name or claims one that is taken. -/
def IsDropped (before : List Parameter) (flags : List Flag) (p : Parameter) : Prop :=
  Repeats before p ∨ p.location ≠ .path ∧ (flagRefusal? p ≠ none ∨
    ∃ n ∈ claimedNames p, n ∈ reservedFlags ∨ ∃ f ∈ flags, n ∈ f.optionNames)

namespace Fate

/-- The argument that a parameter becomes. -/
def argument? : Fate → Option Argument
  | argument a => some a
  | _ => none

/-- The flag that a parameter becomes. -/
def flag? : Fate → Option Flag
  | flag f => some f
  | _ => none

/-- The fate is that of a parameter after others of which `flags` were made. -/
structure IsOf (fate : Fate) (before : List Parameter) (flags : List Flag) (p : Parameter) :
    Prop where
  dropped_iff : fate = dropped ↔ IsDropped before flags p
  of_argument : ∀ a, fate = argument a → p.location = .path ∧ a.IsOf p
  of_flag : ∀ f, fate = flag f → p.location ≠ .path ∧ f.IsOf p

variable {before : List Parameter} {flags : List Flag} {p : Parameter}

theorem isOf_dropped (h : IsDropped before flags p) : dropped.IsOf before flags p where
  dropped_iff := iff_of_true rfl h
  of_argument a ha := by cases ha
  of_flag f hf := by cases hf

theorem isOf_argument {a : Argument} (h : ¬ IsDropped before flags p) (hpath : p.location = .path)
    (ha : a.IsOf p) : (argument a).IsOf before flags p where
  dropped_iff := iff_of_false (fun heq => by cases heq) h
  of_argument b hb := by
    obtain rfl := argument.inj hb
    exact ⟨hpath, ha⟩
  of_flag f hf := by cases hf

theorem isOf_flag {f : Flag} (h : ¬ IsDropped before flags p) (hplace : p.location ≠ .path)
    (hf : f.IsOf p) : (flag f).IsOf before flags p where
  dropped_iff := iff_of_false (fun heq => by cases heq) h
  of_argument a ha := by cases ha
  of_flag g hg := by
    obtain rfl := flag.inj hg
    exact ⟨hplace, hf⟩

end Fate

/-- The fates of parameters, one after the other. -/
structure AreFates (parameters : List Parameter) (fates : List Fate) : Prop where
  length_eq : fates.length = parameters.length
  isOf : ∀ i p (fate : Fate), parameters[i]? = some p → fates[i]? = some fate →
    fate.IsOf (parameters.take i) ((fates.take i).filterMap Fate.flag?) p

theorem AreFates.concat {parameters : List Parameter} {fates : List Fate} {p : Parameter}
    {fate : Fate} (h : AreFates parameters fates)
    (hfate : fate.IsOf parameters (fates.filterMap Fate.flag?) p) :
    AreFates (parameters ++ [p]) (fates ++ [fate]) where
  length_eq := by
    rw [List.length_append, List.length_append, h.length_eq]
    rfl
  isOf := by
    intro i q other hq hother
    rcases getElem?_concat_cases hq with ⟨hi, hq⟩ | ⟨hi, rfl⟩
    · have hi' : i < fates.length := h.length_eq ▸ hi
      rw [List.getElem?_append_left hi'] at hother
      rw [List.take_append_of_le_length (Nat.le_of_lt hi),
        List.take_append_of_le_length (Nat.le_of_lt hi')]
      exact h.isOf i q other hq hother
    · rw [hi, ← h.length_eq, List.getElem?_concat_length] at hother
      obtain rfl := Option.some.inj hother
      rw [hi, List.take_left' rfl, List.take_left' h.length_eq]
      exact hfate

/-- In each round a parameter meets its fate. -/
theorem Sorted.Keeps.exists_fate {passed : List Parameter} {s s' : Sorted} {p : Parameter}
    (h : s.Keeps passed) (hadd : s.Adds p s') :
    ∃ fate : Fate, fate.IsOf passed s.flags p ∧
      s'.arguments = s.arguments ++ fate.argument?.toList ∧
      s'.flags = s.flags ++ fate.flag?.toList := by
  have hnone : ∀ {α : Type} (as : List α), as = as ++ (none : Option α).toList :=
    fun as => (List.append_nil as).symm
  cases hadd with
  | repeated hseen =>
    exact ⟨.dropped, Fate.isOf_dropped (.inl ((h.seen p).1 hseen)), hnone _, hnone _⟩
  | argument a hnew hpath ha _ =>
    refine ⟨.argument a, Fate.isOf_argument (fun hp => ?_) hpath ha, rfl, hnone _⟩
    rcases hp with hrepeats | ⟨hplace, -⟩
    · exact hnew ((h.seen p).2 hrepeats)
    · exact hplace hpath
  | refused _ hplace hrefusal =>
    exact ⟨.dropped, Fate.isOf_dropped (.inr ⟨hplace, .inl hrefusal⟩), hnone _, hnone _⟩
  | clashing n _ hplace _ hn htaken =>
    have hclash := (h.optionNames n).1 htaken
    exact ⟨.dropped, Fate.isOf_dropped (.inr ⟨hplace, .inr ⟨n, hn, hclash⟩⟩), hnone _, hnone _⟩
  | flag f hnew hplace hrefusal hf _ hfree =>
    refine ⟨.flag f, Fate.isOf_flag (fun hp => ?_) hplace hf, hnone _, rfl⟩
    rcases hp with hrepeats | ⟨-, hrefused | ⟨n, hn, htaken⟩⟩
    · exact hnew ((h.seen p).2 hrepeats)
    · exact hrefused hrefusal
    · rw [← hf.optionNames] at hn
      exact hfree n hn ((h.optionNames n).2 htaken)

/-- The parameters sorted so far have their fates, and these are what was made. -/
def Sorted.HasFates (passed : List Parameter) (s : Sorted) : Prop :=
  ∃ fates, AreFates passed fates ∧ s.arguments = fates.filterMap Fate.argument? ∧
    s.flags = fates.filterMap Fate.flag?

theorem Sorted.HasFates.start : HasFates [] {} :=
  ⟨[], ⟨rfl, fun _ _ _ hp => absurd hp.symm (Option.some_ne_none _)⟩, rfl, rfl⟩

theorem Sorted.HasFates.round {passed : List Parameter} {s s' : Sorted} {p : Parameter}
    (h : s.HasFates passed) (hkeeps : s.Keeps passed) (hadd : s.Adds p s') :
    s'.HasFates (passed ++ [p]) := by
  obtain ⟨fates, hfates, harguments, hflags⟩ := h
  obtain ⟨fate, hfate, hargument, hflag⟩ := hkeeps.exists_fate hadd
  refine ⟨fates ++ [fate], hfates.concat (hflags ▸ hfate), ?_, ?_⟩
  · rw [hargument, harguments, List.filterMap_append]
    cases fate <;> rfl
  · rw [hflag, hflags, List.filterMap_append]
    cases fate <;> rfl

/-- What was sorted into a command. -/
theorem of_sorted {e : Endpoint} {l : Leaf} (h : (compileEndpoint e).answer = .ok l) :
    ∃ s : Sorted, (s.Keeps e.parameters ∧ s.HasFates e.parameters) ∧
      l.arguments = s.arguments ∧ l.flags = s.flags :=
  compileEndpoint_induction h (I := fun passed s => s.Keeps passed ∧ s.HasFates passed)
    ⟨.start, .start⟩ fun _ _ _ _ hI hadd => ⟨hI.1.round hadd, hI.2.round hI.1 hadd⟩

/-- No two arguments of a command have one name. -/
theorem nodup_map_name_arguments {e : Endpoint} {l : Leaf}
    (h : (compileEndpoint e).answer = .ok l) : (l.arguments.map (·.name)).Nodup := by
  obtain ⟨s, ⟨hkeeps, -⟩, harguments, -⟩ := of_sorted h
  rw [harguments, hkeeps.arguments]
  exact nodup_eraseDups _

/-- No two flags of a command have one name. -/
theorem nodup_map_name_flags {e : Endpoint} {l : Leaf} (h : (compileEndpoint e).answer = .ok l) :
    (l.flags.map (·.name)).Nodup := by
  obtain ⟨s, ⟨hkeeps, -⟩, -, hflags⟩ := of_sorted h
  have hapart := (List.nodup_flatMap.1 hkeeps.nodup).2
  rw [hflags]
  refine List.pairwise_map.2 (hapart.imp fun {f g} hdisjoint hname => ?_)
  exact hdisjoint f.name_mem_optionNames (hname ▸ g.name_mem_optionNames)

/-- A command keeps its flags apart from each other and from those that every command has, and it
accounts for every parameter. -/
structure Leaf.AccountsFor (l : Leaf) (parameters : List Parameter) : Prop where
  nodup_optionNames : (l.flags.flatMap Flag.optionNames).Nodup
  notMem_reservedFlags : ∀ n ∈ l.flags.flatMap Flag.optionNames, n ∉ reservedFlags
  arguments : l.arguments.map (·.name) = ((pathParameters parameters).map (·.name)).eraseDups
  flags : ∃ kept, kept.Sublist (otherParameters parameters) ∧ List.Forall₂ Flag.IsOf l.flags kept
  fates : ∃ fates, AreFates parameters fates ∧ l.arguments = fates.filterMap Fate.argument? ∧
    l.flags = fates.filterMap Fate.flag?

/-- **Every parameter is accounted for.**  The flags of a command that is compiled occupy names that
differ from each other and from the reserved ones; its arguments are the path parameters, the first of
each name; its flags are some of the other parameters in their order; and a parameter is left out only
when it repeats an earlier one, has no usable name, or claims a name that is reserved or belongs to the
flag of an earlier one. -/
theorem compileEndpoint_accountsFor {e : Endpoint} {l : Leaf} {log log' : List LogRecord}
    (h : (compileEndpoint e).runWith log = (.ok l, log')) : l.AccountsFor e.parameters := by
  obtain ⟨s, ⟨hkeeps, hfates⟩, harguments, hflags⟩ :=
    of_sorted ((appendsOnly_compileEndpoint e).answer_eq h)
  refine ⟨?_, fun n hn => ?_, ?_, ?_, ?_⟩
  · rw [hflags]
    exact hkeeps.nodup
  · rw [hflags] at hn
    obtain ⟨f, hf, hn⟩ := List.mem_flatMap.1 hn
    exact hkeeps.notMem_reserved f hf n hn
  · rw [harguments]
    exact hkeeps.arguments
  · rw [hflags]
    exact hkeeps.flags
  · rw [harguments, hflags]
    exact hfates

/-- A parameter whose schema has a type and a default. -/
def typedParameter (name : String) (location : Location) (type : String) (default : Value)
    (required : Bool) : Parameter where
  name
  location
  required
  deprecated := false
  description := ""
  schema? := some { Spec.Schema.untyped with type, default }

/-- Parameters of which seven are left out: two repeat others, two claim a name of a flag with a negative
form, one claims the name of a flag by its own negative form, one has no usable name, and one claims a
reserved name. -/
def kennelEndpoint : Endpoint :=
  { plainEndpoint .get "/kennels/{kennelId}" [] false with
    parameters := [
      typedParameter "kennelId" .path "string" .null true,
      typedParameter "open" .query "boolean" (.text "Yes") false,
      typedParameter "no-open" .query "string" .null false,
      typedParameter "kennelId" .path "integer" .null true,
      typedParameter "kennel_id" .query "integer" (.int 3) true,
      typedParameter "open" .header "string" .null false,
      typedParameter "no-dogs" .query "array" .null false,
      typedParameter "dogs" .query "boolean" .null true,
      typedParameter "open" .query "string" .null false,
      typedParameter "large dogs" .query "boolean" .null false,
      typedParameter "dry-run" .cookie "string" .null false] }

/-- The command of this endpoint. -/
def kennelLeaf : Leaf where
  name := "get-kennels-{kennelId}"
  help := "GET /kennels/{kennelId}"
  endpoint := kennelEndpoint
  usage := "get-kennels-{kennelId} [kennelId]"
  arguments := [⟨"kennelId", "kennel_id", ""⟩]
  flags := [
    ⟨"open", "open", .query, .bool, .bool true, true, false, ""⟩,
    ⟨"kennel_id", "kennel_id_2", .query, .integer, .integer 3, true, true, "[REQUIRED]"⟩,
    ⟨"no-dogs", "no_dogs", .query, .stringList, .stringList [], false, false, ""⟩]

/-- What there is in a command besides its endpoint. -/
def Leaf.parts (l : Leaf) : String × String × String × List Argument × List Flag :=
  (l.name, l.help, l.usage, l.arguments, l.flags)

/-- A command is known by its endpoint and its other parts. -/
theorem answer_compileEndpoint_of_parts {e : Endpoint} {l : Leaf} (hendpoint : l.endpoint = e)
    (hparts : (compileEndpoint e).answer.map Leaf.parts = .ok l.parts) :
    (compileEndpoint e).answer = .ok l := by
  obtain ⟨c, hc, hparts⟩ := map_eq_ok_iff.1 hparts
  rw [← (of_compileEndpoint hc).2] at hendpoint
  obtain ⟨name, help, endpoint, usage, arguments, flags⟩ := c
  simp only [Leaf.parts, Prod.mk.injEq] at hparts hendpoint
  obtain ⟨rfl, rfl, rfl, rfl, rfl⟩ := hparts
  rw [hc, ← hendpoint]

theorem compileEndpoint_kennel : (compileEndpoint kennelEndpoint).runWith [] =
    (.ok kennelLeaf, (compileEndpoint kennelEndpoint).records) := by
  have hparts : (compileEndpoint kennelEndpoint).answer.map Leaf.parts =
      .ok kennelLeaf.parts := by decide +kernel
  have hanswer : (compileEndpoint kennelEndpoint).answer = .ok kennelLeaf :=
    answer_compileEndpoint_of_parts (by rfl) hparts
  rw [Run.runWith_nil, hanswer]

/-- Of the nine other parameters of this endpoint three make flags. -/
theorem compileEndpoint_accountsFor_kennel :
    (compileEndpoint kennelEndpoint).runWith [] =
        (.ok kennelLeaf, (compileEndpoint kennelEndpoint).records) ∧
      kennelLeaf.AccountsFor kennelEndpoint.parameters :=
  ⟨compileEndpoint_kennel, compileEndpoint_accountsFor compileEndpoint_kennel⟩

end ApiShell.Command
