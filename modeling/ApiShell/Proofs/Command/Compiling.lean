import ApiShell.Proofs.Command.Sorting
import ApiShell.Proofs.Spec.Declared

/-!
# When an API compiles

Only texts can keep an API from being compiled: those of the choices that a help text lists, and
those of the defaults of text flags.  A list or mapping among them is shown as JSON, and not every
value can be written so.  A parameter that repeats an earlier one, or that no flag can be made of,
is left out before any of its texts are made.

`compile_returns_iff` says which endpoints make a tree: those of a description that JSON can write
always do.  It also says that a parameter of which no flag can be made changes nothing but its own
flag.
-/

namespace ApiShell.Command

open Run (AppendsOnly)
open Spec (Endpoint Parameter Location)

/-! ### Texts of choices and defaults -/

/-- The value can be shown in a default or a list of choices. -/
def HasText : Value → Prop
  | .list items => (Value.list items).IsWritable
  | .mapping fields => (Value.mapping fields).IsWritable
  | _ => True

/-- The choices that the schema of a parameter lists. -/
def choicesOf (p : Parameter) : List Value := (p.schema?.map (·.choices)).getD []

/-- The values whose texts make the default of a flag. -/
def textsOfDefault : FlagKind → Value → List Value
  | .stringList, .list items => items
  | .stringList, raw => [raw]
  | .string, raw => [raw]
  | .integer, _ => []
  | .bool, _ => []

theorem succeeds_defaultText_iff (raw : Value) : Succeeds (defaultText raw) ↔ HasText raw := by
  cases raw with
  | list items =>
    rw [defaultText, HasText, succeeds_mapError_iff, Json.Style.succeeds_write_iff]
  | mapping fields =>
    rw [defaultText, HasText, succeeds_mapError_iff, Json.Style.succeeds_write_iff]
  | scalar s => cases s <;> exact iff_of_true ⟨_, rfl⟩ trivial
  | _ => exact iff_of_true ⟨_, rfl⟩ trivial

/-- A help text is made of the texts of the choices. -/
theorem succeeds_helpFor_iff (p : Parameter) :
    Succeeds (helpFor p) ↔ ∀ choice ∈ choicesOf p, HasText choice := by
  unfold helpFor choicesOf
  dsimp only
  cases p.schema? with
  | none => exact iff_of_true (succeeds_pure _) (by simp)
  | some schema =>
    dsimp only [Option.map_some, Option.getD_some]
    split
    · next hnone =>
      rw [List.isEmpty_iff.1 hnone]
      exact iff_of_true (succeeds_pure _) (by simp)
    · rw [succeeds_bind_iff_left fun _ => succeeds_pure _, succeeds_map_iff, choicesText,
        succeeds_map_iff, succeeds_mapM_iff]
      exact forall₂_congr fun choice _ => succeeds_defaultText_iff choice

/-- The default of a flag for several texts is made of the texts of its values. -/
theorem succeeds_texts_iff (values : List Value) :
    Succeeds (match values.mapM defaultText with
      | .ok texts => pure (some (.stringList texts))
      | .error d => stop d : Run (Option FlagValue)).answer ↔ ∀ v ∈ values, HasText v := by
  have htexts : Succeeds (values.mapM defaultText) ↔ ∀ v ∈ values, HasText v :=
    succeeds_mapM_iff.trans (forall₂_congr fun v _ => succeeds_defaultText_iff v)
  rw [← htexts]
  cases values.mapM defaultText with
  | ok texts => exact iff_of_true ⟨_, rfl⟩ ⟨_, rfl⟩
  | error d => exact iff_of_false (not_succeeds_error _) (not_succeeds_error _)

/-- Numbers and truth values are read or ignored; texts have to be made. -/
theorem succeeds_declaredDefault_iff (kind : FlagKind) {raw : Value} (hraw : raw.isNull = false) :
    Succeeds (declaredDefault? kind raw).answer ↔ ∀ v ∈ textsOfDefault kind raw, HasText v := by
  unfold declaredDefault?
  rw [if_neg (by simp [hraw])]
  cases kind with
  | integer =>
    refine iff_of_true ?_ (by simp [textsOfDefault])
    dsimp only
    split
    · exact succeeds_pure _
    · split <;> exact succeeds_pure _
  | bool =>
    refine iff_of_true ?_ (by simp [textsOfDefault])
    dsimp only
    split <;> exact succeeds_pure _
  | stringList =>
    dsimp only
    cases raw with
    | list items => exact succeeds_texts_iff items
    | scalar s => exact succeeds_texts_iff [.scalar s]
    | set ms => exact succeeds_texts_iff [.set ms]
    | pair a b => exact succeeds_texts_iff [.pair a b]
    | mapping fields => exact succeeds_texts_iff [.mapping fields]
  | string =>
    have htext := succeeds_defaultText_iff raw
    dsimp only
    rw [textsOfDefault, List.forall_mem_singleton, ← htext]
    cases defaultText raw with
    | ok s => exact iff_of_true ⟨_, rfl⟩ ⟨_, rfl⟩
    | error d => exact iff_of_false (not_succeeds_error _) (not_succeeds_error _)

/-- A schema without a default declares none. -/
theorem succeeds_schemaDefault_iff (p : Parameter) :
    Succeeds (schemaDefault? (flagKindFor p) p.schema?).answer ↔
      ∀ v ∈ textsOfDefault (flagKindFor p) (rawDefault p), HasText v := by
  rw [schemaDefault?, ← rawDefault]
  cases hnull : (rawDefault p).isNull with
  | false => exact succeeds_declaredDefault_iff _ hnull
  | true =>
    have hraw : rawDefault p = .null := by
      unfold Value.isNull at hnull
      split at hnull
      · assumption
      · cases hnull
    rw [hraw]
    refine iff_of_true ⟨none, rfl⟩ ?_
    cases flagKindFor p <;> simp [textsOfDefault, HasText]

/-! ### One parameter -/

/-- No flag can be made of the parameter, which is not in the path. -/
def IsRefused (p : Parameter) : Prop := p.location ≠ .path ∧ flagRefusal? p ≠ none

/-- The texts that a parameter needs can be made: those of its choices and, for a flag, those of its
default. -/
def HasTexts (p : Parameter) : Prop :=
  (∀ choice ∈ choicesOf p, HasText choice) ∧
    (p.location = .path ∨ ∀ v ∈ textsOfDefault (flagKindFor p) (rawDefault p), HasText v)

theorem succeeds_orStop_iff {α : Type} {x : Except Defect α} :
    Succeeds (orStop x).answer ↔ Succeeds x :=
  exists_congr fun _ => answer_orStop_eq_ok_iff

theorem succeeds_argumentFor_iff (p : Parameter) (taken : List String) :
    Succeeds (argumentFor p taken).answer ↔ ∀ choice ∈ choicesOf p, HasText choice := by
  unfold argumentFor
  rw [Run.succeeds_bind_pure_iff, succeeds_orStop_iff, succeeds_helpFor_iff]

theorem succeeds_flagFor_iff (p : Parameter) (taken : List String) :
    Succeeds (flagFor p taken).answer ↔ (∀ choice ∈ choicesOf p, HasText choice) ∧
      ∀ v ∈ textsOfDefault (flagKindFor p) (rawDefault p), HasText v := by
  unfold flagFor
  rw [Run.succeeds_bind_iff_and (fun _ => (appendsOnly_schemaDefault _ _).bind fun _ => .pure _)
      fun _ => Run.succeeds_bind_pure_iff, succeeds_orStop_iff, succeeds_helpFor_iff,
    succeeds_schemaDefault_iff]

/-- Put a flag after the others, unless one of its names is taken. -/
def Sorted.putFlag (name : String) (s : Sorted) (p : Parameter) (flag : Flag) : Run Sorted :=
  match flag.optionNames.find? s.optionNames.contains with
  | some clash => do
    let location := p.location.name
    note .warning
      s!"{name}: skipping {location} parameter '{p.name}', flag --{clash} is already taken"
    return s
  | none =>
    return { s with
      identifiers := flag.identifier :: s.identifiers
      optionNames := flag.optionNames ++ s.optionNames
      flags := s.flags ++ [flag] }

theorem appendsOnly_putFlag (name : String) (s : Sorted) (p : Parameter) (flag : Flag) :
    AppendsOnly (s.putFlag name p flag) := by
  unfold Sorted.putFlag
  cases flag.optionNames.find? s.optionNames.contains with
  | some clash => exact (AppendsOnly.note .warning _).bind fun _ => .pure _
  | none => exact .pure _

/-- What becomes of a parameter that was not there before. -/
def Sorted.addNew (name : String) (s : Sorted) (p : Parameter) : Run Sorted :=
  if p.location = .path then do
    let argument ← argumentFor p s.identifiers
    return { s with
      identifiers := argument.identifier :: s.identifiers
      arguments := s.arguments ++ [argument] }
  else match flagRefusal? p with
    | some refusal => do
      let reason := refusal.message
      note .warning s!"{name}: skipping flag: {reason}"
      return s
    | none => flagFor p s.identifiers >>= s.putFlag name p

/-- A parameter that was there before is left out, and any other one counts as there from then on.
-/
theorem add_eq_ite (name : String) (s : Sorted) (p : Parameter) :
    s.add name p = if s.seen.contains (p.name, p.location) then do
        let location := p.location.name
        note .warning s!"{name}: ignoring duplicate {location} parameter '{p.name}'"
        return s
      else Sorted.addNew name { s with seen := (p.name, p.location) :: s.seen } p := rfl

/-- What becomes of a new parameter does not depend on which ones were there before. -/
theorem answer_addNew (name : String) (s : Sorted) (seen : List (String × Location))
    (p : Parameter) :
    (Sorted.addNew name { s with seen } p).answer =
      (s.addNew name p).answer.map fun t => { t with seen } := by
  unfold Sorted.addNew
  by_cases hpath : p.location = .path
  · rw [if_pos hpath, if_pos hpath, Run.answer_bind fun _ => .pure _,
      Run.answer_bind fun _ => .pure _]
    cases (argumentFor p s.identifiers).answer <;> rfl
  rw [if_neg hpath, if_neg hpath]
  cases flagRefusal? p with
  | some refusal => rfl
  | none =>
    dsimp only
    rw [Run.answer_bind (appendsOnly_putFlag name _ p),
      Run.answer_bind (appendsOnly_putFlag name _ p)]
    cases (flagFor p s.identifiers).answer with
    | error fault => rfl
    | ok flag =>
      show (Sorted.putFlag name _ p flag).answer = (Sorted.putFlag name s p flag).answer.map _
      unfold Sorted.putFlag
      cases flag.optionNames.find? s.optionNames.contains <;> rfl

theorem answer_addNew_of_isRefused {p : Parameter} (h : IsRefused p) (name : String) (s : Sorted) :
    (s.addNew name p).answer = .ok s := by
  obtain ⟨hpath, hrefusal⟩ := h
  obtain ⟨refusal, hrefusal⟩ := Option.ne_none_iff_exists'.1 hrefusal
  rw [Sorted.addNew, if_neg hpath, hrefusal]
  rfl

theorem succeeds_addNew_iff (name : String) (s : Sorted) (p : Parameter) :
    Succeeds (s.addNew name p).answer ↔ IsRefused p ∨ HasTexts p := by
  by_cases hrefused : IsRefused p
  · rw [answer_addNew_of_isRefused hrefused]
    exact iff_of_true (succeeds_pure _) (.inl hrefused)
  rw [or_iff_right hrefused, HasTexts, Sorted.addNew]
  by_cases hpath : p.location = .path
  · rw [if_pos hpath, Run.succeeds_bind_pure_iff, succeeds_argumentFor_iff]
    simp [hpath]
  · have hnone : flagRefusal? p = none := not_not.1 fun h => hrefused ⟨hpath, h⟩
    have hput : ∀ flag, Succeeds (s.putFlag name p flag).answer := by
      intro flag
      unfold Sorted.putFlag
      cases flag.optionNames.find? s.optionNames.contains <;> exact succeeds_pure _
    rw [if_neg hpath, hnone, or_iff_right hpath, ← succeeds_flagFor_iff p s.identifiers]
    dsimp only
    rw [Run.answer_bind (appendsOnly_putFlag name s p), succeeds_bind_iff_left hput]

/-- The answer of one round. -/
def Sorted.round (name : String) (s : Sorted) (p : Parameter) : Except Fault Sorted :=
  (s.add name p).answer

theorem round_eq (name : String) (s : Sorted) (p : Parameter) :
    s.round name p = if (p.name, p.location) ∈ s.seen then .ok s
      else (s.addNew name p).answer.map fun t =>
        { t with seen := (p.name, p.location) :: s.seen } := by
  rw [Sorted.round, add_eq_ite]
  by_cases hseen : (p.name, p.location) ∈ s.seen
  · rw [if_pos hseen, if_pos (List.contains_iff_mem.2 hseen)]
    rfl
  · rw [if_neg hseen, if_neg fun h => hseen (List.contains_iff_mem.1 h), answer_addNew]

theorem succeeds_round_iff {name : String} {passed : List Parameter} {s : Sorted} {p : Parameter}
    (hs : s.Keeps passed) :
    Succeeds (s.round name p) ↔ Repeats passed p ∨ IsRefused p ∨ HasTexts p := by
  rw [round_eq, ← hs.seen]
  by_cases hseen : (p.name, p.location) ∈ s.seen
  · rw [if_pos hseen]
    exact iff_of_true (succeeds_pure _) (.inl hseen)
  · rw [if_neg hseen, or_iff_right hseen, succeeds_map_iff, succeeds_addNew_iff]

/-! ### The parameters of an endpoint -/

/-- The command of an endpoint whose parameters are sorted. -/
def leafOf (e : Endpoint) (sorted : Sorted) : Leaf where
  name := commandName e
  help := helpText e
  endpoint := e
  usage := usageFor (commandName e) (sorted.arguments.map (·.name))
  arguments := sorted.arguments
  flags := sorted.flags

theorem answer_compileEndpoint (e : Endpoint) :
    (compileEndpoint e).answer =
      (e.parameters.foldlM (Sorted.round (commandName e)) {}).map (leafOf e) := by
  unfold compileEndpoint
  rw [Run.answer_bind fun _ => .pure _, Run.answer_foldlM (appendsOnly_add (commandName e))]
  rfl

/-- An endpoint makes a command when each of its parameters repeats an earlier one, makes no flag or
has its texts. -/
theorem succeeds_compileEndpoint_iff (e : Endpoint) :
    Succeeds (compileEndpoint e).answer ↔ ∀ before p after, e.parameters = before ++ p :: after →
      Repeats before p ∨ IsRefused p ∨ HasTexts p := by
  rw [answer_compileEndpoint, succeeds_map_iff]
  exact succeeds_foldlM_iff (I := fun passed s => s.Keeps passed) Sorted.Keeps.start
    (fun _ _ _ _ hs hadd => hs.round (Sorted.adds_of_add hadd))
    (fun _ _ _ hs => succeeds_round_iff hs)

/-- Whether a refused parameter was there before makes no difference but to itself. -/
theorem foldlM_round_of_isRefused {p : Parameter} (h : IsRefused p) (name : String)
    (after : List Parameter) (s : Sorted) (seen : List (String × Location))
    (hseen : ∀ key, key ∈ s.seen ↔ key = (p.name, p.location) ∨ key ∈ seen) (e : Endpoint) :
    (after.foldlM (Sorted.round name) s).map (leafOf e) =
      (after.foldlM (Sorted.round name) { s with seen }).map (leafOf e) := by
  induction after generalizing s seen with
  | nil => rfl
  | cons q after ih =>
    rw [List.foldlM_cons, List.foldlM_cons, round_eq, round_eq]
    by_cases hq : (q.name, q.location) ∈ seen
    · rw [if_pos ((hseen _).2 (.inr hq)), if_pos hq]
      exact ih s seen hseen
    rw [if_neg hq]
    by_cases hsame : (q.name, q.location) = (p.name, p.location)
    · have hrefused : IsRefused q := by
        obtain ⟨hname, hlocation⟩ := Prod.mk.inj hsame
        rw [IsRefused, flagRefusal?, hname, hlocation]
        exact h
      rw [if_pos ((hseen _).2 (.inl hsame)), answer_addNew_of_isRefused hrefused]
      refine ih s _ fun key => ?_
      rw [hseen, List.mem_cons, hsame, or_left_comm, or_self_left]
    · rw [if_neg fun hmem => ((hseen _).1 hmem).elim hsame hq,
        answer_addNew name s seen q]
      cases (s.addNew name q).answer with
      | error fault => rfl
      | ok t =>
        refine ih { t with seen := (q.name, q.location) :: s.seen } _ fun key => ?_
        rw [List.mem_cons, hseen, List.mem_cons, or_left_comm]

/-- A parameter of which no flag can be made costs nothing but its own flag. -/
theorem answer_compileEndpoint_of_isRefused {e : Endpoint} {before after : List Parameter}
    {p : Parameter} (hparameters : e.parameters = before ++ p :: after) (h : IsRefused p) :
    (compileEndpoint e).answer =
      (compileEndpoint { e with parameters := before ++ after }).answer.map
        fun l => { l with endpoint := e } := by
  have hleaf : ∀ x : Except Fault Sorted,
      (x.map (leafOf { e with parameters := before ++ after })).map
        (fun l => { l with endpoint := e }) = x.map (leafOf e) := by
    intro x
    cases x <;> rfl
  rw [answer_compileEndpoint, answer_compileEndpoint, hleaf, hparameters, List.foldlM_append,
    List.foldlM_append]
  show Except.map (leafOf e) (before.foldlM (Sorted.round (commandName e)) {} >>=
      fun s => (p :: after).foldlM (Sorted.round (commandName e)) s) =
    Except.map (leafOf e) (before.foldlM (Sorted.round (commandName e)) {} >>=
      fun s => after.foldlM (Sorted.round (commandName e)) s)
  cases before.foldlM (Sorted.round (commandName e)) {} with
  | error fault => rfl
  | ok s =>
    show Except.map (leafOf e) ((p :: after).foldlM (Sorted.round (commandName e)) s) =
      Except.map (leafOf e) (after.foldlM (Sorted.round (commandName e)) s)
    rw [List.foldlM_cons, round_eq]
    by_cases hseen : (p.name, p.location) ∈ s.seen
    · rw [if_pos hseen]
      rfl
    · rw [if_neg hseen, answer_addNew_of_isRefused h]
      exact foldlM_round_of_isRefused h (commandName e) after
        { s with seen := (p.name, p.location) :: s.seen } s.seen (fun _ => List.mem_cons) e

/-! ### The tree -/

theorem succeeds_addCommand_iff (group : String) (commands : List Leaf) (e : Endpoint) :
    Succeeds (addCommand group commands e).answer ↔ Succeeds (compileEndpoint e).answer := by
  rw [addCommand_eq_bind, Run.answer_bind (appendsOnly_putCommand group commands e)]
  refine succeeds_bind_iff_left fun c => ?_
  rw [answer_putCommand]
  exact succeeds_pure _

theorem succeeds_compileGroup_iff (tagHelp : List (String × String))
    (group : String × List Endpoint) :
    Succeeds (compileGroup tagHelp group).answer ↔
      ∀ e ∈ group.2, Succeeds (compileEndpoint e).answer := by
  unfold compileGroup
  rw [Run.succeeds_bind_pure_iff, Run.answer_foldlM (appendsOnly_addCommand group.1)]
  exact succeeds_foldlM_iff_forall fun e commands => succeeds_addCommand_iff group.1 commands e

/-- Every endpoint is in a group, and nothing else is. -/
theorem forall_groupsOf_iff {es : List Endpoint} {P : Endpoint → Prop} :
    (∀ group ∈ groupsOf es, ∀ e ∈ group.2, P e) ↔ ∀ e ∈ es, P e := by
  constructor
  · intro h e he
    have hgroup : (groupName e, members (groupName e) es) ∈ groupsOf es :=
      List.mem_map_of_mem (List.mem_eraseDups.2 (List.mem_map_of_mem he))
    exact h _ hgroup e (List.mem_filter.2 ⟨he, beq_self_eq_true _⟩)
  · intro h group hgroup e he
    obtain ⟨name, -, rfl⟩ := List.mem_map.1 hgroup
    exact h e (List.mem_filter.1 he).1

/-- An API compiles when each of its live endpoints does. -/
theorem succeeds_compile_iff (api : String) (endpoints : List Endpoint)
    (tagHelp : List (String × String)) (help : String) :
    Succeeds (compile api endpoints tagHelp help).answer ↔
      ∀ e ∈ live endpoints, Succeeds (compileEndpoint e).answer := by
  have hgroups : (groupEndpoints endpoints).answer = .ok (groupsOf (live endpoints)) := by
    rw [Run.answer, groupEndpoints_runWith, foldl_putInGroup]
  unfold compile
  rw [Run.answer_bind fun groups =>
      (AppendsOnly.mapM (appendsOnly_compileGroup tagHelp) groups).bind fun _ => .pure _, hgroups]
  show Succeeds (List.mapM (compileGroup tagHelp) (groupsOf (live endpoints)) >>= fun groups =>
    pure _).answer ↔ _
  rw [Run.succeeds_bind_pure_iff, Run.answer_mapM (appendsOnly_compileGroup tagHelp),
    succeeds_mapM_iff, ← forall_groupsOf_iff]
  exact forall₂_congr fun group _ => succeeds_compileGroup_iff tagHelp group

/-- What can be written has a text. -/
theorem hasText_of_isWritable {v : Value} (h : v.IsWritable) : HasText v := by
  cases v with
  | list items => exact h
  | mapping fields => exact h
  | _ => trivial

theorem hasTexts_of_isWritable {p : Parameter} (h : p.IsWritable) : HasTexts p := by
  rw [HasTexts, choicesOf, rawDefault]
  cases hschema : p.schema? with
  | none =>
    refine ⟨by simp, .inr ?_⟩
    cases flagKindFor p <;> simp [textsOfDefault, HasText]
  | some schema =>
    obtain ⟨hdefault, hchoices⟩ := h schema hschema
    refine ⟨fun choice hchoice => hasText_of_isWritable (hchoices choice hchoice), .inr ?_⟩
    have htexts : ∀ v ∈ textsOfDefault (flagKindFor p) schema.default, v.IsWritable := by
      unfold textsOfDefault
      split
      · next items hitems =>
        rw [hitems] at hdefault
        exact Value.areWritable_iff.1 hdefault
      · exact List.forall_mem_singleton.2 hdefault
      · exact List.forall_mem_singleton.2 hdefault
      · simp
      · simp
    exact fun v hv => hasText_of_isWritable (htexts v hv)

/-- An API compiles exactly when every parameter of a live endpoint repeats an earlier one, makes no
flag or has its texts, as is the case in a description that JSON can write.  A parameter of which no
flag can be made costs nothing but its own flag. -/
theorem compile_returns_iff (api : String) (endpoints : List Endpoint)
    (tagHelp : List (String × String)) (help : String) (log : List LogRecord) :
    ((∃ tree, ((compile api endpoints tagHelp help).runWith log).1 = .ok tree) ↔
      ∀ e ∈ live endpoints, ∀ before p after, e.parameters = before ++ p :: after →
        Repeats before p ∨ IsRefused p ∨ HasTexts p) ∧
    (∀ (document : Value) (log log' : List LogRecord), document.IsWritable →
      (Spec.extractEndpoints document).runWith log = (.ok endpoints, log') →
      ∃ tree, ((compile api endpoints tagHelp help).runWith log').1 = .ok tree) ∧
    ∀ (e : Endpoint) (before after : List Parameter) (p : Parameter),
      e.parameters = before ++ p :: after → IsRefused p →
      (compileEndpoint e).answer =
        (compileEndpoint { e with parameters := before ++ after }).answer.map
          fun l => { l with endpoint := e } := by
  have hcompiles : ∀ log,
      (∃ tree, ((compile api endpoints tagHelp help).runWith log).1 = .ok tree) ↔
      ∀ e ∈ live endpoints, ∀ before p after, e.parameters = before ++ p :: after →
        Repeats before p ∨ IsRefused p ∨ HasTexts p := by
    intro log
    rw [appendsOnly_compile]
    refine (succeeds_compile_iff api endpoints tagHelp help).trans ?_
    exact forall₂_congr fun e _ => succeeds_compileEndpoint_iff e
  refine ⟨hcompiles log, ?_, ?_⟩
  · intro document log log' hdocument hextract
    refine (hcompiles log').2 fun e he before p after hparameters => ?_
    have hmem : p ∈ e.parameters := by
      rw [hparameters]
      exact List.mem_append_right before List.mem_cons_self
    have hwritable := Spec.isWritable_of_extractEndpoints hextract hdocument e
      (List.mem_filter.1 he).1 p hmem
    exact .inr (.inr (hasTexts_of_isWritable hwritable))
  · intro e before after p hparameters hrefused
    exact answer_compileEndpoint_of_isRefused hparameters hrefused

/-- The schema of a text whose default is a list with a date. -/
def datedSchema : Spec.Schema :=
  { Spec.Schema.untyped with type := "string", default := .list [.scalar (.date ⟨2024, 1, 2⟩)] }

/-- A query parameter with such a default. -/
def datedParameter (name : String) : Parameter := ⟨name, .query, false, false, "", some datedSchema⟩

/-- An endpoint with such a parameter. -/
def datedEndpoint (name : String) : Endpoint :=
  { plainEndpoint .get "/p" [] false with
    operationId := "one"
    parameters := [datedParameter name] }

/-- A parameter whose name is no flag name does no harm, whatever its default is. -/
theorem compile_returns_iff_datedEndpoint :
    IsRefused (datedParameter "since when") ∧
      ∃ tree, ((compile "api" [datedEndpoint "since when"] [] "").runWith []).1 = .ok tree := by
  have hrefused : IsRefused (datedParameter "since when") := ⟨by decide, by decide⟩
  refine ⟨hrefused, (compile_returns_iff "api" [datedEndpoint "since when"] [] "" []).1.2 ?_⟩
  intro e he before p after hparameters
  obtain rfl := List.mem_singleton.1 (List.mem_filter.1 he).1
  have hp : p ∈ [datedParameter "since when"] := by
    rw [show [datedParameter "since when"] = before ++ p :: after from hparameters]
    exact List.mem_append_right before List.mem_cons_self
  obtain rfl := List.mem_singleton.1 hp
  exact .inr (.inl hrefused)

/-- A description of the endpoint whose dated parameter has the name `since`. -/
def datedDocument : Value :=
  .ofFields [("paths", .ofFields [("/p", .ofFields [("get", .ofFields [
    ("operationId", .text "one"),
    ("parameters", .list [.ofFields [("name", .text "since"), ("in", .text "query"),
      ("schema", .ofFields [("type", .text "string"),
        ("default", .list [.scalar (.date ⟨2024, 1, 2⟩)])])]])])])])]

/-- A default can keep a whole API from being compiled. -/
theorem not_forall_compile_returns :
    ¬ ∀ (document : Value) (endpoints : List Endpoint) (log log' : List LogRecord),
      (Spec.extractEndpoints document).runWith log = (.ok endpoints, log') →
        ∃ tree, ((compile "api" endpoints [] "").runWith log').1 = .ok tree := by
  intro h
  have hextract : ((Spec.extractEndpoints datedDocument).runWith []).1.isOk = true := by
    decide +kernel
  have hcompile : ((Spec.extractEndpoints datedDocument >>= fun endpoints =>
      compile "api" endpoints [] "").runWith []).1.isOk = false := by
    decide +kernel
  rw [Run.runWith_bind] at hcompile
  cases hrun : (Spec.extractEndpoints datedDocument).runWith [] with
  | mk result log =>
    rw [hrun] at hextract hcompile
    cases result with
    | error fault => cases hextract
    | ok endpoints =>
      obtain ⟨tree, htree⟩ := h datedDocument endpoints [] log hrun
      dsimp only at hcompile
      rw [htree] at hcompile
      cases hcompile

end ApiShell.Command
