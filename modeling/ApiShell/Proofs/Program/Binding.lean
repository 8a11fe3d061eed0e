import ApiShell.Program.Call
import ApiShell.Proofs.Command.Signature
import ApiShell.Proofs.CommandLine.Typing
import ApiShell.Proofs.Request.Header

/-!
# Every input comes back under its own name

What a user gives to a command travels under identifiers and comes back under the names of parameters.
An assignment says what is given: a text for each argument, perhaps a value for each flag, and values of
the options that every command has.  Since the identifiers differ, each argument and each flag finds its
own value in what an assignment lays down, and the other options are as if they had been alone.  What a
command line lays down is an assignment, in which each value is of its flag's kind.
-/

namespace ApiShell.Program

open Command (Argument Flag FlagValue Leaf commonOptions compileEndpoint kennelEndpoint kennelLeaf)
open CommandLine (Bound Values)
open Request (BoundParameter)

/-- What is given to a command. -/
structure Assignment (l : Leaf) where
  arguments : List (Argument × String)
  flags : List (Flag × Option FlagValue)
  common : Values
  arguments_eq : arguments.map Prod.fst = l.arguments
  flags_eq : flags.map Prod.fst = l.flags
  common_eq : common.map Prod.fst = commonOptions.map (·.identifier)

/-- What a text for an argument lays down. -/
def boundArgument (a : Argument × String) : String × Bound :=
  (a.1.identifier, ⟨some (.string a.2), true⟩)

/-- What a value for a flag lays down.  Without one there is the default that the flag shows. -/
def boundFlag (f : Flag × Option FlagValue) : String × Bound :=
  (f.1.identifier, match f.2 with
    | some v => ⟨some v, true⟩
    | none => ⟨f.1.shownDefault?, false⟩)

/-- No value is given for the flag; an empty list is none. -/
def lacksValue (f : Flag × Option FlagValue) : Bool :=
  f.2 = none ∨ f.2 = some (.stringList [])

/-- The value that is sent for a flag: the one that is given, or else the declared default.  An empty
list is not sent. -/
def sentValue? (f : Flag × Option FlagValue) : Option FlagValue :=
  match f.2 with
  | some v => if v = .stringList [] then none else some v
  | none => if f.1.declaredDefault ∧ f.1.default ≠ .stringList [] then some f.1.default else none

/-- The texts of a value in a query: one for each member of a list. -/
def queryTexts : FlagValue → List String
  | .string s => [s]
  | .integer n => [toString n]
  | .bool b => [if b then "true" else "false"]
  | .stringList xs => xs

/-- The texts of a value that is sent are those that a query has. -/
theorem parameterTexts_parameterValue (v : FlagValue) :
    Request.parameterTexts (parameterValue v) = queryTexts v := by
  cases v with
  | string s => rfl
  | integer n => rfl
  | bool b => rfl
  | stringList xs =>
    have htexts : Request.parameterTexts (parameterValue (.stringList xs)) =
        (xs.map Value.text).map Request.parameterText := rfl
    rw [htexts, List.map_map]
    exact List.map_id xs

/-- What is found under an identifier is what stands there, but for an empty list. -/
theorem get?_eq_ite {values : Values} {identifier : String} {b : Bound}
    (h : Entries.get? values identifier = some b) :
    values.get? identifier = if b.value = some (.stringList []) then none else b.value := by
  rw [Values.get?, h, Option.bind_some]
  split
  · next hempty => rw [if_pos hempty]
  · next hvalue => rw [if_neg hvalue]

/-- A flag that need not be given shows its default, but for an empty list. -/
theorem shownDefault?_of_optional {f : Flag} (h : f.required = false) :
    f.shownDefault? = if f.default = .stringList [] then none else some f.default := by
  rw [Flag.shownDefault?, h, if_neg Bool.false_ne_true]
  split
  · next hempty => rw [if_pos hempty]
  · next hvalue => rw [if_neg hvalue]

namespace Assignment

variable {l : Leaf} (x : Assignment l)

/-- What the assignment lays down. -/
def values : Values := x.arguments.map boundArgument ++ x.flags.map boundFlag ++ x.common

/-- The first required flag without a value. -/
def firstMissing? : Option Flag :=
  (x.flags.find? fun f => f.1.required && lacksValue f).map Prod.fst

/-- The flags that are sent with their values. -/
def sent : List (Flag × FlagValue) := x.flags.filterMap fun f => (sentValue? f).map (f.1, ·)

/-- The parameters of the flags that are sent. -/
def parameters : List BoundParameter :=
  x.sent.map fun s => ⟨s.1.name, s.1.location, parameterValue s.2⟩

/-- The query of the flags that are sent. -/
def query : List (String × String) :=
  (x.sent.filter (·.1.location = .query)).flatMap fun s => (queryTexts s.2).map (s.1.name, ·)

/-! ### Identifiers -/

theorem map_fst_values :
    x.values.map Prod.fst = l.identifiers ++ commonOptions.map (·.identifier) := by
  have harguments : (x.arguments.map boundArgument).map Prod.fst =
      l.arguments.map (·.identifier) := by
    rw [← x.arguments_eq, List.map_map, List.map_map]
    rfl
  have hflags : (x.flags.map boundFlag).map Prod.fst = l.flags.map (·.identifier) := by
    rw [← x.flags_eq, List.map_map, List.map_map]
    rfl
  rw [values, List.map_append, List.map_append, harguments, hflags, x.common_eq, Leaf.identifiers]

variable (hnodup : (l.identifiers ++ commonOptions.map (·.identifier)).Nodup)
include hnodup

theorem get?_argument {a : Argument × String} (ha : a ∈ x.arguments) :
    Entries.get? x.values a.1.identifier = some ⟨some (.string a.2), true⟩ := by
  have hmem : boundArgument a ∈ x.values := by
    rw [values, List.mem_append, List.mem_append]
    exact .inl (.inl (List.mem_map_of_mem ha))
  exact Entries.get?_of_mem (x.map_fst_values ▸ hnodup) hmem

theorem get?_flag {f : Flag × Option FlagValue} (hf : f ∈ x.flags) :
    Entries.get? x.values f.1.identifier = some (boundFlag f).2 := by
  have hmem : boundFlag f ∈ x.values := by
    rw [values, List.mem_append, List.mem_append]
    exact .inl (.inr (List.mem_map_of_mem hf))
  exact Entries.get?_of_mem (x.map_fst_values ▸ hnodup) hmem

theorem get?_common {identifier : String}
    (h : identifier ∈ commonOptions.map (·.identifier)) :
    Entries.get? x.values identifier = Entries.get? x.common identifier := by
  refine Entries.get?_append_of_notMem (fun hmem => ?_) x.common
  have hown : identifier ∈ l.identifiers := by
    have hkeys := x.map_fst_values
    rw [values, List.map_append, x.common_eq] at hkeys
    exact List.append_cancel_right hkeys ▸ hmem
  exact (List.nodup_append.1 hnodup).2.2 identifier hown identifier h rfl

/-! ### Binding -/

/-- The text of an argument comes back under the name of its parameter. -/
theorem pathValues_values :
    pathValues x.values l = x.arguments.map fun a => (a.1.name, a.2) := by
  rw [pathValues, ← x.arguments_eq, List.map_map]
  refine List.map_congr_left fun a ha => ?_
  simp only [Function.comp_apply, Values.text?, Values.get?, x.get?_argument hnodup ha,
    Option.bind_some, Option.getD_some]

/-- A flag without a value that it needs ends the binding, any other one comes back with what is sent
for it. -/
theorem bindFlag_values {f : Flag × Option FlagValue} (hf : f ∈ x.flags) :
    bindFlag x.values f.1 =
      if f.1.required && lacksValue f then .error (.missingRequiredFlag f.1.name)
      else .ok ((sentValue? f).map fun v => ⟨f.1.name, f.1.location, parameterValue v⟩) := by
  have hget := x.get?_flag hnodup hf
  have hfound := get?_eq_ite hget
  obtain ⟨flag, given⟩ := f
  rw [bindFlag, Values.given?, hget, hfound]
  cases given with
  | some v =>
    by_cases hempty : v = .stringList [] <;> simp [boundFlag, lacksValue, sentValue?, hempty]
  | none =>
    cases hrequired : flag.required with
    | true => simp [boundFlag, lacksValue]
    | false =>
      by_cases hempty : flag.default = .stringList []
      · simp [boundFlag, sentValue?, shownDefault?_of_optional hrequired, hempty]
      · cases hdeclared : flag.declaredDefault <;>
          simp [boundFlag, sentValue?, shownDefault?_of_optional hrequired, hempty, hdeclared]

/-- The flags of a command come back in their order, unless one lacks the value that it needs. -/
theorem bindFlags_values : bindFlags x.values l.flags =
    match x.firstMissing? with
    | some f => .error (.missingRequiredFlag f.name)
    | none => .ok x.parameters := by
  have hrounds : l.flags.mapM (bindFlag x.values) = x.flags.mapM fun f => bindFlag x.values f.1 := by
    rw [← x.flags_eq, List.mapM_map]
    rfl
  rw [bindFlags, hrounds, mapM_eq_find? fun f hf => x.bindFlag_values hnodup hf, firstMissing?]
  cases x.flags.find? fun f => f.1.required && lacksValue f with
  | some f => rfl
  | none =>
    refine congrArg Except.ok ?_
    dsimp only
    rw [parameters, sent, List.filterMap_map, List.map_filterMap]
    refine List.filterMap_congr fun f _ => ?_
    rw [Option.map_map]
    rfl

/-- The other inputs of a request are as if nothing had been laid down for arguments and flags. -/
theorem inputsOf_values (parameters : List BoundParameter) :
    inputsOf x.values l parameters = { inputsOf x.common l parameters with
      pathValues := x.arguments.map fun a => (a.1.name, a.2) } := by
  have hget : ∀ {identifier}, identifier ∈ commonOptions.map (·.identifier) →
      x.values.get? identifier = x.common.get? identifier := by
    intro identifier h
    rw [Values.get?, Values.get?, x.get?_common hnodup h]
  have htext : ∀ {identifier}, identifier ∈ commonOptions.map (·.identifier) →
      x.values.text? identifier = x.common.text? identifier := by
    intro identifier h
    rw [Values.text?, Values.text?, hget h]
  have htexts : ∀ {identifier}, identifier ∈ commonOptions.map (·.identifier) →
      x.values.texts identifier = x.common.texts identifier := by
    intro identifier h
    rw [Values.texts, Values.texts, hget h]
  rw [inputsOf, inputsOf, x.pathValues_values hnodup, htext (by decide), htexts (by decide),
    htexts (by decide), htexts (by decide), htext (by decide), htext (by decide)]

omit hnodup in
/-- The query of the parameters that are sent is the query of the flags. -/
theorem parameterQuery_parameters : Request.parameterQuery x.parameters = x.query := by
  rw [Request.parameterQuery, parameters, query, List.filter_map, List.flatMap_map]
  refine List.flatMap_congr fun s _ => ?_
  rw [parameterTexts_parameterValue]

/-- Flags that can be bound are bound to the parameters of the assignment. -/
theorem eq_parameters_of_bindFlags {parameters : List BoundParameter}
    (h : bindFlags x.values l.flags = .ok parameters) : parameters = x.parameters := by
  rw [x.bindFlags_values hnodup] at h
  split at h
  · cases h
  · exact (Except.ok.inj h).symm

/-- The query of a request has what is sent for the flags and then the pairs that are written out. -/
theorem query_of_buildRequest {host : Host} {api : ApiConfig} {parameters : List BoundParameter}
    {d : Request.Descriptor} (hbound : bindFlags x.values l.flags = .ok parameters)
    (hbuilt : (Request.buildRequest host l.endpoint (inputsOf x.values l parameters) api).answer =
      .ok d) :
    ∃ pairs, (x.values.texts "query").mapM Request.parseQuery = .ok pairs ∧
      d.query = x.query ++ pairs := by
  obtain rfl := x.eq_parameters_of_bindFlags hnodup hbound
  obtain ⟨head, body, hhead, -, rfl⟩ := Request.of_buildRequest hbuilt
  obtain ⟨pairs, -, hpairs, -, hquery, -⟩ := Request.of_buildHead hhead
  refine ⟨pairs, hpairs, ?_⟩
  rw [← x.parameterQuery_parameters]
  exact hquery

end Assignment

/-! ### Command lines -/

/-- What is read for an argument is a text that was typed. -/
theorem of_bindArgument {typed : List (String × CommandLine.Typed)} {a : Argument} {bound : Bound}
    (h : CommandLine.Interface.bindArgument typed a.declaration = .ok bound) :
    ∃ s, bound = ⟨some (.string s), true⟩ := by
  unfold CommandLine.Interface.bindArgument at h
  split at h
  · next s _ => exact ⟨s, (Except.ok.inj h).symm⟩
  · cases h

/-- None of the options of a command is a signal. -/
theorem options_filter_signal (l : Leaf) :
    l.interface.options.filter (·.signal.isNone) =
      l.flags.map Flag.declaration ++ commonOptions := by
  have hcommon : ∀ o ∈ commonOptions, o.signal.isNone := by decide
  refine List.filter_eq_self.2 fun o ho => ?_
  rcases List.mem_append.1 ho with ho | ho
  · obtain ⟨f, -, rfl⟩ := List.mem_map.1 ho
    rfl
  · exact hcommon o ho

section Reading

variable {l : Leaf} {typed : List (String × CommandLine.Typed)} {values : Values}
  (hnodup : (l.identifiers ++ commonOptions.map (·.identifier)).Nodup)
include hnodup

/-- Only a flag that is a switch has a switch under its identifier. -/
theorem kind_eq_bool_of_switch (hreads : l.interface.Reads typed values) {f : Flag}
    (hf : f ∈ l.flags) {b : Bool} (h : Entries.get? typed f.identifier = some (.switch b)) :
    f.kind = .bool := by
  obtain ⟨o, ho, hidentifier, hkind, hoff⟩ := hreads.areTyped _ (Entries.mem_of_get? h)
  have hmem : f.identifier ∈ l.identifiers := List.mem_append_right _ (List.mem_map_of_mem hf)
  obtain ⟨hown, -, hapart⟩ := List.nodup_append.1 hnodup
  rw [CommandLine.Interface.allOptions, Leaf.interface, List.mem_append, List.mem_append] at ho
  rcases ho with (ho | ho) | ho
  · obtain ⟨g, hg, rfl⟩ := List.mem_map.1 ho
    have heq := List.inj_on_of_nodup_map (List.nodup_append.1 hown).2.1 hg hf hidentifier
    exact heq ▸ hkind
  · exact absurd hidentifier.symm (hapart _ hmem _ (List.mem_map_of_mem ho))
  · -- A switch for the help page was on, so the command line would not have been read.
    obtain rfl := List.mem_singleton.1 ho
    have hon : b = true := by
      cases b with
      | true => rfl
      | false => exact absurd rfl (hoff rfl)
    obtain ⟨bound, hbound, hvalue⟩ := hreads.signals CommandLine.helpOption
      (List.mem_append_right _ (List.mem_singleton.2 rfl)) (Option.some_ne_none _)
    rw [CommandLine.Interface.bindOption, hidentifier, h, hon] at hbound
    obtain rfl := Except.ok.inj hbound
    exact absurd rfl hvalue

/-- What is read for a flag is a value of its kind, no empty list, or else what it shows. -/
theorem of_bindOption (hreads : l.interface.Reads typed values) {f : Flag} (hf : f ∈ l.flags)
    {bound : Bound} (h : CommandLine.Interface.bindOption typed f.declaration = .ok bound) :
    ∃ given : Option FlagValue, (∀ v, given = some v → v.kind = f.kind ∧ v ≠ .stringList []) ∧
      (f.identifier, bound) = boundFlag (f, given) := by
  have hidentifier : f.declaration.identifier = f.identifier := rfl
  rw [CommandLine.Interface.bindOption, hidentifier] at h
  cases ht : Entries.get? typed f.identifier with
  | none =>
    rw [ht] at h
    obtain rfl := Except.ok.inj h
    exact ⟨none, nofun, rfl⟩
  | some t =>
    rw [ht] at h
    obtain ⟨v, hv, rfl⟩ := map_eq_ok_iff.1 h
    refine ⟨some v, fun w hw => ?_, rfl⟩
    obtain rfl := Option.some.inj hw
    refine CommandLine.OptionDecl.kind_of_read hv
      (hreads.areTyped _ (Entries.mem_of_get? ht)) fun b hb => ?_
    exact kind_eq_bool_of_switch hnodup hreads hf (hb ▸ ht)

/-- What a command line lays down is an assignment with values of the flags' kinds. -/
theorem exists_assignment_of_reads (hreads : l.interface.Reads typed values) :
    ∃ x : Assignment l, values = x.values ∧
      ∀ f ∈ x.flags, ∀ v, f.2 = some v → v.kind = f.1.kind ∧ v ≠ .stringList [] := by
  obtain ⟨arguments, options, rfl, harguments, hoptions⟩ := hreads.values
  rw [options_filter_signal] at hoptions
  obtain ⟨flags, common, rfl, hflags, hcommon⟩ := exists_append_of_forall₂ hoptions
  have htexts : List.Forall₂ (fun a v => ∃ s, True ∧ v = boundArgument (a, s)) l.arguments
      arguments := by
    refine (List.forall₂_map_left_iff.1 harguments).imp fun a v hv => ?_
    obtain ⟨b, hb, rfl⟩ := hv
    obtain ⟨s, rfl⟩ := of_bindArgument hb
    exact ⟨s, trivial, rfl⟩
  have hgiven : List.Forall₂ (fun f v => ∃ given : Option FlagValue,
      (∀ v, given = some v → v.kind = f.kind ∧ v ≠ .stringList []) ∧ v = boundFlag (f, given))
      l.flags flags := by
    have hrounds := (List.forall₂_and_left l.flags flags).2
      ⟨fun _ hf => hf, List.forall₂_map_left_iff.1 hflags⟩
    refine hrounds.imp fun f v hv => ?_
    obtain ⟨hf, b, hb, rfl⟩ := hv
    exact of_bindOption hnodup hreads hf hb
  obtain ⟨texts, harguments_eq, rfl, -⟩ := exists_map_of_forall₂ htexts
  obtain ⟨given, hflags_eq, rfl, hkinds⟩ := exists_map_of_forall₂ hgiven
  have hkeys : common.map Prod.fst = commonOptions.map (·.identifier) := by
    have heq : List.Forall₂ (· = ·) (commonOptions.map (·.identifier)) (common.map Prod.fst) := by
      rw [List.forall₂_map_left_iff, List.forall₂_map_right_iff]
      exact hcommon.imp fun o v ⟨b, _, hv⟩ => hv ▸ rfl
    rw [List.forall₂_eq_eq_eq] at heq
    exact heq.symm
  exact ⟨⟨texts, given, common, harguments_eq, hflags_eq, hkeys⟩, (List.append_assoc _ _ _).symm,
    hkinds⟩

end Reading

/-! ### Inputs come back -/

/-- The identifiers of a compiled command and of the options that every command has differ. -/
theorem nodup_identifiers {e : Spec.Endpoint} {l : Leaf} (h : (compileEndpoint e).answer = .ok l) :
    (l.identifiers ++ commonOptions.map (·.identifier)).Nodup := by
  refine (Command.identifiers_of_compileEndpoint h).1.sublist ?_
  rw [Command.reservedIdentifiers_eq]
  exact (List.Sublist.refl l.identifiers).append (List.sublist_cons_self _ _)

/-- **Inputs come back under their own names.**  Whatever is given to a compiled command, binding ends
with the first required flag without a value, or it yields the flags that are sent, in their order, with
their own values; each argument has its own text under the name of its parameter; and the query of a
request has the values that are sent in it and then the pairs that were written out, and nothing else.
Whatever is read from a command line has been given in this way, with values of the flags' kinds. -/
theorem inputs_comeBack {e : Spec.Endpoint} {l : Leaf} {log log' : List LogRecord}
    (h : (compileEndpoint e).runWith log = (.ok l, log')) :
    (∀ x : Assignment l,
      (bindFlags x.values l.flags = match x.firstMissing? with
        | some f => .error (.missingRequiredFlag f.name)
        | none => .ok x.parameters) ∧
      pathValues x.values l = x.arguments.map (fun a => (a.1.name, a.2)) ∧
      (∀ a ∈ x.arguments, Entries.get? (pathValues x.values l) a.1.name = some a.2) ∧
      ∀ host api parameters d log log', bindFlags x.values l.flags = .ok parameters →
        (Request.buildRequest host l.endpoint (inputsOf x.values l parameters) api).runWith log =
          (.ok d, log') →
        ∃ pairs, (x.common.texts "query").mapM Request.parseQuery = .ok pairs ∧
          d.query = x.query ++ pairs) ∧
    ∀ words values, l.interface.read words = .ok values → ∃ x : Assignment l, values = x.values ∧
      ∀ f ∈ x.flags, ∀ v, f.2 = some v → v.kind = f.1.kind ∧ v ≠ .stringList [] := by
  have hanswer := (Command.appendsOnly_compileEndpoint e).answer_eq h
  have hnodup := nodup_identifiers hanswer
  refine ⟨fun x => ⟨x.bindFlags_values hnodup, x.pathValues_values hnodup, fun a ha => ?_, ?_⟩, ?_⟩
  · have hnames : ((pathValues x.values l).map Prod.fst).Nodup := by
      rw [pathValues, List.map_map]
      exact Command.nodup_map_name_arguments hanswer
    refine Entries.get?_of_mem hnames ?_
    rw [x.pathValues_values hnodup]
    exact List.mem_map_of_mem ha
  · intro host api parameters d log log' hbound hbuilt
    obtain ⟨pairs, hpairs, hquery⟩ := x.query_of_buildRequest hnodup hbound
      ((Request.appendsOnly_buildRequest _ _ _ _).answer_eq hbuilt)
    have htexts : x.values.texts "query" = x.common.texts "query" :=
      congrArg Request.Inputs.queries (x.inputsOf_values hnodup parameters)
    exact ⟨pairs, htexts ▸ hpairs, hquery⟩
  · intro words values hread
    obtain ⟨typed, hreads⟩ := CommandLine.Interface.reads_of_read hread
    exact exists_assignment_of_reads hnodup hreads

/-- Words behind a command: a switch is set to false, a list is given twice, and a pair is written out
between them. -/
def kennelWords : List String :=
  ["7", "--no-open", "--no-dogs", "a", "--query", "x=1", "--no-dogs=b", "--kennel_id", "04"]

/-- What these words give to the command of the kennels. -/
def kennelAssignment : Assignment kennelLeaf where
  arguments := kennelLeaf.arguments.map fun a => (a, "7")
  flags := kennelLeaf.flags.zip
    [some (.bool false), some (.integer 4), some (.stringList ["a", "b"])]
  common := commonOptions.map fun o =>
    (o.identifier, if o.identifier = "query" then ⟨some (.stringList ["x=1"]), true⟩
      else ⟨o.default, false⟩)
  arguments_eq := rfl
  flags_eq := rfl
  common_eq := rfl

/-- What these words give comes back, each value under its own name. -/
theorem inputs_comeBack_kennel :
    kennelLeaf.interface.read kennelWords = .ok kennelAssignment.values ∧
      bindFlags kennelAssignment.values kennelLeaf.flags = .ok kennelAssignment.parameters ∧
      pathValues kennelAssignment.values kennelLeaf = [("kennelId", "7")] ∧
      (∃ d pairs, (Request.buildRequest Request.bareHost kennelEndpoint
          (inputsOf kennelAssignment.values kennelLeaf kennelAssignment.parameters)
          Request.shopApi).answer = .ok d ∧
        (kennelAssignment.common.texts "query").mapM Request.parseQuery = .ok pairs ∧
        d.query = [("open", "false"), ("kennel_id", "4"), ("no-dogs", "a"), ("no-dogs", "b")] ++
          pairs) ∧
      ∃ x : Assignment kennelLeaf, kennelAssignment.values = x.values ∧
        ∀ f ∈ x.flags, ∀ v, f.2 = some v → v.kind = f.1.kind ∧ v ≠ .stringList [] := by
  obtain ⟨hassignment, hread⟩ := inputs_comeBack Command.compileEndpoint_kennel
  obtain ⟨hbind, hpath, -, hbuild⟩ := hassignment kennelAssignment
  have hwords : kennelLeaf.interface.read kennelWords = .ok kennelAssignment.values := by
    decide +kernel
  have hmissing : kennelAssignment.firstMissing? = none := by decide +kernel
  have hquery : kennelAssignment.query =
      [("open", "false"), ("kennel_id", "4"), ("no-dogs", "a"), ("no-dogs", "b")] := by
    decide +kernel
  have hanswer : (Request.buildRequest Request.bareHost kennelEndpoint
      (inputsOf kennelAssignment.values kennelLeaf kennelAssignment.parameters)
      Request.shopApi).answer.map (·.method) = .ok .get := by decide +kernel
  rw [hmissing] at hbind
  rw [hquery] at hbuild
  obtain ⟨d, hd, -⟩ := map_eq_ok_iff.1 hanswer
  obtain ⟨pairs, hpairs, hd_query⟩ := hbuild Request.bareHost Request.shopApi _ d [] _ hbind
    (Prod.ext hd rfl)
  exact ⟨hwords, hbind, hpath, ⟨d, pairs, hd, hpairs, hd_query⟩, hread kennelWords _ hwords⟩

end ApiShell.Program
