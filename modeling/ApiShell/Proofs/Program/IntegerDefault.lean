import ApiShell.Proofs.Command.Compiling
import ApiShell.Proofs.Decimal.Exact
import ApiShell.Proofs.Http.Query
import ApiShell.Proofs.Program.Binding
import ApiShell.Proofs.Program.Leaf

/-!
# Integer defaults

A description gives the default of an integer as a number or as a text.  A number is taken as it is.  A
text is read as a floating-point number first, so the integer comes back only if it is the value of one
(`defaultInteger?_iff`).  What a flag has as its default is what a call without the flag sends, once and
before the pairs that are written out (`integerDefault_iff`).
-/

namespace ApiShell.Command

open Spec (Parameter)

/-- The value is the integer, as a number or as a text. -/
inductive Spells (n : Int) : Value → Prop where
  | int : Spells n (.int n)
  | float {x : Float} (h : Decimal.eqInt x n = true) : Spells n (.float x)
  | text : Spells n (.text (toString n))

/-- The integer is not lost where it is written as a text. -/
def Survives (n : Int) (raw : Value) : Prop := raw = .text (toString n) → Decimal.IsExact n

/-- The parameter need not be given, belongs to the query, has a name that is taken as a flag, and its
schema is one of integers with a default. -/
structure IsIntegerOption (p : Parameter) (raw : Value) : Prop where
  location_eq : p.location = .query
  required_eq : p.required = false
  isTaken : flagRefusal? p = none
  schema : ∃ schema, p.schema? = some schema ∧ schema.type = "integer" ∧ schema.default = raw

variable {p : Parameter} {raw : Value} {n : Int}

theorem IsIntegerOption.flagKindFor_eq (h : IsIntegerOption p raw) : flagKindFor p = .integer := by
  obtain ⟨schema, hschema, htype, -⟩ := h.schema
  rw [flagKindFor, h.location_eq, hschema]
  simp only [Option.map_some, Option.getD_some, htype]
  rfl

theorem IsIntegerOption.rawDefault_eq (h : IsIntegerOption p raw) : rawDefault p = raw := by
  obtain ⟨schema, hschema, -, hdefault⟩ := h.schema
  rw [rawDefault, hschema, Option.map_some, Option.getD_some, hdefault]

theorem Spells.isNull_eq (h : Spells n raw) : raw.isNull = false := by
  cases h <;> rfl

/-- An integer is read from a number as it is, and from a text if it is exact. -/
theorem defaultInteger?_iff (h : Spells n raw) : defaultInteger? raw = some n ↔ Survives n raw := by
  cases h with
  | int => exact iff_of_true rfl nofun
  | @float x hx =>
    refine iff_of_true ?_ nofun
    unfold Decimal.eqInt at hx
    split at hx
    · next d hd =>
      have hcut : defaultInteger? (.float x) = (Decimal.dyadic? x).map Decimal.Dyadic.truncate := rfl
      rw [Bool.and_eq_true, beq_iff_eq] at hx
      rw [hcut, hd, Option.map_some, hx.2]
    · cases hx
  | text =>
    refine (Decimal.truncate_float?_toString_iff n).trans ⟨fun h _ => h, fun h => h rfl⟩

/-- The default of a flag is the declared integer if this is what is read. -/
theorem Flag.IsOf.default_eq_iff {f : Flag} (h : f.IsOf p) (hp : IsIntegerOption p raw)
    (hraw : Spells n raw) :
    f.default = .integer n ∧ f.declaredDefault = true ↔ Survives n raw := by
  obtain ⟨declared, hdeclared, hdefault, hisSome⟩ := h.default
  rw [h.kind, hp.flagKindFor_eq, hp.rawDefault_eq,
    answer_declaredDefault_integer hraw.isNull_eq] at hdeclared
  obtain rfl := Except.ok.inj hdeclared
  rw [← defaultInteger?_iff hraw, hdefault, hisSome]
  cases defaultInteger? raw <;> simp

/-- A flag is made with the declared integer as its default if the texts of the choices can be made and
the integer is what is read. -/
theorem exists_flagFor_iff (hp : IsIntegerOption p raw) (hraw : Spells n raw) (taken : List String) :
    (∃ f, (flagFor p taken).answer = .ok f ∧ f.default = .integer n ∧ f.declaredDefault = true) ↔
      (∀ choice ∈ choicesOf p, HasText choice) ∧ Survives n raw := by
  have hmade : Succeeds (flagFor p taken).answer ↔ ∀ choice ∈ choicesOf p, HasText choice := by
    rw [succeeds_flagFor_iff, hp.flagKindFor_eq]
    exact and_iff_left (by simp [textsOfDefault])
  rw [← hmade]
  constructor
  · rintro ⟨f, hf, hdefault⟩
    exact ⟨⟨f, hf⟩, ((of_flagFor hf).1.default_eq_iff hp hraw).1 hdefault⟩
  · rintro ⟨⟨f, hf⟩, hexact⟩
    exact ⟨f, hf, ((of_flagFor hf).1.default_eq_iff hp hraw).2 hexact⟩

end ApiShell.Command

namespace ApiShell.Program

open Command (Flag FlagValue Leaf compileEndpoint)
open CommandLine (Values)

/-! ### A flag without a value -/

/-- The pairs that a flag has in the query. -/
def flagPairs (f : Flag × Option FlagValue) : List (String × String) :=
  if f.1.location = .query then ((sentValue? f).toList.flatMap queryTexts).map (f.1.name, ·) else []

theorem filter_flagPairs (name : String) (f : Flag × Option FlagValue) :
    (flagPairs f).filter (·.1 == name) = if f.1.name = name then flagPairs f else [] := by
  have hkey : ∀ pair ∈ flagPairs f, pair.1 = f.1.name := by
    intro pair hpair
    unfold flagPairs at hpair
    split at hpair
    · obtain ⟨text, -, rfl⟩ := List.mem_map.1 hpair
      rfl
    · cases hpair
  split
  · next hname => exact List.filter_eq_self.2 fun pair hpair => by simp [hkey pair hpair, hname]
  · next hname => exact List.filter_eq_nil_iff.2 fun pair hpair => by simp [hkey pair hpair, hname]

/-- Of entries with different keys one has the key. -/
theorem flatMap_ite_of_nodup {α β γ : Type} [DecidableEq β] {key : α → β} {entries : List α}
    (hkeys : (entries.map key).Nodup) {a : α} (ha : a ∈ entries) (g : α → List γ) :
    (entries.flatMap fun b => if key b = key a then g b else []) = g a := by
  induction entries with
  | nil => cases ha
  | cons b entries ih =>
    rw [List.map_cons, List.nodup_cons] at hkeys
    rw [List.flatMap_cons]
    rcases List.mem_cons.1 ha with rfl | ha
    · have hrest : ∀ c ∈ entries, (if key c = key a then g c else []) = [] := by
        intro c hc
        exact if_neg fun heq : key c = key a => hkeys.1 (heq ▸ List.mem_map_of_mem hc)
      rw [if_pos rfl, List.flatMap_eq_nil_iff.2 hrest, List.append_nil]
    · have hother : key b ≠ key a := fun heq => hkeys.1 (heq ▸ List.mem_map_of_mem ha)
      rw [if_neg hother, ih hkeys.2 ha, List.nil_append]

namespace Assignment

variable {l : Leaf} (x : Assignment l)

theorem query_eq_flatMap : x.query = x.flags.flatMap flagPairs := by
  unfold query sent
  induction x.flags with
  | nil => rfl
  | cons f flags ih =>
    rw [List.flatMap_cons, ← ih, flagPairs, List.filterMap_cons]
    cases sentValue? f with
    | none => simp
    | some v => by_cases hplace : f.1.location = .query <;> simp [hplace]

/-- The pairs of a query under the name of a flag are those of the flag. -/
theorem filter_query (hnames : (l.flags.map (·.name)).Nodup) {f : Flag × Option FlagValue}
    (hf : f ∈ x.flags) : x.query.filter (·.1 == f.1.name) = flagPairs f := by
  have hkeys : (x.flags.map (·.1.name)).Nodup := by
    rw [← x.flags_eq, List.map_map] at hnames
    exact hnames
  rw [query_eq_flatMap, List.filter_flatMap]
  simp only [filter_flagPairs]
  exact flatMap_ite_of_nodup hkeys hf flagPairs

/-- A flag that does not count as given has no value. -/
theorem eq_none_of_given? (hnodup : (l.identifiers ++ Command.commonOptions.map (·.identifier)).Nodup)
    {f : Flag × Option FlagValue} (hf : f ∈ x.flags)
    (hvalue : ∀ v, f.2 = some v → v ≠ .stringList [])
    (hgiven : x.values.given? f.1.identifier = none) : f.2 = none := by
  rcases f with ⟨flag, _ | v⟩
  · rfl
  · have hget := x.get?_flag hnodup hf
    rw [Values.given?, hget, get?_eq_ite hget] at hgiven
    simp [boundFlag, hvalue v rfl] at hgiven

end Assignment

/-! ### Calls without the flag -/

/-- The call of a command is made from words that do not give the flag, but write out these pairs. -/
def Call.IsMadeWithout (call : Call) (l : Leaf) (f : Flag) (written : List (String × String)) :
    Prop :=
  ∃ host api outer words values, l.interface.read words = .ok values ∧
    values.given? f.identifier = none ∧
    (values.texts "query").mapM Request.parseQuery = .ok written ∧
    (Call.make host api l ⟨outer, values⟩).answer = .ok call

/-- Under a name there are a text and then what was written out. -/
def HasFirst (pairs written : List (String × String)) (name text : String) : Prop :=
  pairs.filter (·.1 == name) = (name, text) :: written.filter (·.1 == name)

/-- Without the flag, what stands under its name in the query is its declared default. -/
theorem Call.IsMadeWithout.filter_query {e : Spec.Endpoint} {l : Leaf} {f : Flag} {call : Call}
    {written : List (String × String)} (h : call.IsMadeWithout l f written)
    (hl : (compileEndpoint e).answer = .ok l) (hf : f ∈ l.flags) :
    call.request.query.filter (·.1 == f.name) =
      flagPairs (f, none) ++ written.filter (·.1 == f.name) := by
  obtain ⟨host, api, outer, words, values, hread, hgiven, hwritten, hmade⟩ := h
  have hnodup := nodup_identifiers hl
  obtain ⟨typed, hreads⟩ := CommandLine.Interface.reads_of_read hread
  obtain ⟨x, rfl, hkinds⟩ := exists_assignment_of_reads hnodup hreads
  obtain ⟨-, -, parameters, hbound, hbuilt⟩ := of_make hmade
  obtain ⟨pairs, hpairs, hwhole⟩ := x.query_of_buildRequest hnodup hbound hbuilt
  obtain rfl : pairs = written := Except.ok.inj (hpairs.symm.trans hwritten)
  rw [← x.flags_eq] at hf
  obtain ⟨given, hgiven_mem, rfl⟩ := List.mem_map.1 hf
  have hnone := x.eq_none_of_given? hnodup hgiven_mem
    (fun v hv => (hkinds given hgiven_mem v hv).2) hgiven
  have hgiven_eq : given = (given.1, none) := Prod.ext rfl hnone
  rw [hwhole, List.filter_append, x.filter_query (Command.nodup_map_name_flags hl) hgiven_mem,
    ← hgiven_eq]

/-- The pairs of a flag without a value are the text of an integer if this is its declared default. -/
theorem flagPairs_none_eq_iff {f : Flag} (hplace : f.location = .query) (hkind : f.kind = .integer)
    (hdefault : f.default.kind = f.kind) (n : Int) :
    flagPairs (f, none) = [(f.name, toString n)] ↔
      f.default = .integer n ∧ f.declaredDefault = true := by
  obtain ⟨m, hm⟩ : ∃ m, f.default = .integer m := by
    rw [hkind] at hdefault
    cases hvalue : f.default with
    | integer m => exact ⟨m, rfl⟩
    | string _ | bool _ | stringList _ =>
      rw [hvalue] at hdefault
      cases hdefault
  rw [flagPairs, if_pos hplace, sentValue?]
  dsimp only
  rw [hm]
  cases f.declaredDefault <;> simp [queryTexts]

open Command (Spells Survives IsIntegerOption HasText choicesOf flagFor) in
/-- **Integer defaults.**  Let a query parameter that need not be given have an integer as its default,
as a number or as a text.  It makes a flag with this declared default, and a call without the flag sends
the text of the integer, exactly if the integer survives: it is given as a number, or it has at most 53
binary digits before the zeros at its end and is in the range of the floating-point numbers.  Making a
flag needs the texts of the choices as well. -/
theorem integerDefault_iff {p : Spec.Parameter} {raw : Value} {n : Int} (hp : IsIntegerOption p raw)
    (hraw : Spells n raw) :
    (∀ taken, (∃ f, (flagFor p taken).answer = .ok f ∧ f.default = .integer n ∧
        f.declaredDefault = true) ↔ (∀ choice ∈ choicesOf p, HasText choice) ∧ Survives n raw) ∧
    ∀ (e : Spec.Endpoint) (l : Leaf) (f : Flag) (call : Call) (written : List (String × String)),
      (compileEndpoint e).answer = .ok l → f ∈ l.flags → f.IsOf p → call.IsMadeWithout l f written →
      (HasFirst call.request.query written p.name (toString n) ↔ Survives n raw) ∧
      ∀ client server before request,
        (Http.received client server call.request before).2 = before ++ [request] →
        (HasFirst (Http.sentPairs request) written p.name (toString n) ↔ Survives n raw) := by
  refine ⟨Command.exists_flagFor_iff hp hraw, fun e l f call written hl hf hof hmade => ?_⟩
  have hquery : HasFirst call.request.query written p.name (toString n) ↔ Survives n raw := by
    rw [HasFirst, ← hof.name, hmade.filter_query hl hf, ← List.singleton_append,
      List.append_left_inj, ← hof.default_eq_iff hp hraw]
    exact flagPairs_none_eq_iff (hof.location.trans hp.location_eq)
      (hof.kind.trans hp.flagKindFor_eq) hof.kind_default n
  refine ⟨hquery, fun client server before request hsent => ?_⟩
  rw [HasFirst, Http.sentPairs_of_sent hsent, Http.Url.filter_grouped]
  exact hquery

/-- A parameter whose default is written as a text, as large integers often are. -/
def sinceParameter (digits : String) : Spec.Parameter :=
  Command.typedParameter "since" .query "integer" (.text digits) false

theorem isIntegerOption_since (digits : String) :
    Command.IsIntegerOption (sinceParameter digits) (.text digits) where
  location_eq := rfl
  required_eq := rfl
  isTaken := by
    have hname : (!Command.isFlagName "since".toList) = false := by decide
    exact (if_neg nofun).trans (if_neg (Bool.eq_false_iff.1 hname))
  schema := ⟨_, rfl, rfl, rfl⟩

/-- An endpoint with a default of 54 binary digits, the last of which is zero. -/
def sinceEndpoint : Spec.Endpoint :=
  { Command.plainEndpoint .get "/events" [] false with
    parameters := [sinceParameter "9007199254740994"] }

/-- The flag of its parameter. -/
def sinceFlag : Flag :=
  ⟨"since", "since", .query, .integer, .integer 9007199254740994, true, false, ""⟩

/-- The command of this endpoint. -/
def sinceLeaf : Leaf where
  name := "get-events"
  help := "GET /events"
  endpoint := sinceEndpoint
  usage := "get-events"
  arguments := []
  flags := [sinceFlag]

/-- What is laid down when a pair of the same name is written out. -/
def sinceAssignment : Assignment sinceLeaf where
  arguments := []
  flags := [(sinceFlag, none)]
  common := Command.commonOptions.map fun o =>
    (o.identifier, if o.identifier = "query" then ⟨some (.stringList ["since=1"]), true⟩
      else ⟨o.default, false⟩)
  arguments_eq := rfl
  flags_eq := rfl
  common_eq := rfl

theorem compileEndpoint_since : (compileEndpoint sinceEndpoint).answer = .ok sinceLeaf := by
  have hparts : (compileEndpoint sinceEndpoint).answer.map Leaf.parts = .ok sinceLeaf.parts := by
    decide +kernel
  exact Command.answer_compileEndpoint_of_parts (by rfl) hparts

theorem isOf_sinceFlag : sinceFlag.IsOf (sinceParameter "9007199254740994") := by
  have hflag : (Command.flagFor (sinceParameter "9007199254740994") []).answer = .ok sinceFlag := by
    decide +kernel
  exact (Command.of_flagFor hflag).1

theorem isExact_since : Decimal.IsExact 9007199254740994 :=
  ⟨4503599627370497, 1, by norm_num, by norm_num, by norm_num⟩

/-- The default of the flag is sent before the pair that is written out. -/
theorem integerDefault_iff_since :
    Command.IsIntegerOption (sinceParameter "9007199254740994") (.text "9007199254740994") ∧
      Command.Spells 9007199254740994 (.text "9007199254740994") ∧
      (∃ f, (Command.flagFor (sinceParameter "9007199254740994") []).answer = .ok f ∧
        f.default = .integer 9007199254740994 ∧ f.declaredDefault = true) ∧
      ∃ call request, Call.IsMadeWithout call sinceLeaf sinceFlag [("since", "1")] ∧
        (Http.received Http.promptClient Http.silentServer call.request []).2 = [] ++ [request] ∧
        HasFirst call.request.query [("since", "1")] "since" "9007199254740994" ∧
        HasFirst (Http.sentPairs request) [("since", "1")] "since" "9007199254740994" := by
  have hoption := isIntegerOption_since "9007199254740994"
  have hspells : Command.Spells 9007199254740994 (.text "9007199254740994") := .text
  obtain ⟨hmakes, hsends⟩ := integerDefault_iff hoption hspells
  have hsurvives : Command.Survives 9007199254740994 (.text "9007199254740994") :=
    fun _ => isExact_since
  have hchoices : ∀ choice ∈ Command.choicesOf (sinceParameter "9007199254740994"),
      Command.HasText choice := nofun
  have hanswer : (Call.make Request.bareHost Request.shopApi sinceLeaf
      ⟨[], sinceAssignment.values⟩).answer.map
        (fun call => (Http.wire "b" call.request).map (·.method)) = .ok (.ok "GET") := by
    decide +kernel
  obtain ⟨call, hcall, hwire⟩ := map_eq_ok_iff.1 hanswer
  obtain ⟨request, hrequest, -⟩ := map_eq_ok_iff.1 hwire
  have hmade : call.IsMadeWithout sinceLeaf sinceFlag [("since", "1")] :=
    ⟨Request.bareHost, Request.shopApi, [], ["--query", "since=1"], sinceAssignment.values,
      by decide +kernel, by decide +kernel, by decide +kernel, hcall⟩
  have hsent : (Http.received Http.promptClient Http.silentServer call.request []).2 =
      [] ++ [request] := Http.received_eq_append_iff.2 hrequest
  obtain ⟨hquery, hpairs⟩ := hsends sinceEndpoint sinceLeaf sinceFlag call [("since", "1")]
    compileEndpoint_since List.mem_cons_self isOf_sinceFlag hmade
  exact ⟨hoption, hspells, (hmakes []).2 ⟨hchoices, hsurvives⟩, call, request, hmade, hsent,
    hquery.2 hsurvives, (hpairs _ _ _ _ hsent).2 hsurvives⟩

/-- A default that is written as a text can come back as another integer. -/
theorem not_forall_default_eq :
    ¬ ∀ (p : Spec.Parameter) (raw : Value) (n : Int) (taken : List String),
      Command.IsIntegerOption p raw → Command.Spells n raw → ∀ f,
      (Command.flagFor p taken).answer = .ok f → f.default = .integer n := by
  intro h
  have hflag : (Command.flagFor (sinceParameter "9007199254740993") []).answer.map (·.default) =
      .ok (.integer 9007199254740992) := by decide +kernel
  obtain ⟨f, hf, hdefault⟩ := map_eq_ok_iff.1 hflag
  have heq := h _ _ 9007199254740993 [] (isIntegerOption_since "9007199254740993") .text f hf
  rw [hdefault] at heq
  exact absurd heq (by decide)

end ApiShell.Program
