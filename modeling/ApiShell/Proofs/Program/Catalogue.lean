import ApiShell.Program.Run
import ApiShell.Proofs.Cache.Providing
import ApiShell.Proofs.Command.Signature
import ApiShell.Proofs.Config.TimeToLive
import ApiShell.Proofs.Run
import ApiShell.Proofs.Time.Calendar

/-!
# One API does not get in the way of another

The configured APIs take turns: each is described and compiled with what the turns before it have
left of the cache, the clock and the source of descriptions.  What comes of a turn is said by one
lemma in terms of what comes of describing its API, and the loop over the APIs answers the loop over
the answers of the turns.  So a failure costs one API its commands and no other API anything, and
the commands of an API are those that it has alone.  Only a defect ends the loop, and a time to live
that cannot be read is one: the APIs before and after it are lost with it.
-/

namespace ApiShell.Program

open Command (Tree Group)
open Provider (on on_bind on_bind_error)
open Run (AppendsOnly)
open Spec (Endpoint)

variable {σ α : Type} {loader : Loader σ} {s s' : Supply σ} {log log' : List LogRecord}

/-! ### Making the commands of an API -/

theorem succeeds_usable? (api group : String) (l : Command.Leaf) :
    Succeeds (l.usable? api group).answer := by
  unfold Command.Leaf.usable?
  dsimp only
  cases (l.definition api).rejection? with
  | some rejection => exact ⟨none, rfl⟩
  | none =>
    rw [Command.interface_definition]
    exact ⟨some l, rfl⟩

theorem succeeds_group_usable (api : String) (g : Group) : Succeeds (g.usable api).answer := by
  unfold Command.Group.usable
  rw [Run.succeeds_bind_pure_iff, Run.answer_mapM (Command.appendsOnly_usable? api g.name),
    succeeds_mapM_iff]
  intro l _
  exact succeeds_usable? api g.name l

/-- Leaving out the commands that cannot be called always succeeds and keeps the name of the tree. -/
theorem exists_answer_tree_usable (t : Tree) :
    ∃ t', t.usable.answer = .ok t' ∧ t'.name = t.name := by
  have hrounds : Succeeds (t.groups.mapM (Group.usable t.name)).answer := by
    rw [Run.answer_mapM (Command.appendsOnly_group_usable t.name), succeeds_mapM_iff]
    intro g _
    exact succeeds_group_usable t.name g
  obtain ⟨groups, hgroups⟩ := hrounds
  refine ⟨{ t with groups }, ?_, rfl⟩
  unfold Command.Tree.usable
  rw [Run.answer_bind fun _ => .pure _, hgroups]
  rfl

/-- The compilation of an API with its description. -/
def compiled (name : String) (document : Value) (endpoints : List Endpoint) : Run Tree :=
  Command.compile name endpoints (Command.tagDescriptions document) (titleHelp name document)

/-- The commands of an API are made where its compilation returns, and they are named for it. -/
theorem answer_treeOf {name : String} {document : Value} {endpoints : List Endpoint} {tree : Tree}
    (h : (compiled name document endpoints).answer = .ok tree) :
    ∃ tree', (treeOf name document endpoints).answer = .ok tree' ∧ tree'.name = name := by
  have happends (tree : Tree) : AppendsOnly (do
      note .debug s!"Loaded {endpoints.length} endpoints for {name}"
      tree.usable) :=
    (AppendsOnly.note _ _).bind fun _ => Command.appendsOnly_tree_usable tree
  obtain ⟨tree', htree', hname⟩ := exists_answer_tree_usable tree
  have hend : (treeOf name document endpoints).answer = tree.usable.answer := by
    show (compiled name document endpoints >>= _).answer = _
    rw [Run.answer_bind happends, h]
    exact Run.answer_bind fun _ => Command.appendsOnly_tree_usable tree
  exact ⟨tree', hend.trans htree', hname.trans (Command.name_of_compile h)⟩

theorem appendsOnly_treeOf (name : String) (document : Value) (endpoints : List Endpoint) :
    AppendsOnly (treeOf name document endpoints) :=
  (Command.appendsOnly_compile _ _ _ _).bind fun tree =>
    (AppendsOnly.note _ _).bind fun _ => Command.appendsOnly_tree_usable tree

/-! ### Turns -/

/-- The turn of an API: its name and settings, and what it finds. -/
structure Turn (σ : Type) where
  name : String
  settings : ApiConfig
  supply : Supply σ
  log : List LogRecord

/-- What comes of describing an API. -/
def outcome (loader : Loader σ) (settings : ApiConfig) (s : Supply σ) (log : List LogRecord) :
    Except Fault (Value × List Endpoint) :=
  ((describe loader settings).on s log).1.1

/-- What comes of a turn, by what comes of describing its API. -/
def made (name : String) : Except Fault (Value × List Endpoint) → Except Fault (Option Tree)
  | .ok (document, endpoints) => (treeOf name document endpoints).answer.map some
  | .error (.failure _) => .ok none
  | .error (.defect d) => .error (.defect d)

namespace Turn

/-- What comes of describing the API in its turn. -/
def outcome (loader : Loader σ) (t : Turn σ) : Except Fault (Value × List Endpoint) :=
  Program.outcome loader t.settings t.supply t.log

/-- The name of the API is not that of a built-in command. -/
def IsFree (t : Turn σ) : Prop := Builtin.ofName? t.name = none

/-- The API gets its commands: its name is free and its description can be used. -/
def isListed (loader : Loader σ) (t : Turn σ) : Bool :=
  (Builtin.ofName? t.name).isNone && (t.outcome loader).isOk

/-- What the turn answers. -/
def answer (loader : Loader σ) (t : Turn σ) : Except Fault (Option Tree) :=
  if (Builtin.ofName? t.name).isSome then .ok none else made t.name (t.outcome loader)

end Turn

/-- The turns of APIs, each of which finds what the one before it has left. -/
def turns (loader : Loader σ) :
    List (String × ApiConfig) → Supply σ → List LogRecord → List (Turn σ)
  | [], _, _ => []
  | api :: apis, s, log =>
    let after := (treeFor? loader api).on s log
    ⟨api.1, api.2, s, log⟩ :: turns loader apis after.1.2 after.2

/-- The turns come in the order of the APIs. -/
theorem map_turns (loader : Loader σ) (apis : List (String × ApiConfig)) (s : Supply σ)
    (log : List LogRecord) :
    (turns loader apis s log).map (fun t => (t.name, t.settings)) = apis := by
  induction apis generalizing s log with
  | nil => rfl
  | cons api apis ih => rw [turns, List.map_cons, ih]

/-! ### What comes of a turn -/

/-- Where a computation fails, the failure is what comes of it. -/
theorem on_outcome_of_failure {p : Provider σ α} {f : Failure}
    (h : p.on s log = ((.error (.failure f), s'), log')) :
    (Provider.outcome p).on s log = ((.ok (.error f), s'), log') := by
  unfold on at h ⊢
  unfold Provider.outcome
  rw [ExceptT.run_mk, StateT.run_bind, StateT.run_bind, h]
  rfl

/-- A defect ends the computation. -/
theorem on_outcome_of_defect {p : Provider σ α} {d : Defect}
    (h : p.on s log = ((.error (.defect d), s'), log')) :
    (Provider.outcome p).on s log = ((.error (.defect d), s'), log') := by
  unfold on at h ⊢
  unfold Provider.outcome
  rw [ExceptT.run_mk, StateT.run_bind, StateT.run_bind, h]
  rfl

theorem on_outcome_of_ok {p : Provider σ α} {a : α} (h : p.on s log = ((.ok a, s'), log')) :
    (Provider.outcome p).on s log = ((.ok (.ok a), s'), log') := by
  unfold on at h ⊢
  unfold Provider.outcome
  rw [ExceptT.run_mk, StateT.run_bind, StateT.run_bind, h]
  rfl

/-- Making the commands of an API needs nothing but its description, and leaves the rest as it is. -/
theorem on_ofRun_treeOf (name : String) (document : Value) (endpoints : List Endpoint)
    (s : Supply σ) (log : List LogRecord) :
    ((do return some (← Provider.ofRun (treeOf name document endpoints)) :
        Provider σ (Option Tree)).on s log).1 =
      ((treeOf name document endpoints).answer.map some, s) := by
  have hrun : (Provider.ofRun (treeOf name document endpoints)).on s log =
      (((treeOf name document endpoints).answer, s), log ++ (treeOf name document endpoints).records) :=
    congrArg (fun r => ((r.1, s), r.2)) (appendsOnly_treeOf name document endpoints log)
  cases hanswer : (treeOf name document endpoints).answer with
  | error fault =>
    rw [hanswer] at hrun
    rw [on_bind_error hrun]
    rfl
  | ok tree =>
    rw [hanswer] at hrun
    rw [on_bind hrun]
    rfl

/-- **One turn.**  What it answers and leaves depends on what comes of describing its API, and on
nothing else that it finds. -/
theorem on_treeFor? (loader : Loader σ) (api : String × ApiConfig) (s : Supply σ)
    (log : List LogRecord) :
    ((treeFor? loader api).on s log).1 = (Turn.answer loader ⟨api.1, api.2, s, log⟩,
      if (Builtin.ofName? api.1).isSome then s else ((describe loader api.2).on s log).1.2) := by
  obtain ⟨name, settings⟩ := api
  unfold treeFor? Turn.answer
  dsimp only
  by_cases hbuiltin : (Builtin.ofName? name).isSome
  · rw [if_pos hbuiltin, if_pos hbuiltin, if_pos hbuiltin]
    rfl
  rw [if_neg hbuiltin, if_neg hbuiltin, if_neg hbuiltin]
  show _ = (made name ((describe loader settings).on s log).1.1, _)
  rcases hrun : (describe loader settings).on s log with ⟨⟨described, s'⟩, log'⟩
  cases described with
  | error fault =>
    cases fault with
    | failure f =>
      rw [on_bind (on_outcome_of_failure hrun)]
      rfl
    | defect d =>
      rw [on_bind_error (on_outcome_of_defect hrun)]
      rfl
  | ok described =>
    rw [on_bind (on_outcome_of_ok hrun)]
    exact on_ofRun_treeOf name described.1 described.2 s' log'

/-! ### All turns -/

/-- The loop over the APIs answers the loop over the answers of their turns. -/
theorem answer_mapM_treeFor? (loader : Loader σ) (apis : List (String × ApiConfig)) (s : Supply σ)
    (log : List LogRecord) :
    ((apis.mapM (treeFor? loader)).on s log).1.1 =
      (turns loader apis s log).mapM (Turn.answer loader) := by
  induction apis generalizing s log with
  | nil => rfl
  | cons api apis ih =>
    have hanswer : Turn.answer loader ⟨api.1, api.2, s, log⟩ =
        ((treeFor? loader api).on s log).1.1 := by
      rw [on_treeFor?]
    rw [List.mapM_cons, turns, List.mapM_cons, hanswer]
    rcases hfirst : (treeFor? loader api).on s log with ⟨⟨first, s'⟩, log'⟩
    cases first with
    | error fault =>
      rw [on_bind_error hfirst]
      rfl
    | ok tree? =>
      rw [on_bind hfirst]
      dsimp only
      rw [← ih s' log']
      rcases hrest : (apis.mapM (treeFor? loader)).on s' log' with ⟨⟨rest, s''⟩, log''⟩
      cases rest with
      | error fault =>
        rw [on_bind_error hrest]
        rfl
      | ok trees =>
        rw [on_bind hrest]
        rfl

/-- The trees that answers of turns make a catalogue of. -/
def listed (trees : List (Option Tree)) : List Tree := (trees.filterMap id).filter (·.name ≠ "")

theorem answer_catalogue (loader : Loader σ) (c : Config) (s : Supply σ) (log : List LogRecord) :
    ((catalogue loader c).on s log).1.1 =
      ((turns loader c.apis s log).mapM (Turn.answer loader)).map listed := by
  rw [← answer_mapM_treeFor?]
  rcases hrun : (c.apis.mapM (treeFor? loader)).on s log with ⟨⟨answer, s'⟩, log'⟩
  unfold catalogue
  cases answer with
  | error fault =>
    rw [on_bind_error hrun]
    rfl
  | ok trees =>
    rw [on_bind hrun]
    rfl

/-! ### Turns that give commands -/

section Describing

variable {settings : ApiConfig} {ttl : Time.Duration}

/-- Reading a time to live leaves a provider as it is. -/
theorem on_ttlOf (settings : ApiConfig) (s : Supply σ) (log : List LogRecord) :
    (ttlOf settings : Provider σ _).on s log = ((settings.ttl.mapError .defect, s), log) := by
  unfold ttlOf
  cases settings.ttl <;> rfl

/-- A time to live that cannot be read is a defect, whatever the description is. -/
theorem on_describe_of_ttl_eq_error {d : Defect} (h : settings.ttl = .error d) (loader : Loader σ)
    (s : Supply σ) (log : List LogRecord) :
    (describe loader settings).on s log = ((.error (.defect d), s), log) := by
  have hdefect : (ttlOf settings : Provider σ _).on s log = ((.error (.defect d), s), log) := by
    rw [on_ttlOf, h]
    rfl
  have hdescription : (ttlOf settings >>= Provider.description loader settings.apispec).on s log =
      ((.error (.defect d), s), log) := on_bind_error hdefect
  unfold describe
  rw [← bind_assoc]
  exact on_bind_error hdescription

theorem on_ttlOf_description (h : settings.ttl = .ok ttl) (loader : Loader σ) (s : Supply σ)
    (log : List LogRecord) :
    (ttlOf settings >>= Provider.description loader settings.apispec).on s log =
      (Provider.description loader settings.apispec ttl).on s log := by
  have hread : (ttlOf settings : Provider σ _).on s log = ((.ok ttl, s), log) := by
    rw [on_ttlOf, h]
    rfl
  exact on_bind hread

theorem on_describe_of_error {fault : Fault} (httl : settings.ttl = .ok ttl)
    (h : (Provider.description loader settings.apispec ttl).on s log = ((.error fault, s'), log')) :
    (describe loader settings).on s log = ((.error fault, s'), log') := by
  unfold describe
  rw [← bind_assoc]
  exact on_bind_error ((on_ttlOf_description httl loader s log).trans h)

theorem on_describe_of_ok {d : Spec.Description} {endpoints : List Endpoint}
    {log'' : List LogRecord} (httl : settings.ttl = .ok ttl)
    (h : (Provider.description loader settings.apispec ttl).on s log = ((.ok d, s'), log'))
    (hendpoints : (Spec.extractEndpoints d.value).runWith log' = (.ok endpoints, log'')) :
    (describe loader settings).on s log = ((.ok (d.value, endpoints), s'), log'') := by
  have hextract : (Provider.ofRun (Spec.extractEndpoints d.value)).on s' log' =
      ((.ok endpoints, s'), log'') := congrArg (fun r => ((r.1, s'), r.2)) hendpoints
  unfold describe
  rw [← bind_assoc, on_bind ((on_ttlOf_description httl loader s log).trans h), on_bind hextract]
  rfl

end Describing

namespace Turn

/-- Describing the API meets no defect where its time to live can be read, and the compilation of a
description that can be used returns. -/
structure IsRegular (loader : Loader σ) (t : Turn σ) : Prop where
  describes : t.IsFree → Succeeds t.settings.ttl → ∀ d, t.outcome loader ≠ .error (.defect d)
  compiles : t.IsFree → ∀ document endpoints, t.outcome loader = .ok (document, endpoints) →
    Succeeds (compiled t.name document endpoints).answer

/-- The commands are those of the API: they are named for it, and they are all there is where the
API is the only one and describing it comes to the same. -/
def Gives (loader : Loader σ) (t : Turn σ) (tree : Tree) : Prop :=
  tree.name = t.name ∧ ∀ s log, Program.outcome loader t.settings s log = t.outcome loader →
    ((catalogue loader ⟨[(t.name, t.settings)]⟩).on s log).1.1 = .ok [tree]

variable {t : Turn σ}

theorem isListed_iff : t.isListed loader ↔ t.IsFree ∧ ∃ described, t.outcome loader = .ok described := by
  unfold isListed IsFree
  rw [Bool.and_eq_true, Option.isNone_iff_eq_none]
  refine and_congr_right fun _ => ?_
  cases t.outcome loader with
  | error fault => exact ⟨nofun, fun ⟨_, h⟩ => nomatch h⟩
  | ok described => exact ⟨fun _ => ⟨described, rfl⟩, fun _ => rfl⟩

/-- The turn of an API with a free name answers what its description is made into. -/
theorem IsFree.answer_eq (h : t.IsFree) (loader : Loader σ) :
    t.answer loader = made t.name (t.outcome loader) := by
  unfold answer
  rw [h]
  rfl

/-- A turn ends the loop exactly if the name of its API is free and its time to live cannot be read. -/
theorem IsRegular.succeeds_answer_iff (h : t.IsRegular loader) :
    Succeeds (t.answer loader) ↔ (t.IsFree → Succeeds t.settings.ttl) := by
  by_cases hfree : t.IsFree
  · rw [hfree.answer_eq, forall_prop_of_true hfree]
    constructor
    · intro hsucceeds
      cases httl : t.settings.ttl with
      | ok ttl => exact ⟨ttl, rfl⟩
      | error d =>
        have hdefect : t.outcome loader = .error (.defect d) :=
          congrArg (·.1.1) (on_describe_of_ttl_eq_error httl loader t.supply t.log)
        rw [hdefect] at hsucceeds
        exact absurd hsucceeds (not_succeeds_error _)
    · intro httl
      cases houtcome : t.outcome loader with
      | error fault =>
        cases fault with
        | failure f => exact ⟨none, rfl⟩
        | defect d => exact absurd houtcome (h.describes hfree httl d)
      | ok described =>
        obtain ⟨tree, htree⟩ := h.compiles hfree described.1 described.2 houtcome
        obtain ⟨tree', htree', -⟩ := answer_treeOf htree
        exact succeeds_map_iff.2 ⟨tree', htree'⟩
  · have hnone : t.answer loader = .ok none :=
      if_pos (Option.isSome_iff_ne_none.2 hfree)
    rw [hnone]
    exact iff_of_true ⟨none, rfl⟩ fun hfree' => absurd hfree' hfree

/-- A turn that answers gives commands exactly if its API is listed. -/
theorem IsRegular.gives_of_answer (h : t.IsRegular loader) (hname : t.name ≠ "") {tree? : Option Tree}
    (hanswer : t.answer loader = .ok tree?) :
    if t.isListed loader then ∃ tree, tree? = some tree ∧ tree.name ≠ "" ∧ t.Gives loader tree
    else tree? = none := by
  by_cases hlisted : t.isListed loader
  · rw [if_pos hlisted]
    obtain ⟨hfree, described, houtcome⟩ := isListed_iff.1 hlisted
    obtain ⟨tree, htree⟩ := h.compiles hfree described.1 described.2 houtcome
    obtain ⟨tree', htree', hnamed⟩ := answer_treeOf htree
    have hmade : made t.name (t.outcome loader) = .ok (some tree') := by
      rw [houtcome]
      exact map_eq_ok_iff.2 ⟨tree', htree', rfl⟩
    have hsome : some tree' = tree? := by
      rw [hfree.answer_eq, hmade] at hanswer
      exact Except.ok.inj hanswer
    have hne : tree'.name ≠ "" := hnamed.symm ▸ hname
    refine ⟨tree', hsome.symm, hne, hnamed, fun s log hsame => ?_⟩
    have halone : Turn.answer loader ⟨t.name, t.settings, s, log⟩ = .ok (some tree') := by
      rw [IsFree.answer_eq (t := ⟨t.name, t.settings, s, log⟩) hfree]
      exact (congrArg (made t.name) hsame).trans hmade
    have hkept : listed [some tree'] = [tree'] := List.filter_cons_of_pos (decide_eq_true hne)
    rw [answer_catalogue, turns, turns, List.mapM_cons, List.mapM_nil, halone, ← hkept]
    rfl
  · rw [if_neg hlisted]
    by_cases hfree : t.IsFree
    · rw [hfree.answer_eq] at hanswer
      cases houtcome : t.outcome loader with
      | ok described => exact absurd (isListed_iff.2 ⟨hfree, described, houtcome⟩) hlisted
      | error fault =>
        rw [houtcome] at hanswer
        cases fault with
        | failure f => exact (Except.ok.inj hanswer).symm
        | defect d => cases hanswer
    · have hnone : t.answer loader = .ok none := if_pos (Option.isSome_iff_ne_none.2 hfree)
      exact Except.ok.inj (hanswer.symm.trans hnone)

end Turn

/-- What the answers of turns list is given by the turns whose APIs are listed, one after the other. -/
theorem forall₂_listed {ts : List (Turn σ)} {answers : List (Option Tree)}
    (hturns : ∀ t ∈ ts, t.name ≠ "" ∧ t.IsRegular loader)
    (h : List.Forall₂ (fun t a => t.answer loader = .ok a) ts answers) :
    List.Forall₂ (Turn.Gives loader) (ts.filter (·.isListed loader)) (listed answers) := by
  induction h with
  | nil => exact .nil
  | @cons t answer ts answers hfirst _ ih =>
    have hrest := ih fun t' ht' => hturns t' (List.mem_cons_of_mem t ht')
    obtain ⟨hname, hregular⟩ := hturns t List.mem_cons_self
    have hgives := hregular.gives_of_answer hname hfirst
    by_cases hlisted : t.isListed loader
    · rw [if_pos hlisted] at hgives
      obtain ⟨tree, rfl, hne, hgives⟩ := hgives
      have hkept : listed (some tree :: answers) = tree :: listed answers :=
        List.filter_cons_of_pos (decide_eq_true hne)
      rw [List.filter_cons_of_pos hlisted, hkept]
      exact .cons hgives hrest
    · rw [if_neg hlisted] at hgives
      rw [List.filter_cons_of_neg hlisted, hgives]
      exact hrest

/-! ### The catalogue -/

/-- The names of the built-in commands are theirs whatever is configured. -/
theorem target?_builtin (trees : List Tree) (b : Builtin) :
    target? trees b.name = some (.builtin b) := by
  have hname : Builtin.ofName? b.name = some b := by
    cases b <;> rfl
  unfold target?
  rw [hname]

/-- A tree is found under its name if the name is free and no other tree has it. -/
theorem target?_of_mem {trees : List Tree} {tree : Tree} (hfree : Builtin.ofName? tree.name = none)
    (hnodup : (trees.map (·.name)).Nodup) (htree : tree ∈ trees) :
    target? trees tree.name = some (.api tree) := by
  have hfound : trees.find? (·.name == tree.name) = some tree :=
    Entries.find?_eq_some_of_nodup hnodup htree
  unfold target?
  rw [hfree, hfound]
  rfl

/-- The trees of a list of turns are named for the APIs. -/
theorem map_name_of_gives {ts : List (Turn σ)} {trees : List Tree}
    (h : List.Forall₂ (Turn.Gives loader) ts trees) : trees.map (·.name) = ts.map (·.name) := by
  induction h with
  | nil => rfl
  | cons hfirst _ ih => rw [List.map_cons, List.map_cons, hfirst.1, ih]

/-- **APIs are told apart.**  Let the APIs of a configuration have names of their own, let describing
none of them meet a defect where its time to live can be read, and let the compilation of those that
can be described return.  Then there is a catalogue exactly if each API with a free name has a time to
live that can be read.  It has one tree for each API that has a free name and can be described, in the
order of the configuration.  Each tree is the whole catalogue where its API is the only one and
describing it comes to the same.  Each name of a tree leads to the tree, and that of a built-in command
leads to the command. -/
theorem catalogue_tells_apart (loader : Loader σ) (c : Config) (s : Supply σ) (log : List LogRecord)
    (hnames : ∀ api ∈ c.apis, api.1 ≠ "") (hnodup : (c.apis.map Prod.fst).Nodup)
    (hregular : ∀ t ∈ turns loader c.apis s log, t.IsRegular loader) :
    (Succeeds ((catalogue loader c).on s log).1.1 ↔
        ∀ api ∈ c.apis, Builtin.ofName? api.1 = none → Succeeds api.2.ttl) ∧
      ∀ trees, ((catalogue loader c).on s log).1.1 = .ok trees →
        trees.map (·.name) =
            ((turns loader c.apis s log).filter (·.isListed loader)).map (·.name) ∧
          List.Forall₂ (Turn.Gives loader)
            ((turns loader c.apis s log).filter (·.isListed loader)) trees ∧
          (∀ tree ∈ trees, target? trees tree.name = some (.api tree)) ∧
          ∀ b, target? trees b.name = some (.builtin b) := by
  have hapis := map_turns loader c.apis s log
  have hturns : (turns loader c.apis s log).map (·.name) = c.apis.map Prod.fst := by
    have hpairs := congrArg (List.map Prod.fst) hapis
    rwa [List.map_map] at hpairs
  have hmem : ∀ t ∈ turns loader c.apis s log, (t.name, t.settings) ∈ c.apis := by
    intro t ht
    rw [← hapis]
    exact List.mem_map_of_mem ht
  constructor
  · rw [answer_catalogue, succeeds_map_iff, succeeds_mapM_iff]
    constructor
    · intro h api hapi hfree
      rw [← hapis] at hapi
      obtain ⟨t, ht, rfl⟩ := List.mem_map.1 hapi
      exact (hregular t ht).succeeds_answer_iff.1 (h t ht) hfree
    · intro h t ht
      exact (hregular t ht).succeeds_answer_iff.2 (h _ (hmem t ht))
  · intro trees htrees
    rw [answer_catalogue] at htrees
    obtain ⟨answers, hanswers, rfl⟩ := map_eq_ok_iff.1 htrees
    have hgives := forall₂_listed
      (fun t ht => ⟨hnames _ (hmem t ht), hregular t ht⟩) (mapM_eq_ok_iff.1 hanswers)
    have hlisted := map_name_of_gives hgives
    have hsublist : ((listed answers).map (·.name)).Sublist (c.apis.map Prod.fst) := by
      rw [hlisted, ← hturns]
      exact List.filter_sublist.map _
    refine ⟨hlisted, hgives, fun tree htree => ?_, target?_builtin (listed answers)⟩
    obtain ⟨t, ht, hgiven⟩ := exists_mem_of_forall₂ hgives htree
    have hfree : Builtin.ofName? tree.name = none := by
      rw [hgiven.1]
      exact (Turn.isListed_iff.1 (List.mem_filter.1 ht).2).1
    exact target?_of_mem hfree (hsublist.nodup hnodup) htree

/-! ### A shop and its neighbours -/

/-- What each turn leaves as it finds it is what all turns find. -/
theorem forall_turns {apis : List (String × ApiConfig)} {P : Supply σ → Prop}
    (hkeeps : ∀ api ∈ apis, ∀ s log, P s → P ((treeFor? loader api).on s log).1.2) (hstart : P s) :
    ∀ t ∈ turns loader apis s log, P t.supply := by
  induction apis generalizing s log with
  | nil =>
    intro t ht
    cases ht
  | cons api apis ih =>
    intro t ht
    rcases List.mem_cons.1 ht with rfl | ht
    · exact hstart
    · have hnext := hkeeps api List.mem_cons_self s log hstart
      exact ih (fun api' hapi' => hkeeps api' (List.mem_cons_of_mem api hapi')) hnext t ht

/-- The fields of the description of a shop with one operation. -/
def shopFields : List (String × Value) :=
  [("openapi", .text "3.0.0"),
    ("paths", .ofFields [("/orders", .ofFields [("get", .ofFields
      [("operationId", .text "orders")])])])]

/-- The operation of the shop. -/
def shopEndpoint : Endpoint :=
  { Command.plainEndpoint .get "/orders" [] false with operationId := "orders" }

/-- A loader that finds the description of the shop, and no other. -/
def shopLoader : Loader Unit := fun location =>
  if location = "shop.yaml" then pure (.ofFields shopFields)
  else throw (Fault.failure (.spec (.fileNotFound location)))

/-- What a run works with that has no cache. -/
def uncached : Supply Unit := ⟨none, .morning, ()⟩

theorem ready_shop : Provider.ready "shop.yaml" (.ok (.ofFields shopFields)) =
    .ok ⟨"shop.yaml", "3.0", shopFields⟩ :=
  Provider.ready_of_refs_eq_nil rfl (by with_unfolding_all rfl) rfl

theorem extractEndpoints_shop (log : List LogRecord) :
    (Spec.extractEndpoints (.ofFields shopFields)).runWith log = (.ok [shopEndpoint], log) := by
  with_unfolding_all rfl

theorem ttl_keepingTtl_ninety : (ApiConfig.keepingTtl "90").ttl = .ok ⟨90000000⟩ :=
  eq_ok_of_toOption (by decide +kernel)

/-- Without a cache, the shop is described by its operation. -/
theorem exists_on_describe_shop (log : List LogRecord) :
    ∃ log', (describe shopLoader (ApiConfig.keepingTtl "90")).on uncached log =
      ((.ok (.ofFields shopFields, [shopEndpoint]), uncached), log') := by
  have hloaded : ∃ log', (Provider.description shopLoader "shop.yaml" ⟨90000000⟩).on uncached log =
      ((Provider.ready "shop.yaml" (.ok (.ofFields shopFields)), uncached), log') :=
    Provider.on_description_of_no_cache _ rfl rfl
  obtain ⟨log', hdescription⟩ := hloaded
  rw [ready_shop] at hdescription
  exact ⟨log', on_describe_of_ok ttl_keepingTtl_ninety hdescription (extractEndpoints_shop log')⟩

/-- The settings of an API whose description is lost. -/
def lostSettings (lostTtl : String) : ApiConfig :=
  { ApiConfig.keepingTtl lostTtl with apispec := "lost.yaml" }

/-- Describing it comes to a defect if its time to live cannot be read, and else to a failure. -/
theorem exists_on_describe_lost (lostTtl : String) (log : List LogRecord) :
    ∃ fault log', (describe shopLoader (lostSettings lostTtl)).on uncached log =
        ((.error fault, uncached), log') ∧
      (Succeeds (lostSettings lostTtl).ttl → ∃ f, fault = .failure f) := by
  cases httl : (lostSettings lostTtl).ttl with
  | error d =>
    exact ⟨_, _, on_describe_of_ttl_eq_error httl shopLoader uncached log,
      fun h => absurd h (not_succeeds_error d)⟩
  | ok ttl =>
    have hloaded : ∃ log', (Provider.description shopLoader "lost.yaml" ttl).on uncached log =
        ((Provider.ready "lost.yaml"
          (.error (.failure (.spec (.fileNotFound "lost.yaml")))), uncached), log') :=
      Provider.on_description_of_no_cache _ rfl rfl
    obtain ⟨log', hdescription⟩ := hloaded
    exact ⟨_, log', on_describe_of_error httl hdescription, fun _ => ⟨_, rfl⟩⟩

/-- An API with the name of a built-in command, one whose description is lost, and the shop. -/
def shopConfig (lostTtl : String) : Config :=
  ⟨[("init", ApiConfig.keepingTtl "90"), ("lost", lostSettings lostTtl),
    ("shop", ApiConfig.keepingTtl "90")]⟩

/-- The turns of the three APIs find neither a cache nor anything else. -/
theorem supply_of_mem_turns {lostTtl : String} {log : List LogRecord} {t : Turn Unit}
    (ht : t ∈ turns shopLoader (shopConfig lostTtl).apis uncached log) : t.supply = uncached := by
  refine forall_turns (P := (· = uncached)) (fun api hapi s log hs => ?_) rfl t ht
  subst hs
  rw [on_treeFor?]
  dsimp only
  split
  · rfl
  · obtain ⟨_, hshop⟩ := exists_on_describe_shop log
    obtain ⟨_, _, hlost, -⟩ := exists_on_describe_lost lostTtl log
    simp only [shopConfig, List.mem_cons, List.not_mem_nil, or_false] at hapi
    rcases hapi with rfl | rfl | rfl
    · rw [hshop]
    · rw [hlost]
    · rw [hshop]

/-- Of the three APIs one has no free name, one is not described, and one is. -/
theorem cases_of_mem_turns {lostTtl : String} {log : List LogRecord} {t : Turn Unit}
    (ht : t ∈ turns shopLoader (shopConfig lostTtl).apis uncached log) :
    t.name = "init" ∨
      (t.name = "lost" ∧ ∃ fault, t.outcome shopLoader = .error fault ∧
        (Succeeds t.settings.ttl → ∃ f, fault = .failure f)) ∨
      t.name = "shop" ∧ t.outcome shopLoader = .ok (.ofFields shopFields, [shopEndpoint]) := by
  have hsupply := supply_of_mem_turns ht
  have hapi : (t.name, t.settings) ∈ (shopConfig lostTtl).apis := by
    rw [← map_turns shopLoader (shopConfig lostTtl).apis uncached log]
    exact List.mem_map_of_mem ht
  obtain ⟨name, settings, s, log⟩ := t
  obtain rfl : s = uncached := hsupply
  simp only [shopConfig, List.mem_cons, List.not_mem_nil, or_false, Prod.mk.injEq] at hapi
  rcases hapi with ⟨rfl, rfl⟩ | ⟨rfl, rfl⟩ | ⟨rfl, rfl⟩
  · exact .inl rfl
  · obtain ⟨fault, _, hlost, hfault⟩ := exists_on_describe_lost lostTtl log
    exact .inr (.inl ⟨rfl, fault, congrArg (·.1.1) hlost, hfault⟩)
  · obtain ⟨_, hshop⟩ := exists_on_describe_shop log
    exact .inr (.inr ⟨rfl, congrArg (·.1.1) hshop⟩)

/-- The turns of the three APIs are regular, whatever the time to live of the lost one. -/
theorem isRegular_of_mem_turns {lostTtl : String} {log : List LogRecord} {t : Turn Unit}
    (ht : t ∈ turns shopLoader (shopConfig lostTtl).apis uncached log) : t.IsRegular shopLoader := by
  rcases cases_of_mem_turns ht with hinit | ⟨-, fault, houtcome, hfault⟩ | ⟨hname, houtcome⟩
  · have hnamed : ¬ t.IsFree := by
      rw [Turn.IsFree, hinit]
      decide
    exact ⟨fun hfree => absurd hfree hnamed, fun hfree => absurd hfree hnamed⟩
  · refine ⟨fun _ httl d hd => ?_, fun _ document endpoints hok => ?_⟩
    · obtain ⟨f, rfl⟩ := hfault httl
      cases houtcome.symm.trans hd
    · cases houtcome.symm.trans hok
  · refine ⟨fun _ _ d hd => ?_, fun _ document endpoints hok => ?_⟩
    · cases houtcome.symm.trans hd
    · cases houtcome.symm.trans hok
      rw [hname]
      exact ⟨_, rfl⟩

/-- The shop alone is listed, whatever the time to live of the lost one. -/
theorem filter_turns_shop (lostTtl : String) :
    ((turns shopLoader (shopConfig lostTtl).apis uncached []).filter (·.isListed shopLoader)).map
      (·.name) = ["shop"] := by
  have hlisted : ∀ t ∈ turns shopLoader (shopConfig lostTtl).apis uncached [],
      t.isListed shopLoader = (t.name == "shop") := by
    intro t ht
    unfold Turn.isListed
    rcases cases_of_mem_turns ht with hinit | ⟨hname, fault, houtcome, -⟩ | ⟨hname, houtcome⟩
    · rw [hinit]
      rfl
    · rw [hname, houtcome]
      rfl
    · rw [hname, houtcome]
      rfl
  rw [List.filter_congr hlisted]
  rfl

/-- The shop is there although its neighbours are not. -/
theorem catalogue_tells_apart_shop :
    (∀ api ∈ (shopConfig "90").apis, api.1 ≠ "") ∧
      ((shopConfig "90").apis.map Prod.fst).Nodup ∧
      (∀ t ∈ turns shopLoader (shopConfig "90").apis uncached [], t.IsRegular shopLoader) ∧
      ∃ tree, ((catalogue shopLoader (shopConfig "90")).on uncached []).1.1 = .ok [tree] ∧
        tree.name = "shop" ∧ target? [tree] "shop" = some (.api tree) ∧
        target? [tree] "init" = some (.builtin .init) := by
  have hnames : ∀ api ∈ (shopConfig "90").apis, api.1 ≠ "" := by decide
  have hnodup : ((shopConfig "90").apis.map Prod.fst).Nodup := by decide
  have hregular : ∀ t ∈ turns shopLoader (shopConfig "90").apis uncached [],
      t.IsRegular shopLoader := fun t ht => isRegular_of_mem_turns ht
  obtain ⟨hsucceeds, hcatalogue⟩ :=
    catalogue_tells_apart shopLoader (shopConfig "90") uncached [] hnames hnodup hregular
  have httl : ∀ api ∈ (shopConfig "90").apis, Builtin.ofName? api.1 = none →
      Succeeds api.2.ttl := by
    intro api hapi _
    simp only [shopConfig, List.mem_cons, List.not_mem_nil, or_false] at hapi
    rcases hapi with rfl | rfl | rfl <;> exact ⟨_, ttl_keepingTtl_ninety⟩
  obtain ⟨trees, htrees⟩ := hsucceeds.2 httl
  obtain ⟨hlisted, -, htarget, hbuiltin⟩ := hcatalogue trees htrees
  rw [filter_turns_shop] at hlisted
  obtain ⟨tree, rfl, hname⟩ := List.map_eq_singleton_iff.1 hlisted
  have hshop := htarget tree List.mem_cons_self
  rw [hname] at hshop
  exact ⟨hnames, hnodup, hregular, tree, htrees, hname, hshop, hbuiltin .init⟩

/-- The settings of the lost API with one second and a half as its time to live. -/
def lostFields : List (Scalar × Value) :=
  [(.text "apispec", .text "lost.yaml"), (.text "cache_ttl", .float 1.5)]

/-- One second and a half is accepted as the time to live of the lost API, and with it the shop is lost
as well. -/
theorem catalogue_loses_shop : ∃ ttl,
    ApiConfig.check ["apis", "lost"] (.mapping lostFields) = .ok (lostSettings ttl) ∧
      (∀ api ∈ (shopConfig ttl).apis, api.1 ≠ "") ∧
      ((shopConfig ttl).apis.map Prod.fst).Nodup ∧
      (∀ t ∈ turns shopLoader (shopConfig ttl).apis uncached [], t.IsRegular shopLoader) ∧
      ((turns shopLoader (shopConfig ttl).apis uncached []).filter (·.isListed shopLoader)).map
        (·.name) = ["shop"] ∧
      ¬ Succeeds ((catalogue shopLoader (shopConfig ttl)).on uncached []).1.1 := by
  have hduration : Time.durationOf (.float 1.5) = .ok ⟨1500000⟩ :=
    eq_ok_of_toOption (by decide +kernel)
  have hcheck : ApiConfig.check ["apis", "lost"] (.mapping lostFields) =
      .ok (lostSettings (Value.display (.float 1.5))) := by
    have hfield : Value.field? lostFields "cache_ttl" = some (.float 1.5) := rfl
    have httl : ApiConfig.ttlSetting lostFields ["apis", "lost"] =
        .ok (Value.display (.float 1.5)) := by
      simp only [ApiConfig.ttlSetting, hfield, hduration]
    simp only [ApiConfig.check, httl]
    rfl
  have hunread : ¬ Succeeds (lostSettings (Value.display (.float 1.5))).ttl := by
    rintro ⟨ttl, hread⟩
    rcases Time.durationOfText_display hduration with ⟨-, ⟨s, hs⟩ | ⟨n, hn⟩⟩ | ⟨hmalformed, -⟩
    · cases hs
    · cases hn
    · rw [ApiConfig.ttl, lostSettings, ApiConfig.keepingTtl, hmalformed] at hread
      cases hread
  refine ⟨_, hcheck, by simp [shopConfig], by simp [shopConfig],
    fun t ht => isRegular_of_mem_turns ht, filter_turns_shop _, fun hsucceeds => ?_⟩
  rw [answer_catalogue, succeeds_map_iff, succeeds_mapM_iff] at hsucceeds
  have hlost : ("lost", lostSettings (Value.display (.float 1.5))) ∈
      (turns shopLoader (shopConfig (Value.display (.float 1.5))).apis uncached []).map
        (fun t => (t.name, t.settings)) := by
    rw [map_turns]
    exact List.mem_cons_of_mem _ List.mem_cons_self
  obtain ⟨t, ht, hpair⟩ := List.mem_map.1 hlost
  obtain ⟨hname, hsettings⟩ := Prod.mk.inj hpair
  have hfree : t.IsFree := by
    rw [Turn.IsFree, hname]
    rfl
  have hread := (isRegular_of_mem_turns ht).succeeds_answer_iff.1 (hsucceeds t ht) hfree
  rw [hsettings] at hread
  exact hunread hread

end ApiShell.Program
