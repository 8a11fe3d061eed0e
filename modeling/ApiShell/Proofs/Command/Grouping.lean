import ApiShell.Proofs.Command.Appending
import Mathlib.Data.List.Nodup
import Mathlib.Data.List.Induction

/-!
# Every live endpoint has its place in the tree

The tree of an API is built by two nested loops: one puts the endpoints that are not deprecated into
groups, the other turns the endpoints of a group into commands and leaves out those whose command
name is taken.  Each loop has an exact description of its state after any number of rounds: the
groups so far are those of the names met so far in the order in which they were met, and the
commands so far are those of the first endpoint of each command name.  A tree that is built has thus
lost an endpoint only to an earlier one of the same group and command name.
-/

namespace ApiShell.Command

open Run (AppendsOnly)
open Spec (Endpoint)

/-! ### Deprecated endpoints -/

/-- The endpoints that are not deprecated. -/
def live (endpoints : List Endpoint) : List Endpoint := endpoints.filter (!·.deprecated)

/-- The record of a deprecated endpoint that is left out. -/
def omission (e : Endpoint) : LogRecord :=
  let method := e.method.name
  ⟨.debug, s!"Omitting deprecated {method} {e.path}"⟩

/-- The records of the deprecated endpoints. -/
def omissions (endpoints : List Endpoint) : List LogRecord :=
  (endpoints.filter (·.deprecated)).map omission

@[simp]
theorem live_live (endpoints : List Endpoint) : live (live endpoints) = live endpoints := by
  rw [live, live, List.filter_filter]
  exact List.filter_congr fun e _ => Bool.and_self _

@[simp]
theorem omissions_live (endpoints : List Endpoint) : omissions (live endpoints) = [] := by
  have hnone : (live endpoints).filter (·.deprecated) = [] := by
    rw [live, List.filter_filter, List.filter_eq_nil_iff]
    intro e _
    cases e.deprecated <;> decide
  rw [omissions, hnone, List.map_nil]

/-- Grouping puts the live endpoints into groups and leaves a record of each other one. -/
theorem groupEndpoints_runWith (endpoints : List Endpoint) (log : List LogRecord) :
    (groupEndpoints endpoints).runWith log =
      (.ok ((live endpoints).foldl putInGroup []), log ++ omissions endpoints) := by
  unfold groupEndpoints
  generalize ([] : List (String × List Endpoint)) = groups
  induction endpoints generalizing groups log with
  | nil => exact congrArg (Prod.mk _) (List.append_nil log).symm
  | cons e es ih =>
    rw [List.foldlM_cons, Run.runWith_bind]
    by_cases hdeprecated : e.deprecated
    · rw [if_pos hdeprecated]
      have hround := ih (log ++ [omission e]) groups
      rw [live, List.filter_cons_of_neg (by simp [hdeprecated]), ← live, omissions,
        List.filter_cons_of_pos hdeprecated, List.map_cons, ← List.singleton_append,
        ← List.append_assoc]
      exact hround
    · rw [if_neg hdeprecated]
      have hround := ih log (putInGroup groups e)
      rw [live, List.filter_cons_of_pos (by simp [hdeprecated]), ← live, List.foldl_cons,
        omissions, List.filter_cons_of_neg hdeprecated, ← omissions]
      exact hround

/-- Compiling an API is compiling its live endpoints after a record of each other one. -/
theorem compile_runWith_live (api : String) (endpoints : List Endpoint)
    (tagHelp : List (String × String)) (help : String) (log : List LogRecord) :
    (compile api endpoints tagHelp help).runWith log =
      (compile api (live endpoints) tagHelp help).runWith (log ++ omissions endpoints) := by
  rw [compile, compile, Run.runWith_bind, Run.runWith_bind, groupEndpoints_runWith,
    groupEndpoints_runWith, live_live, omissions_live, List.append_nil]

/-! ### The groups -/

/-- What is kept of a list gains its last member where that is kept. -/
theorem filter_concat {α : Type} (keeps : α → Bool) (as : List α) (a : α) :
    (as ++ [a]).filter keeps = if keeps a then as.filter keeps ++ [a] else as.filter keeps := by
  rw [List.filter_append]
  by_cases ha : keeps a
  · rw [if_pos ha, List.filter_cons_of_pos ha, List.filter_nil]
  · rw [if_neg ha, List.filter_cons_of_neg ha, List.filter_nil, List.append_nil]

/-- The endpoints of a group. -/
def members (name : String) (es : List Endpoint) : List Endpoint :=
  es.filter (groupName · == name)

theorem members_concat (name : String) (es : List Endpoint) (e : Endpoint) :
    members name (es ++ [e]) =
      if groupName e = name then members name es ++ [e] else members name es := by
  simp only [members, filter_concat, beq_iff_eq]

/-- An endpoint's group is met with the endpoint. -/
theorem members_eq_nil_iff {name : String} {es : List Endpoint} :
    members name es = [] ↔ name ∉ es.map groupName := by
  rw [members, List.filter_eq_nil_iff, List.mem_map]
  constructor
  · rintro h ⟨e, he, rfl⟩
    exact h e he (beq_self_eq_true _)
  · intro h e he hname
    exact h ⟨e, he, beq_iff_eq.1 hname⟩

/-- A list's distinct entries gain one more when it is not there yet. -/
theorem eraseDups_concat (names : List String) (n : String) :
    (names ++ [n]).eraseDups =
      if n ∈ names then names.eraseDups else names.eraseDups ++ [n] := by
  rw [List.eraseDups_append, List.cons_removeAll, List.nil_removeAll]
  by_cases hn : n ∈ names
  · rw [if_pos hn, if_neg (by simpa using hn), List.eraseDups_nil, List.append_nil]
  · rw [if_neg hn, if_pos (by simpa using hn), List.eraseDups_cons, List.filter_nil,
      List.eraseDups_nil]

theorem nodup_eraseDups (names : List String) : names.eraseDups.Nodup := by
  induction names using List.reverseRecOn with
  | nil => exact .nil
  | append_singleton names n ih =>
    rw [eraseDups_concat]
    split
    · exact ih
    · next hnew =>
      rw [List.nodup_append_comm, List.singleton_append, List.nodup_cons]
      exact ⟨fun hmem => hnew (List.mem_eraseDups.1 hmem), ih⟩

/-- The groups of endpoints: one for each name in the order in which the names are met, with the
endpoints of that name in their order. -/
def groupsOf (es : List Endpoint) : List (String × List Endpoint) :=
  (es.map groupName).eraseDups.map fun n => (n, members n es)

theorem any_groupsOf {es : List Endpoint} {n : String} :
    (groupsOf es).any (·.1 == n) ↔ n ∈ es.map groupName := by
  rw [groupsOf, List.any_map, List.any_eq_true]
  constructor
  · rintro ⟨m, hm, hname⟩
    rw [← beq_iff_eq.1 hname]
    exact List.mem_eraseDups.1 hm
  · intro hn
    exact ⟨n, List.mem_eraseDups.2 hn, beq_self_eq_true n⟩

/-- Putting in one more endpoint makes the groups with that endpoint. -/
theorem putInGroup_groupsOf (es : List Endpoint) (e : Endpoint) :
    putInGroup (groupsOf es) e = groupsOf (es ++ [e]) := by
  have hnames : (es ++ [e]).map groupName = es.map groupName ++ [groupName e] := List.map_append
  unfold putInGroup
  dsimp only
  by_cases hn : groupName e ∈ es.map groupName
  · rw [if_pos (any_groupsOf.2 hn), groupsOf, groupsOf, hnames, eraseDups_concat, if_pos hn,
      List.map_map]
    refine List.map_congr_left fun n _ => ?_
    rw [members_concat]
    by_cases hname : groupName e = n
    · rw [if_pos hname]
      exact if_pos (beq_iff_eq.2 hname.symm)
    · rw [if_neg hname]
      exact if_neg fun h => hname (beq_iff_eq.1 h).symm
  · have hrest : ∀ n ∈ (es.map groupName).eraseDups, members n (es ++ [e]) = members n es := by
      intro n hmem
      rw [members_concat, if_neg]
      rintro rfl
      exact hn (List.mem_eraseDups.1 hmem)
    rw [if_neg fun h => hn (any_groupsOf.1 h), groupsOf, groupsOf, hnames, eraseDups_concat,
      if_neg hn, List.map_append, List.map_singleton, members_concat, if_pos rfl,
      members_eq_nil_iff.2 hn, List.nil_append]
    refine congrArg (· ++ _) (List.map_congr_left fun n hmem => ?_)
    rw [hrest n hmem]

/-- The loop over the endpoints makes their groups. -/
theorem foldl_putInGroup (es : List Endpoint) : es.foldl putInGroup [] = groupsOf es := by
  induction es using List.reverseRecOn with
  | nil => rfl
  | append_singleton es e ih =>
    rw [List.foldl_append, ih, List.foldl_cons, List.foldl_nil, putInGroup_groupsOf]

/-! ### The commands of a group -/

/-- Add an endpoint to those that stay unless one of them has its command name. -/
def addFirst (kept : List Endpoint) (e : Endpoint) : List Endpoint :=
  if kept.any (commandName · == commandName e) then kept else kept ++ [e]

/-- The first endpoint of each command name. -/
def firstOfName (es : List Endpoint) : List Endpoint := es.foldl addFirst []

theorem firstOfName_concat (es : List Endpoint) (e : Endpoint) :
    firstOfName (es ++ [e]) = addFirst (firstOfName es) e := by
  rw [firstOfName, List.foldl_append, List.foldl_cons, List.foldl_nil, ← firstOfName]

/-- No command name is lost. -/
theorem any_firstOfName (es : List Endpoint) (name : String) :
    (firstOfName es).any (commandName · == name) = es.any (commandName · == name) := by
  induction es using List.reverseRecOn with
  | nil => rfl
  | append_singleton es e ih =>
    rw [firstOfName_concat, addFirst, List.any_append, ← ih]
    by_cases htaken : (firstOfName es).any (commandName · == commandName e)
    · rw [if_pos htaken]
      by_cases hname : commandName e = name
      · rw [← hname, htaken, Bool.true_or]
      · rw [List.any_cons, List.any_nil, beq_eq_false_iff_ne.2 hname, Bool.false_or, Bool.or_false]
    · rw [if_neg htaken, List.any_append]

/-- Whether an endpoint stays is decided by the endpoints before it. -/
theorem firstOfName_concat_eq_ite (es : List Endpoint) (e : Endpoint) :
    firstOfName (es ++ [e]) =
      if es.any (commandName · == commandName e) then firstOfName es
      else firstOfName es ++ [e] := by
  rw [firstOfName_concat, addFirst, any_firstOfName]

theorem firstOfName_sublist (es : List Endpoint) : (firstOfName es).Sublist es := by
  induction es using List.reverseRecOn with
  | nil => exact .slnil
  | append_singleton es e ih =>
    rw [firstOfName_concat_eq_ite]
    split
    · exact ih.trans (List.sublist_append_left es [e])
    · exact ih.append (List.Sublist.refl [e])

theorem nodup_commandName_firstOfName (es : List Endpoint) :
    ((firstOfName es).map commandName).Nodup := by
  induction es using List.reverseRecOn with
  | nil => exact .nil
  | append_singleton es e ih =>
    rw [firstOfName_concat, addFirst]
    split
    · exact ih
    · next hfree =>
      rw [List.map_append, List.map_singleton, List.nodup_append_comm, List.singleton_append,
        List.nodup_cons]
      refine ⟨fun hmem => hfree ?_, ih⟩
      obtain ⟨a, ha, hname⟩ := List.mem_map.1 hmem
      exact List.any_eq_true.2 ⟨a, ha, beq_iff_eq.2 hname⟩

theorem firstOfName_ne_nil {es : List Endpoint} (h : es ≠ []) : firstOfName es ≠ [] := by
  obtain ⟨e, rest, rfl⟩ := List.exists_cons_of_ne_nil h
  intro hnone
  have hany := any_firstOfName (e :: rest) (commandName e)
  rw [hnone, List.any_cons, beq_self_eq_true, Bool.true_or] at hany
  exact Bool.false_ne_true hany

/-- The commands are those of the endpoints, one for one. -/
def AreCommandsOf (commands : List Leaf) (es : List Endpoint) : Prop :=
  List.Forall₂ (fun e c => (compileEndpoint e).answer = .ok c) es commands

/-- A command carries its endpoint and the endpoint's command name. -/
theorem of_compileEndpoint {e : Endpoint} {c : Leaf} (h : (compileEndpoint e).answer = .ok c) :
    c.name = commandName e ∧ c.endpoint = e := by
  unfold compileEndpoint at h
  rw [Run.answer_bind fun _ => .pure _] at h
  obtain ⟨sorted, -, hc⟩ := bind_eq_ok_iff.1 h
  obtain rfl := Except.ok.inj hc
  exact ⟨rfl, rfl⟩

theorem AreCommandsOf.names {commands : List Leaf} {es : List Endpoint}
    (h : AreCommandsOf commands es) : commands.map (·.name) = es.map commandName := by
  induction h with
  | nil => rfl
  | cons hc _ ih => rw [List.map_cons, List.map_cons, (of_compileEndpoint hc).1, ih]

theorem AreCommandsOf.endpoints {commands : List Leaf} {es : List Endpoint}
    (h : AreCommandsOf commands es) : commands.map (·.endpoint) = es := by
  induction h with
  | nil => rfl
  | cons hc _ ih => rw [List.map_cons, (of_compileEndpoint hc).2, ih]

theorem AreCommandsOf.concat {commands : List Leaf} {es : List Endpoint} {c : Leaf} {e : Endpoint}
    (h : AreCommandsOf commands es) (hc : (compileEndpoint e).answer = .ok c) :
    AreCommandsOf (commands ++ [c]) (es ++ [e]) :=
  List.rel_append h (.cons hc .nil)

theorem AreCommandsOf.any_name {commands : List Leaf} {es : List Endpoint}
    (h : AreCommandsOf commands es) (name : String) :
    commands.any (·.name == name) = es.any (commandName · == name) := by
  have hnames : (commands.map (·.name)).any (· == name) =
      (es.map commandName).any (· == name) := by rw [h.names]
  rw [List.any_map, List.any_map] at hnames
  exact hnames

/-- A command is put after the others unless its name is taken. -/
theorem answer_putCommand (group : String) (commands : List Leaf) (e : Endpoint) (c : Leaf) :
    (putCommand group commands e c).answer =
      .ok (if commands.any (·.name == c.name) then commands else commands ++ [c]) := by
  unfold putCommand
  by_cases htaken : commands.any (·.name == c.name)
  · rw [if_pos htaken, if_pos htaken]
    rfl
  · rw [if_neg htaken, if_neg htaken]
    rfl

/-- One round: the commands so far stay those of the endpoints that stay. -/
theorem AreCommandsOf.addCommand {group : String} {commands added : List Leaf} {e : Endpoint}
    {kept : List Endpoint} (h : AreCommandsOf commands kept)
    (hadd : (addCommand group commands e).answer = .ok added) :
    AreCommandsOf added (addFirst kept e) := by
  rw [addCommand_eq_bind, Run.answer_bind (appendsOnly_putCommand group commands e)] at hadd
  obtain ⟨c, hc, hput⟩ := bind_eq_ok_iff.1 hadd
  rw [answer_putCommand] at hput
  obtain rfl := Except.ok.inj hput
  rw [addFirst, h.any_name, (of_compileEndpoint hc).1]
  split
  · exact h
  · exact h.concat hc

/-- All rounds: the commands of a group are those of the first endpoint of each command name. -/
theorem AreCommandsOf.foldlM_addCommand {group : String} {es kept : List Endpoint}
    {commands added : List Leaf} (h : AreCommandsOf commands kept)
    (hadd : (es.foldlM (Command.addCommand group) commands).answer = .ok added) :
    AreCommandsOf added (es.foldl addFirst kept) := by
  rw [Run.answer_foldlM (appendsOnly_addCommand group)] at hadd
  induction es generalizing commands kept with
  | nil =>
    obtain rfl := Except.ok.inj hadd
    exact h
  | cons e es ih =>
    obtain ⟨next, hnext, hrest⟩ := bind_eq_ok_iff.1 hadd
    exact ih (h.addCommand hnext) hrest

/-- A group has the name of its endpoints and the commands of those that stay. -/
theorem of_compileGroup {tagHelp : List (String × String)} {group : String × List Endpoint}
    {g : Group} (h : (compileGroup tagHelp group).answer = .ok g) :
    g.name = group.1 ∧ AreCommandsOf g.commands (firstOfName group.2) := by
  unfold compileGroup at h
  rw [Run.answer_bind fun _ => .pure _] at h
  obtain ⟨commands, hcommands, hg⟩ := bind_eq_ok_iff.1 h
  obtain rfl := Except.ok.inj hg
  exact ⟨rfl, AreCommandsOf.foldlM_addCommand .nil hcommands⟩

/-! ### The places of the endpoints that stay -/

/-- An earlier endpoint that is not deprecated has the group and the command name of the endpoint
`e` at place `i`. -/
def IsShadowed (endpoints : List Endpoint) (i : Nat) (e : Endpoint) : Prop :=
  ∃ a ∈ endpoints.take i,
    a.deprecated = false ∧ groupName a = groupName e ∧ commandName a = commandName e

/-- Some earlier endpoint of the same group has its command name. -/
theorem isShadowed_iff {endpoints : List Endpoint} {i : Nat} {e : Endpoint} :
    IsShadowed endpoints i e ↔
      (members (groupName e) (live (endpoints.take i))).any (commandName · == commandName e) := by
  simp only [IsShadowed, members, live, List.any_eq_true, List.mem_filter, beq_iff_eq,
    Bool.not_eq_true', and_assoc]

/-- Endpoints that come later shadow none. -/
theorem isShadowed_concat {endpoints : List Endpoint} {e a : Endpoint} {i : Nat}
    (hi : i ≤ endpoints.length) :
    IsShadowed (endpoints ++ [e]) i a ↔ IsShadowed endpoints i a := by
  rw [IsShadowed, IsShadowed, List.take_append_of_le_length hi]

/-- The endpoint `e` at place `i` makes a command of the group `name`. -/
def Stays (endpoints : List Endpoint) (name : String) (i : Nat) (e : Endpoint) : Prop :=
  e.deprecated = false ∧ groupName e = name ∧ ¬ IsShadowed endpoints i e

theorem stays_concat {endpoints : List Endpoint} {e a : Endpoint} {name : String} {i : Nat}
    (hi : i ≤ endpoints.length) :
    Stays (endpoints ++ [e]) name i a ↔ Stays endpoints name i a := by
  rw [Stays, Stays, isShadowed_concat hi]

/-- The endpoints of a group that make commands. -/
def staying (endpoints : List Endpoint) (name : String) : List Endpoint :=
  firstOfName (members name (live endpoints))

/-- An endpoint that stays comes after those that stayed before. -/
theorem staying_concat_of_stays {endpoints : List Endpoint} {name : String} {e : Endpoint}
    (h : Stays endpoints name endpoints.length e) :
    staying (endpoints ++ [e]) name = staying endpoints name ++ [e] := by
  obtain ⟨hlive, hname, hfree⟩ := h
  rw [isShadowed_iff, List.take_length, hname] at hfree
  rw [staying, live, List.filter_append, List.filter_cons_of_pos (by simp [hlive]),
    List.filter_nil, ← live, members_concat, if_pos hname, firstOfName_concat_eq_ite,
    if_neg hfree, ← staying]

/-- An endpoint that does not stay changes nothing. -/
theorem staying_concat_of_not_stays {endpoints : List Endpoint} {name : String} {e : Endpoint}
    (h : ¬ Stays endpoints name endpoints.length e) :
    staying (endpoints ++ [e]) name = staying endpoints name := by
  rw [staying, live, List.filter_append, ← live]
  by_cases hlive : e.deprecated
  · rw [List.filter_cons_of_neg (by simp [hlive]), List.filter_nil, List.append_nil, ← staying]
  rw [List.filter_cons_of_pos (by simp [hlive]), List.filter_nil, members_concat]
  by_cases hname : groupName e = name
  · have htaken : IsShadowed endpoints endpoints.length e :=
      not_not.1 fun hfree => h ⟨Bool.eq_false_iff.2 hlive, hname, hfree⟩
    rw [isShadowed_iff, List.take_length, hname] at htaken
    rw [if_pos hname, firstOfName_concat_eq_ite, if_pos htaken, ← staying]
  · rw [if_neg hname, ← staying]

/-- The endpoints `kept` by their places: each of them stands at a place of its own, in the order of
the places, and these are the places at which an endpoint stays. -/
def StandAt (endpoints : List Endpoint) (name : String) (kept : List Endpoint)
    (places : List Nat) : Prop :=
  places.Pairwise (· < ·) ∧ kept.map some = places.map (endpoints[·]?) ∧
    ∀ i e, endpoints[i]? = some e → (i ∈ places ↔ Stays endpoints name i e)

theorem StandAt.lt_length {endpoints kept : List Endpoint} {name : String} {places : List Nat}
    (h : StandAt endpoints name kept places) {i : Nat} (hi : i ∈ places) :
    i < endpoints.length := by
  have hmem : endpoints[i]? ∈ kept.map some := h.2.1 ▸ List.mem_map_of_mem hi
  obtain ⟨e, -, he⟩ := List.mem_map.1 hmem
  exact (List.getElem?_eq_some_iff.1 he.symm).1

/-- The places stay what they are when an endpoint comes after them. -/
theorem StandAt.map_getElem?_concat {endpoints kept : List Endpoint} {name : String}
    {places : List Nat} (h : StandAt endpoints name kept places) (e : Endpoint) :
    kept.map some = places.map ((endpoints ++ [e])[·]?) :=
  h.2.1.trans (List.map_congr_left fun _ hi =>
    (List.getElem?_append_left (h.lt_length hi)).symm)

/-- What stands at a place of a longer list stood there before or comes last. -/
theorem getElem?_concat_cases {α : Type} {as : List α} {last a : α} {i : Nat}
    (h : (as ++ [last])[i]? = some a) :
    i < as.length ∧ as[i]? = some a ∨ i = as.length ∧ a = last := by
  rcases Nat.lt_trichotomy i as.length with hi | rfl | hi
  · rw [List.getElem?_append_left hi] at h
    exact .inl ⟨hi, h⟩
  · rw [List.getElem?_concat_length] at h
    exact .inr ⟨rfl, (Option.some.inj h).symm⟩
  · have hlength := (List.getElem?_eq_some_iff.1 h).1
    rw [List.length_append, List.length_singleton] at hlength
    omega

/-- An endpoint that comes last and stays adds its place. -/
theorem StandAt.concat {endpoints kept : List Endpoint} {name : String} {places : List Nat}
    {e : Endpoint} (h : StandAt endpoints name kept places)
    (he : Stays endpoints name endpoints.length e) :
    StandAt (endpoints ++ [e]) name (kept ++ [e]) (places ++ [endpoints.length]) := by
  refine ⟨?_, ?_, fun i a ha => ?_⟩
  · rw [List.pairwise_append]
    refine ⟨h.1, List.pairwise_singleton _ _, fun i hi j hj => ?_⟩
    rw [List.mem_singleton.1 hj]
    exact h.lt_length hi
  · rw [List.map_append, List.map_append, h.map_getElem?_concat e, List.map_singleton,
      List.map_singleton, List.getElem?_concat_length]
  · rw [List.mem_append, List.mem_singleton]
    rcases getElem?_concat_cases ha with ⟨hi, ha⟩ | ⟨rfl, rfl⟩
    · rw [stays_concat (Nat.le_of_lt hi), or_iff_left (Nat.ne_of_lt hi)]
      exact h.2.2 i a ha
    · rw [stays_concat (Nat.le_refl _)]
      exact iff_of_true (.inr rfl) he

/-- An endpoint that comes last and does not stay adds no place. -/
theorem StandAt.concat_of_not_stays {endpoints kept : List Endpoint} {name : String}
    {places : List Nat} {e : Endpoint} (h : StandAt endpoints name kept places)
    (he : ¬ Stays endpoints name endpoints.length e) :
    StandAt (endpoints ++ [e]) name kept places := by
  refine ⟨h.1, h.map_getElem?_concat e, fun i a ha => ?_⟩
  rcases getElem?_concat_cases ha with ⟨hi, ha⟩ | ⟨rfl, rfl⟩
  · rw [stays_concat (Nat.le_of_lt hi)]
    exact h.2.2 i a ha
  · rw [stays_concat (Nat.le_refl _)]
    exact iff_of_false (fun hi => Nat.lt_irrefl _ (h.lt_length hi)) he

/-- The endpoints of a group that stay have places. -/
theorem exists_standAt (endpoints : List Endpoint) (name : String) :
    ∃ places, StandAt endpoints name (staying endpoints name) places := by
  induction endpoints using List.reverseRecOn with
  | nil => exact ⟨[], .nil, rfl, fun i e he => by cases he⟩
  | append_singleton endpoints e ih =>
    obtain ⟨places, hplaces⟩ := ih
    by_cases he : Stays endpoints name endpoints.length e
    · rw [staying_concat_of_stays he]
      exact ⟨_, hplaces.concat he⟩
    · rw [staying_concat_of_not_stays he]
      exact ⟨places, hplaces.concat_of_not_stays he⟩

/-! ### The tree -/

/-- The commands of a group of a tree are those of the group's live endpoints, each compiled from
its endpoint, of every command name the first one and in the order of the endpoints. -/
structure Group.KeepsFirst (endpoints : List Endpoint) (g : Group) : Prop where
  commands_ne_nil : g.commands ≠ []
  nodup_names : (g.commands.map (·.name)).Nodup
  compiled : ∀ c ∈ g.commands,
    c.name = commandName c.endpoint ∧ (compileEndpoint c.endpoint).answer = .ok c
  endpoints_sublist : (g.commands.map (·.endpoint)).Sublist (members g.name (live endpoints))
  places : ∃ places, StandAt endpoints g.name (g.commands.map (·.endpoint)) places

/-- The commands of the endpoints that stay are the commands of a group. -/
theorem Group.keepsFirst_of_areCommandsOf {endpoints : List Endpoint} {g : Group}
    (hname : g.name ∈ (live endpoints).map groupName)
    (h : AreCommandsOf g.commands (staying endpoints g.name)) : g.KeepsFirst endpoints where
  commands_ne_nil := by
    intro hnone
    have hkept := h.endpoints
    rw [hnone, List.map_nil] at hkept
    exact firstOfName_ne_nil (fun hnil => members_eq_nil_iff.1 hnil hname) hkept.symm
  nodup_names := by
    rw [h.names]
    exact nodup_commandName_firstOfName _
  compiled := by
    intro c hc
    obtain ⟨e, -, he⟩ := exists_mem_of_forall₂ h hc
    obtain ⟨hcname, rfl⟩ := of_compileEndpoint he
    exact ⟨hcname, he⟩
  endpoints_sublist := by
    rw [h.endpoints]
    exact firstOfName_sublist _
  places := by
    rw [h.endpoints]
    exact exists_standAt endpoints g.name

theorem appendsOnly_groupEndpoints (endpoints : List Endpoint) :
    AppendsOnly (groupEndpoints endpoints) := by
  intro log
  rw [Run.answer, Run.records, groupEndpoints_runWith, groupEndpoints_runWith, List.nil_append]

theorem appendsOnly_compile (api : String) (endpoints : List Endpoint)
    (tagHelp : List (String × String)) (help : String) :
    AppendsOnly (compile api endpoints tagHelp help) :=
  (appendsOnly_groupEndpoints endpoints).bind fun groups =>
    (AppendsOnly.mapM (appendsOnly_compileGroup tagHelp) groups).bind fun _ => .pure _

/-- Deprecated endpoints do not change the answer. -/
theorem answer_compile_live (api : String) (endpoints : List Endpoint)
    (tagHelp : List (String × String)) (help : String) :
    (compile api endpoints tagHelp help).answer =
      (compile api (live endpoints) tagHelp help).answer := by
  rw [Run.answer, compile_runWith_live, appendsOnly_compile]

/-- A tree is made of the groups of the live endpoints. -/
theorem of_compile {api : String} {endpoints : List Endpoint} {tagHelp : List (String × String)}
    {help : String} {tree : Tree} (h : (compile api endpoints tagHelp help).answer = .ok tree) :
    List.Forall₂ (fun group g => (compileGroup tagHelp group).answer = .ok g)
      (groupsOf (live endpoints)) tree.groups := by
  unfold compile at h
  rw [Run.answer_bind fun groups =>
    (AppendsOnly.mapM (appendsOnly_compileGroup tagHelp) groups).bind fun _ => .pure _] at h
  obtain ⟨members, hmembers, hgroups⟩ := bind_eq_ok_iff.1 h
  rw [Run.answer, groupEndpoints_runWith, foldl_putInGroup] at hmembers
  obtain rfl := Except.ok.inj hmembers
  rw [Run.answer_bind fun _ => .pure _] at hgroups
  obtain ⟨groups, hcompiled, htree⟩ := bind_eq_ok_iff.1 hgroups
  obtain rfl := Except.ok.inj htree
  rw [Run.answer_mapM (appendsOnly_compileGroup tagHelp)] at hcompiled
  exact mapM_eq_ok_iff.1 hcompiled

/-- The groups of a tree have the names of the groups that they are made of. -/
theorem map_name_of_compileGroup {tagHelp : List (String × String)}
    {groups : List (String × List Endpoint)} {compiled : List Group}
    (h : List.Forall₂ (fun group g => (compileGroup tagHelp group).answer = .ok g) groups compiled) :
    compiled.map (·.name) = groups.map Prod.fst := by
  induction h with
  | nil => rfl
  | cons hg _ ih => rw [List.map_cons, List.map_cons, (of_compileGroup hg).1, ih]

/-- **Nothing is lost and nothing is there twice.**  When an API is compiled, its groups are those
of its live endpoints in the order in which they are met, the commands of each group are those of
its live endpoints except for the ones with an earlier endpoint of their command name, and the
deprecated endpoints have no part in the tree. -/
theorem compile_keepsFirst {api : String} {endpoints : List Endpoint}
    {tagHelp : List (String × String)} {help : String} {log log' : List LogRecord} {tree : Tree}
    (h : (compile api endpoints tagHelp help).runWith log = (.ok tree, log')) :
    tree.groups.map (·.name) = ((live endpoints).map groupName).eraseDups ∧
      (∀ g ∈ tree.groups, g.KeepsFirst endpoints) ∧
      ∀ others log, live others = live endpoints →
        ((compile api others tagHelp help).runWith log).1 = .ok tree := by
  have hanswer : (compile api endpoints tagHelp help).answer = .ok tree := by
    rw [appendsOnly_compile] at h
    exact congrArg Prod.fst h
  have hgroups := of_compile hanswer
  refine ⟨?_, fun g hg => ?_, fun others log hothers => ?_⟩
  · rw [map_name_of_compileGroup hgroups, groupsOf, List.map_map]
    exact List.map_id _
  · obtain ⟨group, hgroup, hg⟩ := exists_mem_of_forall₂ hgroups hg
    obtain ⟨name, hname, rfl⟩ := List.mem_map.1 hgroup
    obtain ⟨rfl, hcommands⟩ := of_compileGroup hg
    exact Group.keepsFirst_of_areCommandsOf (List.mem_eraseDups.1 hname) hcommands
  · rw [appendsOnly_compile, answer_compile_live, hothers, ← answer_compile_live, hanswer]

/-- An endpoint without parameters. -/
def plainEndpoint (method : Spec.Method) (path : String) (tags : List String) (deprecated : Bool) :
    Endpoint where
  path
  method
  operationId := ""
  summary := ""
  description := ""
  parameters := []
  requestBody := none
  responses := []
  tags
  security := []
  deprecated

/-- Two endpoints with one command name, one of them in the default group by its tag. -/
def petEndpoints : List Endpoint := [
  plainEndpoint .get "/a-b" ["pets"] true,
  plainEndpoint .get "/a/b" [] false,
  plainEndpoint .get "/a-b" ["pets"] false,
  plainEndpoint .get "/a-b" ["default"] false,
  plainEndpoint .post "/a-b" [""] false]

/-- The command of an endpoint without parameters. -/
def plainLeaf (name : String) (e : Endpoint) : Leaf where
  name
  help := helpText e
  endpoint := e
  usage := name
  arguments := []
  flags := []

/-- The tree of these endpoints: one of the two has lost its name to the other. -/
def petTree : Tree where
  name := "store"
  help := "Commands for the store API."
  groups := [
    { name := "default"
      help := "Operations tagged 'default'."
      commands := [
        plainLeaf "get-a-b" (plainEndpoint .get "/a/b" [] false),
        plainLeaf "post-a-b" (plainEndpoint .post "/a-b" [""] false)] },
    { name := "pets"
      help := "Operations tagged 'pets'."
      commands := [plainLeaf "get-a-b" (plainEndpoint .get "/a-b" ["pets"] false)] }]

/-- What is said about the endpoints that are left out. -/
def petRecords : List LogRecord := [
  ⟨.debug, "Omitting deprecated GET /a-b"⟩,
  ⟨.warning, "Skipping GET /a-b: command 'get-a-b' already exists under 'default'"⟩]

theorem compile_petEndpoints :
    (compile "store" petEndpoints [] "").runWith [] = (.ok petTree, petRecords) := by rfl

/-- The default group of the tree keeps the first of the two endpoints. -/
theorem compile_keepsFirst_petEndpoints :
    (compile "store" petEndpoints [] "").runWith [] = (.ok petTree, petRecords) ∧
      petTree.groups.map (·.name) = ((live petEndpoints).map groupName).eraseDups ∧
      (∀ g ∈ petTree.groups, g.KeepsFirst petEndpoints) ∧
      ((compile "store" (live petEndpoints) [] "").runWith []).1 = .ok petTree := by
  obtain ⟨hnames, hgroups, hothers⟩ := compile_keepsFirst compile_petEndpoints
  exact ⟨compile_petEndpoints, hnames, hgroups, hothers _ [] (live_live petEndpoints)⟩

end ApiShell.Command
