import ApiShell.Proofs.Run
import ApiShell.Proofs.Text.Split
import ApiShell.Response.DotPath

/-!
# Paths that are continued

A walk along a path goes from mapping to mapping (`Leads`) until one of three things happens: the path
is used up, the step `[]` meets a list, or a step cannot be made.  Exactly one of them happens on every
path (`walk_cases`), and what has happened by the end of a path has happened on every longer one: only a
walk that used its path up goes on, from the value that it has reached.  Since a point ends a step, a
path with a point and another path behind it consists of the steps of both (`steps_continued`).
-/

namespace ApiShell.Response

open Value (field?)

/-! ### How walks end -/

/-- Keys lead into a value: each of them names a field of the mapping that was reached before it. -/
inductive Leads : Value → List String → Value → Prop where
  | here (v : Value) : Leads v [] v
  | field {fields : List (Scalar × Value)} {key : String} {keys : List String} {next v : Value}
      (hfield : field? fields key = some next) (hrest : Leads next keys v) :
      Leads (.mapping fields) (key :: keys) v

/-- A step can be made from a value: it names a field, or stands for a whole list. -/
inductive Admits : Value → String → Prop where
  | field {fields : List (Scalar × Value)} {key : String} {next : Value}
      (hfield : field? fields key = some next) : Admits (.mapping fields) key
  | whole (items : List Value) : Admits (.list items) listStep

/-- A walk ends at the step `[]` on a list, whatever comes behind it. -/
def StopsAt (data : Value) (path : List String) (items : List Value) : Prop :=
  ∃ before after, path = before ++ listStep :: after ∧ Leads data before (.list items)

/-- A walk fails at the step with a number: the steps before it lead to a value that does not admit it. -/
structure FailsAt (data : Value) (path : List String) (n : ℕ) : Prop where
  lt_length : n < path.length
  exists_leads : ∃ v, Leads data (path.take n) v ∧ ¬ Admits v path[n]

variable {data v : Value} {path before after : List String} {items : List Value} {n : ℕ}

/-- A walk goes on from the value that keys lead to. -/
theorem Leads.walk_append (h : Leads data before v) (after : List String) :
    walk data (before ++ after) = walk v after := by
  induction h with
  | here v => rfl
  | field hfield hrest ih =>
    rw [List.cons_append, walk]
    simp only [hfield, ih]

theorem Leads.walk_eq (h : Leads data path v) : walk data path = .ok v := by
  simpa [walk] using h.walk_append []

theorem walk_list (items : List Value) (after : List String) :
    walk (.list items) (listStep :: after) = .ok (.list items) := by
  simp [walk]

theorem StopsAt.walk_eq (h : StopsAt data path items) : walk data path = .ok (.list items) := by
  obtain ⟨before, after, rfl, hleads⟩ := h
  rw [hleads.walk_append, walk_list]

theorem StopsAt.append (h : StopsAt data path items) (more : List String) :
    StopsAt data (path ++ more) items := by
  obtain ⟨before, after, rfl, hleads⟩ := h
  exact ⟨before, after ++ more, by simp, hleads⟩

/-- From a value that does not admit a step no walk goes on, and the reason does not depend on what
comes behind the step. -/
theorem walk_of_not_admits {step : String} (h : ¬ Admits v step) :
    ∃ reason, ∀ after, walk v (step :: after) = .error ⟨step, reason⟩ := by
  cases v with
  | mapping fields =>
    cases hfield : field? fields step with
    | some next => exact absurd (.field hfield) h
    | none => exact ⟨"no such key", fun after => by rw [walk]; simp only [hfield]⟩
  | list items =>
    have hstep : step ≠ listStep := by
      rintro rfl
      exact h (.whole items)
    exact ⟨_, fun after => by rw [walk, if_neg hstep]⟩
  | scalar s => exact ⟨_, fun after => rfl⟩
  | set ms => exact ⟨_, fun after => rfl⟩
  | pair a b => exact ⟨_, fun after => rfl⟩

/-- A walk that fails does so at its step, however the path goes on. -/
theorem FailsAt.walk_append (h : FailsAt data path n) :
    ∃ stuck : Stuck, path[n]? = some stuck.step ∧
      ∀ more, walk data (path ++ more) = .error stuck := by
  obtain ⟨hn, v, hleads, hv⟩ := h
  obtain ⟨reason, hreason⟩ := walk_of_not_admits hv
  refine ⟨⟨path[n], reason⟩, List.getElem?_eq_getElem hn, fun more => ?_⟩
  have hsplit : path ++ more = path.take n ++ (path[n] :: (path.drop (n + 1) ++ more)) := by
    rw [← List.cons_append, List.getElem_cons_drop, ← List.append_assoc, List.take_append_drop]
  rw [hsplit, hleads.walk_append, hreason]

theorem FailsAt.append (h : FailsAt data path n) (more : List String) :
    FailsAt data (path ++ more) n := by
  obtain ⟨hn, v, hleads, hv⟩ := h
  refine ⟨by rw [List.length_append]; omega, v, ?_, ?_⟩
  · rwa [List.take_append_of_le_length (Nat.le_of_lt hn)]
  · rwa [List.getElem_append_left hn]

/-- A path is used up, or it stops at a whole list, or it fails. -/
theorem walk_cases (data : Value) (path : List String) :
    (∃ v, Leads data path v) ∨ (∃ items, StopsAt data path items) ∨ ∃ n, FailsAt data path n := by
  induction path generalizing data with
  | nil => exact .inl ⟨data, .here data⟩
  | cons step path ih =>
    by_cases hstep : Admits data step
    · cases hstep with
      | whole items => exact .inr (.inl ⟨items, [], path, rfl, .here _⟩)
      | @field fields key next hfield =>
        rcases ih next with ⟨v, hv⟩ | ⟨items, before, after, rfl, hleads⟩ | ⟨n, hn, v, hleads, hv⟩
        · exact .inl ⟨v, .field hfield hv⟩
        · exact .inr (.inl ⟨items, step :: before, after, rfl, .field hfield hleads⟩)
        · exact .inr (.inr ⟨n + 1, Nat.succ_lt_succ hn, v, .field hfield hleads, hv⟩)
    · exact .inr (.inr ⟨0, Nat.succ_pos _, data, .here data, hstep⟩)

/-- A walk that succeeds has used its path up or stopped at a whole list. -/
theorem leads_or_stopsAt_of_walk (h : walk data path = .ok v) :
    Leads data path v ∨ ∃ items, StopsAt data path items := by
  rcases walk_cases data path with ⟨v', hleads⟩ | hstops | ⟨n, hfails⟩
  · obtain rfl : v = v' := Except.ok.inj (h.symm.trans hleads.walk_eq)
    exact .inl hleads
  · exact .inr hstops
  · obtain ⟨stuck, -, hstuck⟩ := hfails.walk_append
    have hfailed := hstuck []
    rw [List.append_nil, h] at hfailed
    cases hfailed

/-- A walk that does not succeed fails at one of its steps, and any longer one fails there as well. -/
theorem exists_failsAt_of_walk {stuck : Stuck} (h : walk data path = .error stuck) :
    ∃ n, path[n]? = some stuck.step ∧ FailsAt data path n ∧
      ∀ more, walk data (path ++ more) = .error stuck := by
  rcases walk_cases data path with ⟨v, hleads⟩ | ⟨items, hstops⟩ | ⟨n, hfails⟩
  · rw [hleads.walk_eq] at h
    cases h
  · rw [hstops.walk_eq] at h
    cases h
  · obtain ⟨stuck', hstep, hstuck⟩ := hfails.walk_append
    have hfailed := hstuck []
    rw [List.append_nil, h] at hfailed
    obtain rfl := Except.error.inj hfailed
    exact ⟨n, hstep, hfails, hstuck⟩

/-! ### Steps and points -/

theorem steps_join {keys : List String} (hne : keys ≠ []) (hpoint : ∀ key ∈ keys, '.' ∉ key.toList) :
    steps (Text.join "." keys) = keys := by
  have hpieces : ∀ piece ∈ keys.map String.toList, '.' ∉ piece := by
    intro piece hpiece
    obtain ⟨key, hkey, rfl⟩ := List.mem_map.1 hpiece
    exact hpoint key hkey
  have hcut := Text.splitAt_joinWith (by simpa using hne) hpieces
  rw [steps, Text.split, Text.join, String.toList_ofList]
  show (Text.splitAt '.' (Text.joinWith ['.'] (keys.map String.toList))).map String.ofList = keys
  rw [hcut, List.map_map]
  simp [Function.comp_def]

/-- A point ends a step. -/
theorem steps_continued (p q : String) : steps (p ++ "." ++ q) = steps p ++ steps q := by
  have hlist : (p ++ "." ++ q).toList = p.toList ++ '.' :: q.toList := by
    simp
  rw [steps, Text.split, hlist, Text.splitAt_append_cons, List.map_append]
  rfl

/-! ### Looking up -/

variable {p : String}

theorem lookup_eq_ok_iff : lookup data p = .ok v ↔ walk data (steps p) = .ok v := by
  rw [lookup, mapError_eq_ok_iff]

theorem lookup_eq_error {stuck : Stuck} (h : walk data (steps p) = .error stuck) :
    lookup data p = .error (.pathNotFound p stuck.step stuck.reason) := by
  rw [lookup, h]
  rfl

/-- A path that fails has a step that cannot be made. -/
theorem exists_walk_eq_error {e : Failure} (h : lookup data p = .error e) :
    ∃ stuck, walk data (steps p) = .error stuck ∧ e = .pathNotFound p stuck.step stuck.reason := by
  cases hwalk : walk data (steps p) with
  | ok v =>
    rw [lookup_eq_ok_iff.2 hwalk] at h
    cases h
  | error stuck => exact ⟨stuck, rfl, Except.error.inj (h.symm.trans (lookup_eq_error hwalk))⟩

/-- Paths compose.  A path that is continued leads where its second part leads from the value of the
first, unless the first part ends at a whole list or fails: then that is also how the longer path ends.
Keys without points that lead through nested mappings make a path to the value there. -/
theorem lookup_continued (data : Value) (p : String) :
    (∀ v, lookup data p = .ok v → (¬ ∃ items, StopsAt data (steps p) items) →
      ∀ q w, lookup data (p ++ "." ++ q) = .ok w ↔ lookup v q = .ok w) ∧
    (∀ items, StopsAt data (steps p) items →
      lookup data p = .ok (.list items) ∧ ∀ q, lookup data (p ++ "." ++ q) = .ok (.list items)) ∧
    (∀ e, lookup data p = .error e → ∃ n step reason, (steps p)[n]? = some step ∧
      FailsAt data (steps p) n ∧ e = .pathNotFound p step reason ∧
      ∀ q, FailsAt data (steps (p ++ "." ++ q)) n ∧
        lookup data (p ++ "." ++ q) = .error (.pathNotFound (p ++ "." ++ q) step reason)) ∧
    ∀ keys, keys ≠ [] → (∀ key ∈ keys, '.' ∉ key.toList) → ∀ v, Leads data keys v →
      lookup data (Text.join "." keys) = .ok v := by
  refine ⟨?composed, ?whole, ?failed, ?keys⟩
  case composed =>
    intro v hv hnone q w
    have hleads := (leads_or_stopsAt_of_walk (lookup_eq_ok_iff.1 hv)).resolve_right hnone
    rw [lookup_eq_ok_iff, lookup_eq_ok_iff, steps_continued, hleads.walk_append]
  case whole =>
    intro items hstops
    refine ⟨lookup_eq_ok_iff.2 hstops.walk_eq, fun q => ?_⟩
    rw [lookup_eq_ok_iff, steps_continued]
    exact (hstops.append (steps q)).walk_eq
  case failed =>
    intro e he
    obtain ⟨stuck, hstuck, rfl⟩ := exists_walk_eq_error he
    obtain ⟨n, hstep, hfails, hmore⟩ := exists_failsAt_of_walk hstuck
    refine ⟨n, stuck.step, stuck.reason, hstep, hfails, rfl, fun q => ?_⟩
    have hcontinued := hmore (steps q)
    rw [← steps_continued] at hcontinued
    refine ⟨?_, lookup_eq_error hcontinued⟩
    rw [steps_continued]
    exact hfails.append (steps q)
  case keys =>
    intro keys hne hpoint v hleads
    rw [lookup_eq_ok_iff, steps_join hne hpoint]
    exact hleads.walk_eq

/-- A response with an owner, who has a city and tags. -/
def ownerResponse : Value :=
  .ofFields [("owner", .ofFields [("home", .ofFields [("city", .text "Oslo")]),
    ("tags", .list [.text "a", .text "b"])])]

theorem leads_ownerResponse : Leads ownerResponse ["owner", "tags"] (.list [.text "a", .text "b"]) :=
  .field rfl (.field rfl (.here _))

theorem lookup_continued_ownerResponse :
    lookup ownerResponse "owner.home.city" = .ok (.text "Oslo") ∧
    lookup ownerResponse "owner.tags" = .ok (.list [.text "a", .text "b"]) ∧
    lookup ownerResponse "owner.tags.[].name" = .ok (.list [.text "a", .text "b"]) ∧
    lookup ownerResponse "owner.city.name" =
      .error (.pathNotFound "owner.city.name" "city" "no such key") := by
  obtain ⟨hcomposed, -, -, hkeys⟩ := lookup_continued ownerResponse "owner"
  obtain ⟨-, hwhole, -, -⟩ := lookup_continued ownerResponse "owner.tags.[]"
  obtain ⟨-, -, hfailed, -⟩ := lookup_continued ownerResponse "owner.city"
  refine ⟨?composed, ?keys, ?whole, ?failed⟩
  case composed =>
    have hnone : ¬ ∃ items, StopsAt ownerResponse (steps "owner") items := by
      rintro ⟨items, before, after, hpath, -⟩
      have hmem : listStep ∈ steps "owner" := by
        rw [hpath]
        simp
      exact absurd hmem (by decide)
    exact (hcomposed _ rfl hnone "home.city" _).2 rfl
  case keys => exact hkeys ["owner", "tags"] (by simp) (by decide) _ leads_ownerResponse
  case whole => exact (hwhole _ ⟨["owner", "tags"], [], rfl, leads_ownerResponse⟩).2 "name"
  case failed =>
    have herror : lookup ownerResponse "owner.city" =
        .error (.pathNotFound "owner.city" "city" "no such key") := rfl
    obtain ⟨n, step, reason, -, -, heq, hmore⟩ := hfailed _ herror
    cases heq
    exact (hmore "name").2

end ApiShell.Response
