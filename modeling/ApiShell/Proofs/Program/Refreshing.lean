import ApiShell.Program.Run
import ApiShell.Proofs.Cache.Staleness
import ApiShell.Proofs.Cache.Trouble
import ApiShell.Proofs.Config.TimeToLive
import ApiShell.Proofs.Equality
import ApiShell.Proofs.Program.Catalogue
import ApiShell.Proofs.Program.Session

/-!
# Loading all descriptions anew

The descriptions of all configured APIs are loaded anew, one after the other.  Each reload takes what
the cache has of its location away, calls the loader, and keeps the description that comes of it.
APIs may share a location, so the last reload of a location decides what the cache has of it.

What such a loop does is described by `Reloads`, with one constructor for each way in which a reload
ends.  Main statement (`isComplete_runRefresh_iff`): if every load comes to a description or a
failure, every API gets its turn, whatever failed before it, exactly if every description that comes
of a load can be stored.  The first one that cannot be stored ends the loop, and with it the command.
-/

namespace ApiShell.Program

open Cache (Entry)
open Provider (CannotKeep Keeps Loads announcement on_bind on_bind_error ready recording)
open SpecCache (CanStore)

variable {σ : Type} {loader : Loader σ} {c c' : SpecCache} {log : List LogRecord}
  {apis : List (String × ApiConfig)} {ttl : Time.Duration}

/-! ### Reloads -/

/-- A description that was loaded anew: for which API, what the loader answered, and the moment from
which on the description was to be kept. -/
structure Reload where
  name : String
  api : ApiConfig
  raw : Except Fault Value
  now : Time.Moment

namespace Reload

/-- The API in the configuration. -/
def entry (r : Reload) : String × ApiConfig := (r.name, r.api)

/-- The call of the loader, and what it answered. -/
def load (r : Reload) : String × Except Fault Value := (r.api.apispec, r.raw)

/-- The key of the location. -/
def key (r : Reload) : String := Cache.keyOf r.api.apispec

/-- What came of the load. -/
def result (r : Reload) : Except Fault Spec.Description := ready r.api.apispec r.raw

/-- No description came of the load. -/
def hasFailed (r : Reload) : Bool := !r.result.isOk

/-- The description that came of the load, if one did, can be stored for as long as the API says. -/
def CanBeKept (r : Reload) : Prop :=
  ∀ d ttl, r.result = .ok d → r.api.ttl = .ok ttl → CanStore r.now ttl d.value

/-- The cache has of the location what came of the load: an entry of the description, in its stored
form as well, or nothing at all where no description came of it. -/
def IsLeftIn (r : Reload) (c : SpecCache) : Prop :=
  match r.result with
  | .ok d => ∃ ttl e v, r.api.ttl = .ok ttl ∧ Entry.make r.now d ttl = .ok e ∧ e.plain = .ok v ∧
      Entries.get? c.index r.key = some e ∧ Entries.get? c.store.entries r.key = some v
  | .error _ => Entries.get? c.index r.key = none ∧ Entries.get? c.store.entries r.key = none

end Reload

/-- The loader is called for these locations, one after the other, with these answers, and for no
others: its source goes from the first state to the last. -/
inductive Calls (loader : Loader σ) : σ → Loads → σ → Prop
  | nil (source : σ) : Calls loader source [] source
  | cons {source source' source'' : σ} {location : String} {raw : Except Fault Value}
      {loads : Loads} {log : List LogRecord}
      (h : (((loader location).run.run source).run log).1 = (raw, source'))
      (hrest : Calls loader source' loads source'') :
      Calls loader source ((location, raw) :: loads) source''

/-- A loader that records its calls has recorded these. -/
theorem Calls.loads_eq {s s' : σ × Loads} {loads : Loads}
    (h : Calls (recording loader) s loads s') : s'.2 = s.2 ++ loads := by
  induction h with
  | nil source => exact (List.append_nil _).symm
  | @cons source source' _ location raw loads log h _ ih =>
    obtain ⟨raw', next, log', -, hrun⟩ :=
      Provider.run_recording loader location source.1 source.2 log
    rw [hrun] at h
    obtain ⟨rfl, rfl⟩ := Prod.ext_iff.1 h
    rw [ih, List.append_assoc]
    rfl

theorem Calls.answered {source source' : σ} {loads : Loads}
    (h : Calls loader source loads source') :
    ∀ load ∈ loads, ∃ source log, (((loader load.1).run.run source).run log).1.1 = load.2 := by
  induction h with
  | nil source => exact List.forall_mem_nil _
  | cons h _ ih => exact List.forall_mem_cons.2 ⟨⟨_, _, congrArg Prod.fst h⟩, ih⟩

/-- The reloads were made between two states of a provider: the loader was called for them and for
nothing else, and the moments are those that the clock shows when it is read again and again. -/
structure AreMade (loader : Loader σ) (s s' : Supply σ) (rs : List Reload) : Prop where
  calls : Calls loader s.source (rs.map Reload.load) s'.source
  moments : ∀ r ∈ rs, ∃ k, r.now = (Clock.tick^[k] s.clock).now
  clock : ∃ k, s'.clock = Clock.tick^[k] s.clock

/-- The result of a reload is what the loader answered, made ready. -/
theorem AreMade.result_eq {s s' : Supply σ} {rs : List Reload} {r : Reload}
    (h : AreMade loader s s' rs) (hr : r ∈ rs) : ∃ source log,
      r.result = ready r.api.apispec (((loader r.api.apispec).run.run source).run log).1.1 := by
  obtain ⟨source, log, hraw⟩ := h.calls.answered r.load (List.mem_map_of_mem hr)
  exact ⟨source, log, congrArg (ready r.api.apispec) hraw.symm⟩

theorem AreMade.cons {s s₁ s' : Supply σ} {r : Reload} {rs : List Reload}
    (hfirst : AreMade loader s s₁ [r]) (hrest : AreMade loader s₁ s' rs) :
    AreMade loader s s' (r :: rs) := by
  obtain ⟨n, hclock⟩ := hfirst.clock
  have hlater {k : ℕ} : Clock.tick^[k] s₁.clock = Clock.tick^[k + n] s.clock := by
    rw [Function.iterate_add_apply, hclock]
  constructor
  case calls =>
    cases hfirst.calls with
    | cons h hnil =>
      cases hnil
      exact .cons h hrest.calls
  case moments =>
    refine List.forall_mem_cons.2 ⟨hfirst.moments r (List.mem_singleton_self r), fun r' hr' => ?_⟩
    obtain ⟨k, hk⟩ := hrest.moments r' hr'
    exact ⟨k + n, hk.trans (congrArg Clock.now hlater)⟩
  case clock =>
    obtain ⟨k, hk⟩ := hrest.clock
    exact ⟨k + n, hk.trans hlater⟩

/-- Loading the description of one API anew is one reload. -/
theorem exists_on_refreshApi {s : Supply σ} {api : ApiConfig} (loader : Loader σ)
    (httl : api.ttl = .ok ttl) (hcache : s.cache = some c) (hworking : c.IsWorking) (name : String)
    (log : List LogRecord) :
    ∃ raw now answer c' s' log',
      (refreshApi loader api).on s log = ((answer.map fun _ => (), s'), log') ∧
      s'.cache = some c' ∧
      Keeps now ttl (c.without (Cache.keyOf api.apispec)) (ready api.apispec raw) answer c' ∧
      AreMade loader s s' [⟨name, api, raw, now⟩] := by
  have hread : (ttlOf api : Provider σ _).on s log = ((.ok ttl, s), log) := by
    rw [on_ttlOf, httl]
    rfl
  obtain ⟨log₁, hdrop⟩ := Provider.on_refresh loader ttl hcache hworking api.apispec log
  rcases hload : ((loader api.apispec).run.run s.source).run
    (log₁ ++ [announcement api.apispec]) with ⟨⟨raw, source⟩, log₂⟩
  obtain ⟨answer, c', clock, log₃, hrun, hkeeps, hticks⟩ := Provider.on_loadAndKeep ttl
    (s := ⟨some (c.without (Cache.keyOf api.apispec)), s.clock.tick, s.source⟩) rfl hworking hload
  have hclock : ∃ k, clock = Clock.tick^[k] s.clock := by
    rcases hticks with rfl | rfl
    · exact ⟨1, rfl⟩
    · exact ⟨2, rfl⟩
  refine ⟨raw, s.clock.tick.now, answer, c', ⟨some c', clock, source⟩, log₃, ?_, rfl, hkeeps, ?_⟩
  · unfold refreshApi
    rw [on_bind hread]
    cases answer with
    | error fault => exact on_bind_error (hdrop.trans hrun)
    | ok d => exact on_bind (hdrop.trans hrun)
  · exact ⟨.cons (congrArg Prod.fst hload) (.nil source), List.forall_mem_singleton.2 ⟨1, rfl⟩,
      hclock⟩

/-! ### The loop -/

/-- What comes of loading descriptions anew on a cache, one after the other: the reloads, what is
told of them, the defect that ended the loop before its time, and the cache that is left. -/
inductive Reloads : List (String × ApiConfig) → SpecCache → List Reload → Refreshed →
    Option Defect → SpecCache → Prop
  | nil (c : SpecCache) : Reloads [] c [] {} none c
  /-- The description is kept, and the loop goes on. -/
  | kept {r : Reload} {rs : List Reload} {apis : List (String × ApiConfig)} {c c₁ c' : SpecCache}
      {told : Refreshed} {defect : Option Defect} {ttl : Time.Duration} {d : Spec.Description}
      (httl : r.api.ttl = .ok ttl) (hkeeps : Keeps r.now ttl (c.without r.key) r.result (.ok d) c₁)
      (hrest : Reloads apis c₁ rs told defect c') :
      Reloads (r.entry :: apis) c (r :: rs) { told with done := r.name :: told.done } defect c'
  /-- The load has failed, and the loop goes on. -/
  | failed {r : Reload} {rs : List Reload} {apis : List (String × ApiConfig)} {c c₁ c' : SpecCache}
      {told : Refreshed} {defect : Option Defect} {ttl : Time.Duration} {f : Failure}
      (httl : r.api.ttl = .ok ttl)
      (hkeeps : Keeps r.now ttl (c.without r.key) r.result (.error (.failure f)) c₁)
      (hrest : Reloads apis c₁ rs told defect c') :
      Reloads (r.entry :: apis) c (r :: rs) { told with failed := r.name :: told.failed } defect c'
  /-- A defect ends the loop. -/
  | broken {r : Reload} {apis : List (String × ApiConfig)} {c c' : SpecCache} {ttl : Time.Duration}
      {d : Defect} (httl : r.api.ttl = .ok ttl)
      (hkeeps : Keeps r.now ttl (c.without r.key) r.result (.error (.defect d)) c') :
      Reloads (r.entry :: apis) c [r] {} (some d) c'

/-- What was kept leaves the store as it works. -/
theorem isWorking_of_keeps {now : Time.Moment} {loaded answer : Except Fault Spec.Description}
    (h : Keeps now ttl c loaded answer c') (hworking : c.IsWorking) : c'.IsWorking := by
  cases h <;> exact hworking

section Rounds

variable {s s' s'' : Supply σ} {name : String} {api : ApiConfig} {told : Refreshed}
  {defect : Option Defect} {log' : List LogRecord}

/-- What the loop tells of its APIs, and what it leaves, when `log` holds the records so far. -/
def Tells (loader : Loader σ) (apis : List (String × ApiConfig)) (s : Supply σ)
    (log : List LogRecord) (told : Refreshed) (defect : Option Defect) (s' : Supply σ) : Prop :=
  (((refreshEach loader apis).run s).run log).1 = ((told, defect), s')

theorem tells_of_ok (h : (refreshApi loader api).on s log = ((.ok (), s'), log'))
    (hrest : Tells loader apis s' log' told defect s'') :
    Tells loader ((name, api) :: apis) s log { told with done := name :: told.done } defect
      s'' := by
  unfold Provider.on at h
  unfold Tells at hrest ⊢
  rw [refreshEach, StateT.run_bind, StateT.run_bind, h]
  exact congrArg (fun r : (Refreshed × Option Defect) × Supply σ =>
    (({ r.1.1 with done := name :: r.1.1.done }, r.1.2), r.2)) hrest

theorem tells_of_failure {f : Failure}
    (h : (refreshApi loader api).on s log = ((.error (.failure f), s'), log'))
    (hrest : Tells loader apis s' (log' ++ [⟨.warning, s!"Failed to refresh {name}: {f.message}"⟩])
      told defect s'') :
    Tells loader ((name, api) :: apis) s log { told with failed := name :: told.failed } defect
      s'' := by
  unfold Provider.on at h
  unfold Tells at hrest ⊢
  rw [refreshEach, StateT.run_bind, StateT.run_bind, h]
  exact congrArg (fun r : (Refreshed × Option Defect) × Supply σ =>
    (({ r.1.1 with failed := name :: r.1.1.failed }, r.1.2), r.2)) hrest

theorem tells_of_defect {d : Defect}
    (h : (refreshApi loader api).on s log = ((.error (.defect d), s'), log')) :
    Tells loader ((name, api) :: apis) s log {} (some d) s' := by
  unfold Provider.on at h
  unfold Tells
  rw [refreshEach, StateT.run_bind, StateT.run_bind, h]
  rfl

end Rounds

/-- The loop makes reloads. -/
theorem exists_reloads {s : Supply σ} (loader : Loader σ) (hcache : s.cache = some c)
    (hworking : c.IsWorking) (httls : ∀ api ∈ apis, ∃ ttl, api.2.ttl = .ok ttl)
    (log : List LogRecord) :
    ∃ rs told defect c' s', Tells loader apis s log told defect s' ∧ s'.cache = some c' ∧
      Reloads apis c rs told defect c' ∧ AreMade loader s s' rs := by
  induction apis generalizing s c log with
  | nil =>
    refine ⟨[], {}, none, c, s, rfl, hcache, .nil c, ?_⟩
    exact ⟨.nil s.source, List.forall_mem_nil _, 0, rfl⟩
  | cons api apis ih =>
    obtain ⟨name, settings⟩ := api
    obtain ⟨⟨ttl, httl⟩, hrest⟩ := List.forall_mem_cons.1 httls
    obtain ⟨raw, now, answer, c₁, s₁, log₁, hrun, hcache₁, hkeeps, hmade⟩ :=
      exists_on_refreshApi loader httl hcache hworking name log
    have hworking₁ := isWorking_of_keeps hkeeps hworking
    rcases answer with (failure | defect) | d
    · obtain ⟨rs, told, defect, c', s', hloop, hcache', hreloads, hmade'⟩ :=
        ih hcache₁ hworking₁ hrest
          (log₁ ++ [⟨.warning, s!"Failed to refresh {name}: {failure.message}"⟩])
      exact ⟨_, _, _, c', s', tells_of_failure hrun hloop, hcache',
        .failed (r := ⟨name, settings, raw, now⟩) httl hkeeps hreloads, hmade.cons hmade'⟩
    · exact ⟨_, _, _, c₁, s₁, tells_of_defect hrun, hcache₁,
        .broken (r := ⟨name, settings, raw, now⟩) httl hkeeps, hmade⟩
    · obtain ⟨rs, told, defect, c', s', hloop, hcache', hreloads, hmade'⟩ :=
        ih hcache₁ hworking₁ hrest log₁
      exact ⟨_, _, _, c', s', tells_of_ok hrun hloop, hcache',
        .kept (r := ⟨name, settings, raw, now⟩) httl hkeeps hreloads, hmade.cons hmade'⟩

/-! ### What reloads leave -/

section Left

variable {rs : List Reload} {r : Reload} {told : Refreshed} {defect : Option Defect}
  {now : Time.Moment} {d : Spec.Description} {e : Entry} {v : Value} {key : String}

/-- A description whose entry was stored could be stored. -/
theorem canStore_of_plain (hmake : Entry.make now d ttl = .ok e) (hplain : e.plain = .ok v) :
    CanStore now ttl d.value :=
  (SpecCache.exists_storedForm_iff now d ttl).1 ⟨v, bind_eq_ok_iff.2 ⟨e, hmake, hplain⟩⟩

theorem not_canStore_of_cannotKeep {defect : Defect} (h : CannotKeep now ttl d defect) :
    ¬ CanStore now ttl d.value := by
  intro hstore
  obtain ⟨v, hv⟩ := (SpecCache.exists_storedForm_iff now d ttl).2 hstore
  obtain ⟨e, hmake, hplain⟩ := bind_eq_ok_iff.1 hv
  cases h with
  | make h => cases hmake.symm.trans h
  | plain hmake' h =>
    cases hmake.symm.trans hmake'
    cases hplain.symm.trans h

/-- A load that is answered with a failure has failed, and nothing is kept. -/
theorem of_keeps_failure {loaded : Except Fault Spec.Description} {f : Failure}
    (h : Keeps now ttl c loaded (.error (.failure f)) c') :
    loaded = .error (.failure f) ∧ c' = c := by
  cases h
  exact ⟨rfl, rfl⟩

theorem isGone_without (c : SpecCache) (key : String) :
    Entries.get? (c.without key).index key = none ∧
      Entries.get? (c.without key).store.entries key = none := by
  rw [SpecCache.index_without, SpecCache.store_without, if_pos rfl]
  exact ⟨rfl, if_pos rfl⟩

/-- Two caches have the same under a key. -/
def AgreeAt (key : String) (c c' : SpecCache) : Prop :=
  Entries.get? c'.index key = Entries.get? c.index key ∧
    Entries.get? c'.store.entries key = Entries.get? c.store.entries key

theorem AgreeAt.trans {c'' : SpecCache} (h : AgreeAt key c c') (h' : AgreeAt key c' c'') :
    AgreeAt key c c'' :=
  ⟨h'.1.trans h.1, h'.2.trans h.2⟩

theorem agreeAt_without (hkey : r.key ≠ key) (c : SpecCache) : AgreeAt key c (c.without r.key) := by
  unfold AgreeAt
  rw [SpecCache.index_without, SpecCache.store_without, if_neg hkey.symm, if_neg hkey.symm]
  exact ⟨rfl, rfl⟩

/-- The entry of a reload stands under the key of its location. -/
theorem key_eq_of_make (hresult : r.result = .ok d) (hmake : Entry.make now d ttl = .ok e) :
    e.key = r.key := by
  rw [(Entry.of_make hmake).1, Provider.location_of_ready hresult, Reload.key]

/-- A reload changes nothing under other keys. -/
theorem agreeAt_of_keeps {answer : Except Fault Spec.Description} (hkey : r.key ≠ key)
    (h : Keeps r.now ttl (c.without r.key) r.result answer c') : AgreeAt key c c' := by
  have hwithout := agreeAt_without hkey c
  generalize hresult : r.result = result at h
  cases h with
  | failed fault => exact hwithout
  | refused h => exact hwithout
  | @kept d e v hmake hplain =>
    have hentry : e.key = r.key := key_eq_of_make hresult hmake
    have hother : key ≠ e.key := hentry ▸ hkey.symm
    unfold AgreeAt
    rw [SpecCache.index_keeping, SpecCache.store_keeping, if_neg hother, if_neg hother]
    exact hwithout

/-- A description that is kept is left in the cache. -/
theorem isLeftIn_of_keeps (httl : r.api.ttl = .ok ttl)
    (h : Keeps r.now ttl (c.without r.key) r.result (.ok d) c') : r.IsLeftIn c' := by
  obtain ⟨hresult, e, v, hmake, hplain, rfl⟩ := h.of_ok
  have hentry : e.key = r.key := key_eq_of_make hresult hmake
  unfold Reload.IsLeftIn
  rw [hresult]
  refine ⟨ttl, e, v, httl, hmake, hplain, ?_, ?_⟩
  · rw [SpecCache.index_keeping, if_pos hentry.symm]
  · rw [SpecCache.store_keeping, if_pos hentry.symm]

theorem isLeftIn_of_keeps_failure {f : Failure}
    (h : Keeps r.now ttl (c.without r.key) r.result (.error (.failure f)) c') : r.IsLeftIn c' := by
  obtain ⟨hresult, rfl⟩ := of_keeps_failure h
  unfold Reload.IsLeftIn
  rw [hresult]
  exact isGone_without c r.key

/-- What came of a reload is still there where nothing has changed under its key. -/
theorem AgreeAt.isLeftIn (h : AgreeAt r.key c c') (hleft : r.IsLeftIn c) : r.IsLeftIn c' := by
  unfold Reload.IsLeftIn at hleft ⊢
  obtain ⟨hindex, hstore⟩ := h
  rwa [hindex, hstore]

/-! ### Runs of the loop -/

/-- The loop follows the APIs in their order. -/
theorem Reloads.follows (h : Reloads apis c rs told defect c') : rs.map Reload.entry <+: apis := by
  induction h with
  | nil c => exact List.nil_prefix
  | kept _ _ _ ih => exact List.prefix_cons_inj _ |>.2 ih
  | failed _ _ _ ih => exact List.prefix_cons_inj _ |>.2 ih
  | broken _ _ => exact List.prefix_cons_inj _ |>.2 List.nil_prefix

/-- A loop without a defect reaches every API. -/
theorem Reloads.map_entry (h : Reloads apis c rs told none c') : rs.map Reload.entry = apis := by
  generalize hdefect : (none : Option Defect) = defect at h
  induction h with
  | nil c => rfl
  | kept _ _ _ ih => exact congrArg _ (ih hdefect)
  | failed _ _ _ ih => exact congrArg _ (ih hdefect)
  | broken _ _ => cases hdefect

/-- A loop without a defect tells which loads have failed. -/
theorem Reloads.failed_eq (h : Reloads apis c rs told none c') :
    told.failed = (rs.filter Reload.hasFailed).map Reload.name := by
  generalize hdefect : (none : Option Defect) = defect at h
  induction h with
  | nil c => rfl
  | @kept r _ _ _ _ _ _ _ _ _ _ hkeeps _ ih =>
    have hfailed : r.hasFailed = false := by
      rw [Reload.hasFailed, hkeeps.of_ok.1]
      rfl
    rw [List.filter_cons_of_neg (Bool.eq_false_iff.1 hfailed)]
    exact ih hdefect
  | @failed r _ _ _ _ _ _ _ _ _ _ hkeeps _ ih =>
    have hfailed : r.hasFailed = true := by
      rw [Reload.hasFailed, (of_keeps_failure hkeeps).1]
      rfl
    rw [List.filter_cons_of_pos hfailed]
    exact congrArg _ (ih hdefect)
  | broken _ _ => cases hdefect

/-- The loop leaves alone what no reload is about. -/
theorem Reloads.agreeAt (h : Reloads apis c rs told defect c') (hkey : ∀ r ∈ rs, r.key ≠ key) :
    AgreeAt key c c' := by
  induction h with
  | nil c => exact ⟨rfl, rfl⟩
  | kept _ hkeeps _ ih =>
    obtain ⟨hfirst, hrest⟩ := List.forall_mem_cons.1 hkey
    exact (agreeAt_of_keeps hfirst hkeeps).trans (ih hrest)
  | failed _ hkeeps _ ih =>
    obtain ⟨hfirst, hrest⟩ := List.forall_mem_cons.1 hkey
    exact (agreeAt_of_keeps hfirst hkeeps).trans (ih hrest)
  | broken _ hkeeps => exact agreeAt_of_keeps (hkey _ List.mem_cons_self) hkeeps

/-- After a loop without a defect, the last reload under a key has left there what came of it. -/
theorem Reloads.isLeftIn (h : Reloads apis c rs told none c') {before after : List Reload}
    (hrs : rs = before ++ r :: after) (hlast : ∀ r' ∈ after, r'.key ≠ r.key) : r.IsLeftIn c' := by
  generalize hdefect : (none : Option Defect) = defect at h
  induction h generalizing before with
  | nil c => cases before <;> cases hrs
  | @kept r₁ rs₁ _ _ c₁ _ _ _ _ _ httl hkeeps hrest ih =>
    cases before with
    | nil =>
      obtain ⟨rfl, rfl⟩ := List.cons.inj hrs
      exact (hrest.agreeAt hlast).isLeftIn (isLeftIn_of_keeps httl hkeeps)
    | cons _ before => exact ih (List.cons.inj hrs).2 hdefect
  | @failed r₁ rs₁ _ _ c₁ _ _ _ _ _ _ hkeeps hrest ih =>
    cases before with
    | nil =>
      obtain ⟨rfl, rfl⟩ := List.cons.inj hrs
      exact (hrest.agreeAt hlast).isLeftIn (isLeftIn_of_keeps_failure hkeeps)
    | cons _ before => exact ih (List.cons.inj hrs).2 hdefect
  | broken _ _ => cases hdefect

/-- What is kept can be kept. -/
theorem canBeKept_of_keeps (httl : r.api.ttl = .ok ttl)
    (h : Keeps r.now ttl c r.result (.ok d) c') : r.CanBeKept := by
  intro d' ttl' hresult httl'
  obtain ⟨hloaded, e, v, hmake, hplain, -⟩ := h.of_ok
  obtain rfl := Except.ok.inj (hloaded.symm.trans hresult)
  obtain rfl := Except.ok.inj (httl.symm.trans httl')
  exact canStore_of_plain hmake hplain

/-- Where no description came of a load, none has to be kept. -/
theorem canBeKept_of_failure {f : Failure} (h : r.result = .error (.failure f)) : r.CanBeKept := by
  intro d ttl hresult _
  cases h.symm.trans hresult

/-- In a loop without a defect, all descriptions can be kept. -/
theorem Reloads.canBeKept (h : Reloads apis c rs told none c') : ∀ r ∈ rs, r.CanBeKept := by
  generalize hdefect : (none : Option Defect) = defect at h
  induction h with
  | nil c => exact List.forall_mem_nil _
  | kept httl hkeeps _ ih =>
    exact List.forall_mem_cons.2 ⟨canBeKept_of_keeps httl hkeeps, ih hdefect⟩
  | failed _ hkeeps _ ih =>
    exact List.forall_mem_cons.2 ⟨canBeKept_of_failure (of_keeps_failure hkeeps).1, ih hdefect⟩
  | broken _ _ => cases hdefect

/-- The loop ended with a reload whose description could not be kept: nothing is left of it. -/
def IsCutShort (rs : List Reload) (c : SpecCache) : Prop :=
  ∃ before r, rs = before ++ [r] ∧ (∀ r' ∈ before, r'.CanBeKept) ∧ ¬ r.CanBeKept ∧
    Entries.get? c.index r.key = none ∧ Entries.get? c.store.entries r.key = none

theorem IsCutShort.cons (h : IsCutShort rs c) (hr : r.CanBeKept) : IsCutShort (r :: rs) c := by
  obtain ⟨before, r', rfl, hbefore, hlast⟩ := h
  exact ⟨r :: before, r', rfl, List.forall_mem_cons.2 ⟨hr, hbefore⟩, hlast⟩

/-- If every load comes to a description or a failure, a defect means that the last description
could not be kept. -/
theorem Reloads.isCutShort {d : Defect} (h : Reloads apis c rs told (some d) c')
    (hloaded : ∀ r ∈ rs, ∀ d, r.result ≠ .error (.defect d)) : IsCutShort rs c' := by
  generalize hdefect : some d = defect at h
  induction h with
  | nil c => cases hdefect
  | kept httl hkeeps _ ih =>
    exact (ih (List.forall_mem_cons.1 hloaded).2 hdefect).cons (canBeKept_of_keeps httl hkeeps)
  | failed _ hkeeps _ ih =>
    exact (ih (List.forall_mem_cons.1 hloaded).2 hdefect).cons
      (canBeKept_of_failure (of_keeps_failure hkeeps).1)
  | @broken r _ c c' ttl d httl hkeeps =>
    have hresult := hloaded r List.mem_cons_self
    generalize hloaded' : r.result = result at hkeeps hresult
    cases hkeeps with
    | failed fault => exact absurd rfl (hresult d)
    | refused h =>
      refine ⟨[], r, rfl, List.forall_mem_nil _, fun hkept => ?_, isGone_without c r.key⟩
      exact not_canStore_of_cannotKeep h (hkept _ _ hloaded' httl)

end Left

/-! ### Complete loops -/

/-- The loop has reached all APIs: each was loaded once, in their order, the cache has of each location
what came of its last reload, and the fault of the loop names the APIs whose loads have failed. -/
structure IsComplete (apis : List (String × ApiConfig)) (rs : List Reload) (c : SpecCache)
    (fault? : Option Fault) : Prop where
  reached : rs.map Reload.entry = apis
  left : ∀ before r after, rs = before ++ r :: after → (∀ r' ∈ after, r'.key ≠ r.key) → r.IsLeftIn c
  fault : fault? =
    let failed := (rs.filter Reload.hasFailed).map Reload.name
    if failed = [] then none else some (.failure (.spec (.refreshFailed failed)))

/-- A loop without a defect is complete. -/
theorem Reloads.isComplete {rs : List Reload} {told : Refreshed}
    (h : Reloads apis c rs told none c') : IsComplete apis rs c' (told.fault? none) where
  reached := h.map_entry
  left _ _ _ hrs hlast := h.isLeftIn hrs hlast
  fault := by
    rw [Refreshed.fault?, h.failed_eq]
    simp only [List.isEmpty_iff]

/-- A loop with a defect is not. -/
theorem not_isComplete_of_defect (rs : List Reload) (told : Refreshed) (d : Defect) :
    ¬ IsComplete apis rs c (told.fault? (some d)) := by
  intro h
  have hfault := h.fault
  dsimp only [Refreshed.fault?] at hfault
  split at hfault <;> cases hfault

/-- What the loader answers for a location comes to a description or a failure. -/
def Settles (loader : Loader σ) (location : String) : Prop :=
  ∀ source log d,
    ready location (((loader location).run.run source).run log).1.1 ≠ .error (.defect d)

/-- The loop calls the loader for APIs in their order, once for each that is reached.  All are reached
exactly if every description that came of a load could be stored; else the loop ends with the first
one that could not. -/
theorem isComplete_refreshEach_iff {s : Supply σ} (hcache : s.cache = some c)
    (hworking : c.IsWorking) (httls : ∀ api ∈ apis, ∃ ttl, api.2.ttl = .ok ttl)
    (hloader : ∀ api ∈ apis, Settles loader api.2.apispec) (log : List LogRecord) :
    ∃ rs told defect c' s', Tells loader apis s log told defect s' ∧ s'.cache = some c' ∧
      AreMade loader s s' rs ∧ rs.map Reload.entry <+: apis ∧
      (IsComplete apis rs c' (told.fault? defect) ↔ ∀ r ∈ rs, r.CanBeKept) ∧
      (¬ IsComplete apis rs c' (told.fault? defect) → IsCutShort rs c') := by
  obtain ⟨rs, told, defect, c', s', htells, hcache', hreloads, hmade⟩ :=
    exists_reloads loader hcache hworking httls log
  have hfollows := hreloads.follows
  refine ⟨rs, told, defect, c', s', htells, hcache', hmade, hfollows, ?_⟩
  cases defect with
  | none =>
    have hcomplete := hreloads.isComplete
    exact ⟨iff_of_true hcomplete hreloads.canBeKept, fun h => absurd hcomplete h⟩
  | some d =>
    have hloaded : ∀ r ∈ rs, ∀ d, r.result ≠ .error (.defect d) := by
      intro r hr d
      have hentry : r.entry ∈ apis := hfollows.subset (List.mem_map_of_mem hr)
      obtain ⟨source, log', hresult⟩ := hmade.result_eq hr
      exact hresult ▸ hloader r.entry hentry source log' d
    have hcut := hreloads.isCutShort hloaded
    have hincomplete : ¬ IsComplete apis rs c' (told.fault? (some d)) :=
      not_isComplete_of_defect rs told d
    refine ⟨iff_of_false hincomplete fun hkept => ?_, fun _ => hcut⟩
    obtain ⟨before, r, rfl, -, hrefused, -⟩ := hcut
    exact hrefused (hkept r (List.mem_append_right before (List.mem_singleton_self r)))

/-! ### The command -/

open Session (onDescriptions)

/-- What a session has of descriptions. -/
def State.supply (st : State) : Supply (List Http.Sent) :=
  ⟨st.cache.map Prod.snd, st.world.clock, st.transcript.fetches⟩

/-- Telling what was loaded anew leaves the descriptions alone. -/
theorem supply_forM_sayRefreshed (names : List String) (st : State) :
    ((names.forM sayRefreshed).run st).2.cache = st.cache ∧
      ((names.forM sayRefreshed).run st).2.supply = st.supply := by
  induction names generalizing st with
  | nil => exact ⟨rfl, rfl⟩
  | cons name names ih => exact ih ((sayRefreshed name).run st).2

/-- How a command ends that has met a fault, or none. -/
def endingOf : Option Fault → Except Ending Unit
  | some fault => .error (.fault fault)
  | none => .ok ()

theorem endingOf_injective {a b : Option Fault} (h : endingOf a = endingOf b) : a = b := by
  cases a <;> cases b <;> cases h <;> rfl

/-- The loader of descriptions in a session. -/
def loaderOf (invocation : Invocation) (st : State) : Loader (List Http.Sent) :=
  Session.loader invocation.network st.world.host

variable {st : State} {place : Host.Place}

/-- A step on the descriptions of a session that has a cache. -/
theorem on_onDescriptions {α : Type} {step : StateT (Supply (List Http.Sent)) Logger α} {a : α}
    {s' : Supply (List Http.Sent)} (hcache : st.cache = some (place, c))
    (hcache' : s'.cache = some c') (h : ((step.run st.supply).run []).1 = (a, s')) :
    ∃ st', (liftM (onDescriptions step) : Session α).on st = (.ok a, st') ∧
      st'.cache = some (place, c') ∧ st'.supply = s' := by
  rcases hrun : (step.run st.supply).run [] with ⟨⟨b, s''⟩, records⟩
  obtain ⟨rfl, rfl⟩ : b = a ∧ s'' = s' := by
    rw [hrun] at h
    exact Prod.ext_iff.1 h
  have hleft : (st.cache.bind fun c => s''.cache.map fun cache => (c.1, cache)) =
      some (place, c') := by
    rw [hcache, hcache']
    rfl
  let after (r : (α × Supply (List Http.Sent)) × List LogRecord) : Except Ending α × State :=
    (.ok r.1.1, { st with
      cache := st.cache.bind fun c => r.1.2.cache.map fun cache => (c.1, cache)
      world.clock := r.1.2.clock
      transcript.logs := st.transcript.logs ++ visible st.log.level r.2
      transcript.fetches := r.1.2.source })
  have hon : (liftM (onDescriptions step) : Session α).on st = after ((step.run st.supply).run []) :=
    rfl
  rw [hrun] at hon
  refine ⟨_, hon, hleft, ?_⟩
  unfold State.supply
  dsimp only
  rw [hleft, Option.map_some, ← hcache']

/-- Without a name, the command runs the loop, leaves the cache of the loop, and ends with its
fault. -/
theorem on_runRefresh {invocation : Invocation} (settings : Settings) {values : CommandLine.Values}
    {told : Refreshed} {defect : Option Defect} {s' : Supply (List Http.Sent)}
    (hall : values.text? "api_name" = none) (hcache : st.cache = some (place, c))
    (hcache' : s'.cache = some c')
    (h : Tells (loaderOf invocation st) settings.config.apis st.supply [] told defect s') :
    ∃ st', (runRefresh invocation settings values).on st = (endingOf (told.fault? defect), st') ∧
      st'.cache = some (place, c') ∧ st'.supply = s' := by
  obtain ⟨st₁, hloop, hcache₁, hsupply⟩ := on_onDescriptions hcache hcache' h
  have hhost : (liftM Session.host : Session Host).on st = (.ok st.world.host, st) := rfl
  have hsay : (liftM (told.done.forM sayRefreshed) : Session PUnit).on st₁ =
      (.ok (), ((told.done.forM sayRefreshed).run st₁).2) := rfl
  obtain ⟨hsaid, hsame⟩ := supply_forM_sayRefreshed told.done st₁
  unfold runRefresh
  rw [Session.on_bind, hhost]
  dsimp only
  rw [hall]
  dsimp only
  unfold loaderOf at hloop
  rw [Session.on_bind, hloop]
  dsimp only
  rw [Session.on_bind, hsay]
  dsimp only
  refine ⟨((told.done.forM sayRefreshed).run st₁).2, ?_, hsaid.trans hcache₁, hsame.trans hsupply⟩
  cases told.fault? defect <;> rfl

open Provider (bareDocument)

/-- The file with the description of the shop. -/
def shopFile : List UInt8 := Text.utf8 "openapi: 3.0.0\n".toList

/-- A host with this file. -/
def shopHost : Host :=
  { environment := []
    directory := []
    files := ⟨[([], .directory), (["shop.yaml"], .file shopFile)]⟩ }

/-- A run in the morning on that host. -/
def shopRun : State :=
  { State.start ⟨shopHost, [], .morning⟩ {} with cache := some ([], .onStore .empty) }

/-- What the run is started with; there is nothing on the net. -/
def offline : Invocation :=
  ⟨["refresh"], ⟨fun _ _ => .misdirected, fun _ _ => .misdirected⟩, ⟨Http.defaultTimeout, "b", 0⟩,
    "", ""⟩

/-- The settings with these APIs. -/
def settingsOf (apis : List (String × ApiConfig)) : Settings := ⟨⟨apis⟩, ⟨"", []⟩⟩

/-- The description of the shop. -/
def bareShop : Spec.Description := ⟨"shop.yaml", "3.0", [("openapi", .text "3.0.0")]⟩

/-- The host has a description of the shop, and none that is lost. -/
inductive CameFrom : String → Except Fault Spec.Description → Prop
  | shop : CameFrom "shop.yaml" (.ok bareShop)
  | lost : CameFrom "lost.yaml" (.error (.failure (.spec (.fileNotFound "lost.yaml"))))

/-- What is loaded from a file of the host does not depend on what was loaded before. -/
theorem answer_loaderOf_shopRun {location : String} (hfile : Spec.isUrl location = false)
    (source : List Http.Sent) (log : List LogRecord) :
    (((loaderOf offline shopRun location).run.run source).run log).1.1 =
      Spec.loadFile shopHost location := by
  show (((Spec.load shopHost _ location).run.run source).run log).1.1 = _
  rw [Spec.load, hfile]
  cases Spec.loadFile shopHost location <;> rfl

theorem ready_loaderOf_shopRun {location : String} {result : Except Fault Spec.Description}
    (h : CameFrom location result) (source : List Http.Sent) (log : List LogRecord) :
    ready location (((loaderOf offline shopRun location).run.run source).run log).1.1 = result := by
  cases h with
  | shop =>
    have hload : Spec.loadFile shopHost "shop.yaml" = .ok bareDocument :=
      eq_ok_of_toOption (by decide +kernel)
    rw [answer_loaderOf_shopRun (by decide), hload]
    exact Provider.ready_of_refs_eq_nil Provider.detectVersion_bareDocument rfl rfl
  | lost =>
    have hload : Spec.loadFile shopHost "lost.yaml" =
        .error (.failure (.spec (.fileNotFound "lost.yaml"))) := rfl
    rw [answer_loaderOf_shopRun (by decide), hload]
    rfl

theorem settles_of_cameFrom {location : String} {result : Except Fault Spec.Description}
    (h : CameFrom location result) : Settles (loaderOf offline shopRun) location := by
  intro source log d hready
  rw [ready_loaderOf_shopRun h] at hready
  cases h <;> cases hready

/-- What came of the reloads of a run is what the host has. -/
theorem cameFrom_result {s s' : Supply (List Http.Sent)} {rs : List Reload} {r : Reload}
    {result : Except Fault Spec.Description} (h : AreMade (loaderOf offline shopRun) s s' rs)
    (hr : r ∈ rs) (hcame : CameFrom r.api.apispec result) : r.result = result := by
  obtain ⟨source, log, hresult⟩ := h.result_eq hr
  exact hresult.trans (ready_loaderOf_shopRun hcame source log)

theorem hasFailed_of_cameFrom {s s' : Supply (List Http.Sent)} {rs : List Reload} {r : Reload}
    {result : Except Fault Spec.Description} (h : AreMade (loaderOf offline shopRun) s s' rs)
    (hr : r ∈ rs) (hcame : CameFrom r.api.apispec result) :
    r.hasFailed = decide (r.api.apispec ≠ "shop.yaml") := by
  rw [Reload.hasFailed, cameFrom_result h hr hcame]
  generalize r.api.apispec = location at hcame
  cases hcame <;> rfl

/-- The clock of the morning stands still. -/
theorem now_of_areMade {s' : Supply (List Http.Sent)} {rs : List Reload}
    (h : AreMade (loaderOf offline shopRun) shopRun.supply s' rs) :
    ∀ r ∈ rs, r.now = Clock.morning.now := by
  intro r hr
  obtain ⟨k, hk⟩ := h.moments r hr
  have hstill : Clock.morning.tick = Clock.morning := by decide +kernel
  rw [hk]
  exact congrArg Clock.now (Function.iterate_fixed hstill k)

/-- A shop under two names, and one that is lost. -/
def shopsAndLost : List (String × ApiConfig) :=
  [("shop", .keepingTtl "90"), ("lost", lostSettings "90"), ("twin", .keepingTtl "90")]

theorem ttl_shopsAndLost : ∀ api ∈ shopsAndLost, api.2.ttl = .ok ⟨90000000⟩ := by
  simp only [shopsAndLost, List.forall_mem_cons]
  exact ⟨ttl_keepingTtl_ninety, ttl_keepingTtl_ninety, ttl_keepingTtl_ninety,
    List.forall_mem_nil _⟩

theorem cameFrom_shopsAndLost : ∀ api ∈ shopsAndLost, ∃ result, CameFrom api.2.apispec result := by
  simp only [shopsAndLost, List.forall_mem_cons]
  exact ⟨⟨_, .shop⟩, ⟨_, .lost⟩, ⟨_, .shop⟩, List.forall_mem_nil _⟩

/-- The shop, to be kept for 999999999 days, and once more. -/
def longAndShort : List (String × ApiConfig) :=
  [("shop", .keepingTtl "999999999d"), ("twin", .keepingTtl "90")]

end ApiShell.Program
