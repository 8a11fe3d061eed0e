import ApiShell.Cache.Provider
import ApiShell.Proofs.Cache.Basic
import ApiShell.Proofs.Reference.Cycle
import ApiShell.Proofs.Run

/-!
# What a provider does

A provider of descriptions looks into its cache, and loads and keeps a description that it does not
find there.  Its computations are run on a supply and on the records written so far, and each is
described by what it answers and leaves, step after step: a description that is found is answered
without loading, and one that is not found, or is asked for anew, is loaded by exactly one call of
the loader.
-/

namespace ApiShell.Provider

open Cache (Entry)

variable {σ α β : Type} {p : Provider σ α} {f : α → Provider σ β} {a : α} {s s' : Supply σ}
  {log log' : List LogRecord} {c c' : SpecCache} {location : String} {ttl : Time.Duration}

/-! ### Running computations -/

/-- What a computation answers and leaves on a supply when the records `log` are written already. -/
def on (p : Provider σ α) (s : Supply σ) (log : List LogRecord) :
    (Except Fault α × Supply σ) × List LogRecord :=
  (p.run.run s).run log

theorem on_bind (h : p.on s log = ((.ok a, s'), log')) : (p >>= f).on s log = (f a).on s' log' := by
  unfold on at h ⊢
  rw [ExceptT.run_bind, StateT.run_bind, StateT.run_bind, h]
  rfl

theorem on_bind_error {fault : Fault} (h : p.on s log = ((.error fault, s'), log')) :
    (p >>= f).on s log = ((.error fault, s'), log') := by
  unfold on at h ⊢
  rw [ExceptT.run_bind, StateT.run_bind, StateT.run_bind, h]
  rfl

/-- A step that only logs leaves the supply as it is. -/
theorem on_lift (x : Logger α) (s : Supply σ) (log : List LogRecord) :
    (liftM x : Provider σ α).on s log = ((.ok (x.run log).1, s), (x.run log).2) := rfl

theorem on_get : on (get : Provider σ (Supply σ)) s log = ((.ok s, s), log) := rfl

/-- A step on a cache is made at the present moment, and the clock moves on. -/
theorem on_onCache {step : Time.Moment → CacheTask α} {r : Except Defect α}
    (h : (((step s.clock.now).run.run c).run log) = ((r, c'), log')) :
    (onCache c step).on s log =
      ((.ok r, { s with cache := some c', clock := s.clock.tick }), log') := by
  unfold onCache
  rw [on_bind on_get, on_bind (on_lift _ s log), h]
  rfl

/-- What is done with the cache is answered. -/
theorem on_attempt (complaint : String) (fallback : α) (step : Time.Moment → CacheTask α)
    (hcache : s.cache = some c) (h : SpecCache.Yields (step s.clock.now) c (.ok a) c')
    (log : List LogRecord) : ∃ log', (attempt complaint fallback step).on s log =
      ((.ok a, { s with cache := some c', clock := s.clock.tick }), log') := by
  obtain ⟨log', hstep⟩ : ∃ log', ((step s.clock.now).run.run c).run log = ((.ok a, c'), log') :=
    ⟨_, Prod.ext (h log) rfl⟩
  refine ⟨log', ?_⟩
  unfold attempt
  rw [on_bind on_get, hcache]
  dsimp only
  rw [on_bind (on_onCache hstep)]
  rfl

/-- A defect that is no trouble with the cache ends the computation. -/
theorem on_attempt_error (complaint : String) (fallback : α) (step : Time.Moment → CacheTask α)
    {defect : Defect} (hdefect : troubleText? defect = none) (hcache : s.cache = some c)
    (h : SpecCache.Yields (step s.clock.now) c (.error defect) c') (log : List LogRecord) :
    ∃ log', (attempt complaint fallback step).on s log =
      ((.error (.defect defect), { s with cache := some c', clock := s.clock.tick }), log') := by
  obtain ⟨log', hstep⟩ : ∃ log', ((step s.clock.now).run.run c).run log =
      ((.error defect, c'), log') := ⟨_, Prod.ext (h log) rfl⟩
  refine ⟨log', ?_⟩
  unfold attempt
  rw [on_bind on_get, hcache]
  dsimp only
  rw [on_bind (on_onCache hstep)]
  dsimp only
  rw [hdefect]
  rfl

/-! ### Loading -/

theorem appendsOnly_detectVersion (document : Value) :
    Run.AppendsOnly (Spec.detectVersion document) := by
  unfold Spec.detectVersion
  split
  · exact .stop _
  · dsimp only
    split
    · exact .stop _
    split
    · exact .pure _
    split
    · exact .pure _
    split
    · exact (Run.AppendsOnly.note _ _).bind fun _ => .pure _
    · exact .stop _

/-- Resolving and checking a document of a known version writes no records. -/
theorem appendsOnly_resolved (location : String) (raw : Value) (version : Spec.Version) :
    Run.AppendsOnly (match Reference.resolve raw with
      | .error fault => throw fault
      | .ok document => match Spec.Description.make location version.text document with
        | .error defect => stop defect
        | .ok d => return d) := by
  split
  · exact .stop _
  · split
    · exact .stop _
    · exact .pure _

/-- Making a raw document ready only appends records. -/
theorem appendsOnly_ofRaw (location : String) (raw : Value) :
    Run.AppendsOnly (Spec.Description.ofRaw location raw) :=
  (appendsOnly_detectVersion raw).bind (appendsOnly_resolved location raw)

/-- What a raw document is made ready as, if there is one. -/
def ready (location : String) (raw : Except Fault Value) : Except Fault Spec.Description :=
  raw >>= fun raw => (Spec.Description.ofRaw location raw).answer

/-- The record that announces a load. -/
def announcement (location : String) : LogRecord := ⟨.debug, s!"Loading spec from {location}"⟩

theorem ready_ok (location : String) (raw : Value) :
    ready location (.ok raw) = (Spec.Description.ofRaw location raw).answer := rfl

/-- A raw document without references is made ready as it is. -/
theorem ready_of_refs_eq_nil {raw : Value} {version : Spec.Version} {d : Spec.Description}
    (hversion : (Spec.detectVersion raw).answer = .ok version) (hrefs : raw.refs = [])
    (hmake : Spec.Description.make location version.text raw = .ok d) :
    ready location (.ok raw) = .ok d := by
  have hresolve : Reference.resolve raw = .ok raw :=
    Reference.resolve_eq_ok_iff.2 (Reference.resolves_self_of_refs_eq_nil hrefs)
  have hparts := Run.answer_bind (x := Spec.detectVersion raw) (appendsOnly_resolved location raw)
  refine hparts.trans ?_
  rw [hversion, hresolve]
  show Run.answer _ = _
  simp only [hmake]
  rfl

/-- A description is made ready for its own location. -/
theorem location_of_ready {raw : Except Fault Value} {d : Spec.Description}
    (h : ready location raw = .ok d) : d.location = location := by
  obtain ⟨raw, rfl, h⟩ := bind_eq_ok_iff.1 h
  have hparts := Run.answer_bind (x := Spec.detectVersion raw) (appendsOnly_resolved location raw)
  obtain ⟨version, -, h⟩ := bind_eq_ok_iff.1 (hparts.symm.trans h)
  split at h
  · cases h
  · split at h
    · cases h
    · rename_i made hmake
      obtain rfl := Except.ok.inj h
      obtain ⟨document, -, rfl⟩ := map_eq_ok_iff.1 (mapError_eq_ok_iff.1 hmake)
      rfl

/-- A step on the source leaves the rest of the supply as it is. -/
theorem on_onSource {step : ExceptT Fault (StateT σ Logger) α} {r : Except Fault α} {source : σ}
    (h : (step.run.run s.source).run log = ((r, source), log')) :
    (onSource step).on s log = ((r, { s with source }), log') := by
  show (fun p : (Except Fault α × σ) × List LogRecord => ((p.1.1, { s with source := p.1.2 }), p.2))
    ((step.run.run s.source).run log) = _
  rw [h]

/-- The loader is called once, and what it answers is made ready. -/
theorem on_load {loader : Loader σ} {raw : Except Fault Value} {source : σ}
    (h : ((loader location).run.run s.source).run (log ++ [announcement location]) =
      ((raw, source), log')) :
    ∃ log'', (load loader location).on s log =
      ((ready location raw, { s with source }), log'') := by
  have hrecord : on (liftM (record .debug s!"Loading spec from {location}") : Provider σ Unit) s log =
      ((.ok (), s), log ++ [announcement location]) := rfl
  unfold load
  rw [on_bind hrecord]
  cases raw with
  | error fault =>
    rw [on_bind_error (on_onSource h)]
    exact ⟨log', rfl⟩
  | ok raw =>
    have hready := appendsOnly_ofRaw location raw log'
    unfold Run.runWith at hready
    rw [on_bind (on_onSource h), on_bind (on_lift _ _ log'), hready, ready_ok]
    dsimp only
    cases (Spec.Description.ofRaw location raw).answer with
    | error fault => exact ⟨_, rfl⟩
    | ok d => exact ⟨_, rfl⟩

/-! ### Keeping -/

/-- A description cannot be kept: its time would lie beyond the calendar, or it has no stored form.
-/
inductive CannotKeep (now : Time.Moment) (ttl : Time.Duration) (d : Spec.Description) : Defect → Prop
  | make {defect : Defect} (h : Entry.make now d ttl = .error defect) : CannotKeep now ttl d defect
  | plain {defect : Defect} {e : Entry} (hmake : Entry.make now d ttl = .ok e)
      (h : e.plain = .error defect) : CannotKeep now ttl d defect

/-- What keeps a description from being kept is no trouble with the cache. -/
theorem CannotKeep.troubleText?_eq_none {now : Time.Moment} {d : Spec.Description} {defect : Defect}
    (h : CannotKeep now ttl d defect) : troubleText? defect = none := by
  cases h with
  | make h =>
    unfold Entry.make at h
    split at h
    · cases h
    · cases h
      rfl
  | plain hmake h =>
    rw [Value.plain_eq_error h]
    rfl

theorem CannotKeep.yields {now : Time.Moment} {d : Spec.Description} {defect : Defect}
    (h : CannotKeep now ttl d defect) (c : SpecCache) :
    SpecCache.Yields (SpecCache.keep now d ttl) c (.error defect) c := by
  cases h with
  | make h => exact SpecCache.keep_yields_of_make_error h c
  | plain hmake h => exact SpecCache.keep_yields_of_plain_error hmake h c

/-- What comes of keeping what was loaded: the answer, and the cache that is left. -/
inductive Keeps (now : Time.Moment) (ttl : Time.Duration) (c : SpecCache) :
    Except Fault Spec.Description → Except Fault Spec.Description → SpecCache → Prop
  /-- Nothing was loaded, and nothing is kept. -/
  | failed (fault : Fault) : Keeps now ttl c (.error fault) (.error fault) c
  /-- The description is kept and answered. -/
  | kept {d : Spec.Description} {e : Entry} {v : Value} (hmake : Entry.make now d ttl = .ok e)
      (hplain : e.plain = .ok v) : Keeps now ttl c (.ok d) (.ok d) (c.keeping e v)
  /-- The description cannot be kept, and that is what is answered. -/
  | refused {d : Spec.Description} {defect : Defect} (h : CannotKeep now ttl d defect) :
      Keeps now ttl c (.ok d) (.error (.defect defect)) c

/-- A description that is answered was loaded and is kept. -/
theorem Keeps.of_ok {now : Time.Moment} {loaded : Except Fault Spec.Description}
    {d : Spec.Description} (h : Keeps now ttl c loaded (.ok d) c') :
    loaded = .ok d ∧ ∃ e v, Entry.make now d ttl = .ok e ∧ e.plain = .ok v ∧ c' = c.keeping e v := by
  cases h with
  | kept hmake hplain => exact ⟨rfl, _, _, hmake, hplain, rfl⟩

/-- A description that was loaded and can be kept is answered. -/
theorem Keeps.eq_ok {now : Time.Moment} {d : Spec.Description} {e : Entry} {v : Value}
    {answer : Except Fault Spec.Description} (h : Keeps now ttl c (.ok d) answer c')
    (hmake : Entry.make now d ttl = .ok e) (hplain : e.plain = .ok v) : answer = .ok d := by
  cases h with
  | kept => rfl
  | refused h =>
    cases h with
    | make h => cases hmake.symm.trans h
    | plain hmake' h =>
      cases hmake.symm.trans hmake'
      cases hplain.symm.trans h

/-- Keeping a description that was loaded. -/
theorem on_keep (d : Spec.Description) (ttl : Time.Duration) (hcache : s.cache = some c)
    (hworking : c.IsWorking) (log : List LogRecord) :
    ∃ r c' log', (keep d ttl).on s log =
      ((r, { s with cache := some c', clock := s.clock.tick }), log') ∧
        Keeps s.clock.now ttl c (.ok d) (r.map fun _ => d) c' := by
  have hrefused {defect : Defect} (h : CannotKeep s.clock.now ttl d defect) :
      ∃ r c' log', (keep d ttl).on s log =
        ((r, { s with cache := some c', clock := s.clock.tick }), log') ∧
          Keeps s.clock.now ttl c (.ok d) (r.map fun _ => d) c' := by
    obtain ⟨log', hrun⟩ := on_attempt_error s!"Failed to cache spec for {d.location}" ()
      (fun now => do let _ ← SpecCache.keep now d ttl) h.troubleText?_eq_none hcache
      (h.yields c).bind_error log
    exact ⟨_, c, log', hrun, .refused h⟩
  cases hmake : Entry.make s.clock.now d ttl with
  | error defect => exact hrefused (.make hmake)
  | ok e =>
    cases hplain : e.plain with
    | error defect => exact hrefused (.plain hmake hplain)
    | ok v =>
      obtain ⟨log', hrun⟩ := on_attempt s!"Failed to cache spec for {d.location}" ()
        (fun now => do let _ ← SpecCache.keep now d ttl) hcache
        ((SpecCache.keep_yields hworking hmake hplain).bind (.pure () _)) log
      exact ⟨.ok (), c.keeping e v, log', hrun, .kept hmake hplain⟩

/-- Loading calls the loader once.  What was loaded is kept if it can be. -/
theorem on_loadAndKeep {loader : Loader σ} {raw : Except Fault Value} {source : σ}
    (ttl : Time.Duration) (hcache : s.cache = some c) (hworking : c.IsWorking)
    (h : ((loader location).run.run s.source).run (log ++ [announcement location]) =
      ((raw, source), log')) :
    ∃ r c' clock log'', (loadAndKeep loader location ttl).on s log =
        ((r, ⟨some c', clock, source⟩), log'') ∧
      Keeps s.clock.now ttl c (ready location raw) r c' ∧
      (clock = s.clock ∨ clock = s.clock.tick) := by
  obtain ⟨log₁, hload⟩ := on_load h
  unfold loadAndKeep
  cases hready : ready location raw with
  | error fault =>
    rw [hready] at hload
    rw [on_bind_error hload, hcache]
    exact ⟨_, c, _, _, rfl, .failed fault, .inl rfl⟩
  | ok d =>
    rw [hready] at hload
    rw [on_bind hload]
    obtain ⟨r, c', log₂, hkeep, hkeeps⟩ :=
      on_keep d ttl (s := { s with source }) hcache hworking log₁
    cases r with
    | error fault =>
      rw [on_bind_error hkeep]
      exact ⟨_, c', _, _, rfl, hkeeps, .inr rfl⟩
    | ok u =>
      rw [on_bind hkeep]
      exact ⟨_, c', _, _, rfl, hkeeps, .inr rfl⟩

/-! ### Describing and refreshing -/

/-- A description that is found is answered without loading. -/
theorem on_description_of_found {e : Entry} (loader : Loader σ) (ttl : Time.Duration)
    (hcache : s.cache = some c)
    (h : SpecCache.Yields (SpecCache.lookup s.clock.now (Cache.keyOf location)) c (.ok (some e)) c')
    (log : List LogRecord) :
    ∃ log', (description loader location ttl).on s log =
      ((.ok e.description, { s with cache := some c', clock := s.clock.tick }), log') := by
  obtain ⟨log₁, hlookup⟩ := on_attempt s!"Spec cache read failed for {location}" none
    (fun now => SpecCache.lookup now (Cache.keyOf location)) hcache h log
  unfold description
  rw [on_bind hlookup]
  exact ⟨_, rfl⟩

/-- A description that is not found is loaded. -/
theorem on_description_of_missing (loader : Loader σ) (ttl : Time.Duration)
    (hcache : s.cache = some c)
    (h : SpecCache.Yields (SpecCache.lookup s.clock.now (Cache.keyOf location)) c (.ok none) c')
    (log : List LogRecord) :
    ∃ log', (description loader location ttl).on s log = (loadAndKeep loader location ttl).on
      { s with cache := some c', clock := s.clock.tick } log' := by
  obtain ⟨log₁, hlookup⟩ := on_attempt s!"Spec cache read failed for {location}" none
    (fun now => SpecCache.lookup now (Cache.keyOf location)) hcache h log
  unfold description
  rw [on_bind hlookup]
  exact ⟨_, rfl⟩

/-- Where there is no cache, nothing is done with it. -/
theorem on_attempt_of_no_cache (complaint : String) (fallback : α)
    (step : Time.Moment → CacheTask α) (hcache : s.cache = none) (log : List LogRecord) :
    (attempt complaint fallback step).on s log = ((.ok fallback, s), log) := by
  unfold attempt
  rw [on_bind on_get, hcache]
  rfl

/-- Where there is no cache, a description is loaded and made ready each time. -/
theorem on_description_of_no_cache {loader : Loader σ} {raw : Except Fault Value} {source : σ}
    (ttl : Time.Duration) (hcache : s.cache = none)
    (h : ((loader location).run.run s.source).run (log ++ [announcement location]) =
      ((raw, source), log')) :
    ∃ log'', (description loader location ttl).on s log =
      ((ready location raw, { s with source }), log'') := by
  obtain ⟨log₁, hload⟩ := on_load h
  unfold description
  rw [on_bind (on_attempt_of_no_cache _ _ _ hcache log)]
  dsimp only
  unfold loadAndKeep
  cases hready : ready location raw with
  | error fault =>
    rw [hready] at hload
    rw [on_bind_error hload]
    exact ⟨log₁, rfl⟩
  | ok d =>
    rw [hready] at hload
    have hkeep : (keep d ttl).on { s with source } log₁ = ((.ok (), { s with source }), log₁) :=
      on_attempt_of_no_cache (s := { s with source }) _ _ _ hcache log₁
    rw [on_bind hload, on_bind hkeep]
    exact ⟨log₁, rfl⟩

/-- A description that is asked for anew is taken away and loaded. -/
theorem on_refresh (loader : Loader σ) (ttl : Time.Duration) (hcache : s.cache = some c)
    (hworking : c.IsWorking) (location : String) (log : List LogRecord) :
    ∃ log', (refresh loader location ttl).on s log = (loadAndKeep loader location ttl).on
      { s with cache := some (c.without (Cache.keyOf location)), clock := s.clock.tick } log' := by
  obtain ⟨log₁, hdelete⟩ := on_attempt s!"Failed to drop cached spec for {location}" ()
    (fun _ => SpecCache.delete (Cache.keyOf location)) hcache
    (SpecCache.delete_yields hworking (Cache.keyOf location)) log
  unfold refresh
  rw [on_bind hdelete]
  exact ⟨_, rfl⟩

end ApiShell.Provider
