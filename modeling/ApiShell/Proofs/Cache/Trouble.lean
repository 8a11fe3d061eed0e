import ApiShell.Proofs.Cache.Providing
import ApiShell.Proofs.Reference.Dangling
import ApiShell.Proofs.Time.Calendar
import ApiShell.Time.DurationText

/-!
# Trouble with the cache

Anything may stand in a cache and any action of its store may have stopped working.  This module says
what a provider answers then.  A step on the cache that meets trouble counts as one that found
nothing, so the answer depends on the cache in two places only: the fresh entry that it has, and what
an entry of the description would need in order to be stored.

Main statement: a description that is not in the cache, that is loaded, whose version is known and
whose references are resolved is answered, except where its fields do not stand under texts, where
the cache has an entry without a distance to universal time, or where the moment until which the
description should be kept lies beyond the calendar or the description has no stored form.  The last
two have nothing to do with the description that was asked for.
-/

namespace ApiShell

open Cache (Entry Store)

/-! ### What a cache has -/

namespace SpecCache

variable {c : SpecCache} {now : Time.Moment} {key : String}

/-- The entry that the index or else the store has under a key, whether its time is over or not. -/
def found (c : SpecCache) (key : String) : Except Defect (Option Entry) :=
  match Entries.get? c.index key with
  | some e => .ok (some e)
  | none => do
    match ← c.store.get key with
    | none => return none
    | some v => Checked.orDefect ((Entry.check v).map some)

theorem find_yields (c : SpecCache) (key : String) : Yields (find key) c (c.found key) c := by
  unfold find found
  refine .bind (a := c) (fun _ => rfl) ?_
  cases Entries.get? c.index key with
  | some e => exact .pure _ c
  | none =>
    cases hget : c.store.get key with
    | error defect => exact .bind_error (.orStop _ c)
    | ok v? =>
      refine .bind (.orStop _ c) ?_
      cases v? with
      | none => exact .pure _ c
      | some v => exact .orStop _ c

/-- The entry that a cache has under a key and whose time is not over.  Trouble with the store or
with what stands there leaves no entry. -/
def fresh (c : SpecCache) (now : Time.Moment) (key : String) : Except Defect (Option Entry) :=
  match c.found key with
  | .ok (some e) => (e.isExpired now).map fun expired => if expired then none else some e
  | _ => .ok none

/-- Only an entry without a distance to universal time cannot be told fresh or not. -/
theorem fresh_eq_error_iff {defect : Defect} :
    c.fresh now key = .error defect ↔
      defect = .wrongKind ∧ ∃ e, c.found key = .ok (some e) ∧ e.expiresAt.offset = none := by
  unfold fresh
  cases hfound : c.found key with
  | error d => simp
  | ok e? =>
    cases e? with
    | none => simp
    | some e =>
      dsimp only
      rw [map_eq_error_iff]
      cases hoffset : e.expiresAt.offset with
      | none => simp [Entry.isExpired, hoffset, eq_comm]
      | some seconds => simp [Entry.isExpired, hoffset]

/-- A defect that a provider copes with. -/
def IsTrouble (defect : Defect) : Prop := ∃ text, Provider.troubleText? defect = some text

theorem isTrouble_failure : IsTrouble Store.failure := ⟨_, rfl⟩

/-- Whatever a store does, the only thing it fails with is that it has stopped doing so. -/
theorem isTrouble_of_stopped {α : Type} {stopped : Bool} {a : α} {defect : Defect}
    (h : (if stopped then .error Store.failure else .ok a : Except Defect α) = .error defect) :
    IsTrouble defect := by
  split at h
  · exact Except.error.inj h ▸ isTrouble_failure
  · cases h

theorem isTrouble_fields (faults : List FieldFault) : IsTrouble (.fields faults) := ⟨_, rfl⟩

/-- What keeps anything from being found is trouble. -/
theorem isTrouble_of_found {defect : Defect} (h : c.found key = .error defect) :
    IsTrouble defect := by
  unfold found at h
  cases hindex : Entries.get? c.index key with
  | some e => simp [hindex] at h
  | none =>
    rw [hindex] at h
    rcases bind_eq_error_iff.1 h with hget | ⟨v?, -, h⟩
    · exact isTrouble_of_stopped hget
    · cases v? with
      | none => cases h
      | some v =>
        dsimp only at h
        cases hcheck : Entry.check v with
        | ok e =>
          rw [hcheck] at h
          cases h
        | error faults =>
          rw [hcheck] at h
          exact Except.error.inj h ▸ isTrouble_fields faults

/-- An entry is taken away, or its store has stopped doing so. -/
theorem exists_delete_yields (c : SpecCache) (key : String) :
    ∃ r c', Yields (delete key) c r c' ∧ ∀ defect, r = .error defect → IsTrouble defect := by
  unfold delete
  cases hdelete : c.store.delete key with
  | error defect =>
    refine ⟨.error defect, ⟨Entries.erase c.index key, c.store⟩, ?_, ?_⟩
    · refine .bind (fun _ => rfl) (.bind (fun _ => rfl) (.bind_error ?_))
      exact hdelete ▸ .orStop _ _
    · rintro _ ⟨⟩
      exact isTrouble_of_stopped hdelete
  | ok store =>
    have hstore : Yields (SpecCache.orStop (c.store.delete key))
        ⟨Entries.erase c.index key, c.store⟩ (.ok store) ⟨Entries.erase c.index key, c.store⟩ := by
      rw [hdelete]
      exact .orStop _ _
    refine ⟨.ok (), ⟨Entries.erase c.index key, store⟩, ?_, nofun⟩
    exact .bind (fun _ => rfl) (.bind (fun _ => rfl) (.bind hstore fun _ => rfl))

/-- Looking up answers the fresh entry, unless trouble hides that there is none. -/
theorem exists_lookup_yields (c : SpecCache) (now : Time.Moment) (key : String) :
    ∃ r c', Yields (lookup now key) c r c' ∧
      (r = c.fresh now key ∨ c.fresh now key = .ok none ∧ ∃ d, r = .error d ∧ IsTrouble d) := by
  have hfind := find_yields c key
  unfold fresh
  cases hfound : c.found key with
  | error d =>
    rw [hfound] at hfind
    exact ⟨_, c, hfind.bind_error, .inr ⟨rfl, d, rfl, isTrouble_of_found hfound⟩⟩
  | ok e? =>
    rw [hfound] at hfind
    cases e? with
    | none => exact ⟨_, c, lookup_yields_none hfind now, .inl rfl⟩
    | some e =>
      cases hexpired : e.isExpired now with
      | error d =>
        refine ⟨.error d, c, hfind.bind ?_, .inl (by simp [hexpired, Except.map])⟩
        exact .bind_error (hexpired ▸ .orStop _ c)
      | ok expired =>
        cases expired with
        | false =>
          have hlive := lookup_yields_of_live hfind hexpired
          exact ⟨_, _, hlive, .inl (by simp [hexpired, Except.map])⟩
        | true =>
          obtain ⟨r, c', hdelete, htrouble⟩ := exists_delete_yields c key
          have hstart {r' : Except Defect (Option Entry)}
              (h : Yields (do delete key; return none) c r' c') :
              Yields (lookup now key) c r' c' := by
            refine hfind.bind ?_
            dsimp only
            rw [hexpired]
            exact .bind (.orStop _ c) (.bind (.record _ _ c) h)
          cases r with
          | ok u =>
            exact ⟨_, c', hstart (hdelete.bind (.pure _ _)), .inl (by simp [hexpired, Except.map])⟩
          | error d =>
            refine ⟨_, c', hstart hdelete.bind_error, .inr ⟨?_, d, rfl, htrouble d rfl⟩⟩
            simp [hexpired, Except.map]

/-- The stored form of the entry that keeps a description. -/
def storedForm (now : Time.Moment) (d : Spec.Description) (ttl : Time.Duration) :
    Except Defect Value := Entry.make now d ttl >>= Entry.plain

/-- A description is kept if its entry has a stored form, unless trouble hides that it has one. -/
theorem exists_keep_yields (c : SpecCache) (now : Time.Moment) (d : Spec.Description)
    (ttl : Time.Duration) :
    ∃ r c', Yields (do let _ ← keep now d ttl) c r c' ∧
      (r = (storedForm now d ttl).map (fun _ => ()) ∨
        (∃ v, storedForm now d ttl = .ok v) ∧ ∃ d, r = .error d ∧ IsTrouble d) := by
  unfold storedForm
  cases hmake : Entry.make now d ttl with
  | error defect =>
    exact ⟨_, c, (keep_yields_of_make_error hmake c).bind_error, .inl rfl⟩
  | ok e =>
    cases hplain : e.plain with
    | error defect =>
      have hform : (Except.ok e >>= Entry.plain : Except Defect Value) = .error defect := hplain
      refine ⟨_, c, (keep_yields_of_plain_error hmake hplain c).bind_error, .inl ?_⟩
      rw [hform]
      rfl
    | ok v =>
      have hform : (Except.ok e >>= Entry.plain : Except Defect Value) = .ok v := hplain
      have hstart {r : Except Defect Entry} {c' : SpecCache}
          (h : Yields (do
              let store ← SpecCache.orStop (c.store.set e.key v)
              modify fun c => { c with store }
              remember e.key e
              return e) c r c') : Yields (keep now d ttl) c r c' := by
        unfold keep
        rw [hmake]
        refine .bind (.orStop _ c) (.bind (a := v) ?_ (.bind (fun _ => rfl) h))
        exact hplain ▸ .orStop _ c
      rw [hform]
      cases hset : c.store.set e.key v with
      | error defect =>
        rw [hset] at hstart
        have hkeep := hstart (.bind_error (.orStop _ c))
        exact ⟨_, c, hkeep.bind_error, .inr ⟨⟨v, rfl⟩, defect, rfl, isTrouble_of_stopped hset⟩⟩
      | ok store =>
        rw [hset] at hstart
        have hkeep : Yields (keep now d ttl) c (.ok e)
            ⟨Entries.put c.index e.key e, store⟩ :=
          hstart (.bind (.orStop _ c) (.bind (fun _ => rfl) fun _ => rfl))
        exact ⟨_, _, hkeep.bind (.pure () _), .inl rfl⟩

/-- A value can be stored for a while from `now` on: the end of that while lies in the calendar, and
the value has a plain form. -/
def CanStore (now : Time.Moment) (ttl : Time.Duration) (v : Value) : Prop :=
  (∃ m, Time.Moment.ofInstant? (now.instant + ttl.micros) = some m) ∧ ∃ w, v.plain = .ok w

/-- The entry of a description has a stored form exactly if the description can be stored. -/
theorem exists_storedForm_iff (now : Time.Moment) (d : Spec.Description) (ttl : Time.Duration) :
    (∃ v, storedForm now d ttl = .ok v) ↔ CanStore now ttl d.value := by
  constructor
  · rintro ⟨v, hv⟩
    obtain ⟨e, hmake, hplain⟩ := bind_eq_ok_iff.1 hv
    obtain ⟨-, rfl, -⟩ := Entry.of_make hmake
    have hend : ∃ m, Time.Moment.ofInstant? (now.instant + ttl.micros) = some m := by
      unfold Entry.make at hmake
      split at hmake
      · exact ⟨_, ‹_›⟩
      · cases hmake
    rw [Entry.plain_eq_map] at hplain
    obtain ⟨fields, hfields, -⟩ := map_eq_ok_iff.1 hplain
    refine ⟨hend, .ofFields (Entries.ofList fields), ?_⟩
    rw [Spec.Description.value, Value.ofFields_eq, Value.plain]
    exact map_eq_ok_iff.2 ⟨fields, hfields, rfl⟩
  · rintro ⟨⟨m, hm⟩, w, hw⟩
    have hmake : Entry.make now d ttl =
        .ok ⟨Cache.keyOf d.location, d.location, d.version, d.document, now, m⟩ := by
      rw [Entry.make, hm]
    obtain ⟨v, hv⟩ := Entry.exists_plain_of_make hmake hw
    exact ⟨v, bind_eq_ok_iff.2 ⟨_, hmake, hv⟩⟩

/-- Two things keep an entry from having a stored form. -/
theorem storedForm_eq_error {d : Spec.Description} {ttl : Time.Duration} {defect : Defect}
    (h : storedForm now d ttl = .error defect) : defect = .outOfRange ∨ defect = .notPlain := by
  rcases bind_eq_error_iff.1 h with hmake | ⟨e, -, hplain⟩
  · unfold Entry.make at hmake
    split at hmake
    · cases hmake
    · exact .inl (Except.error.inj hmake).symm
  · exact .inr (Value.plain_eq_error hplain)

end SpecCache

/-! ### What a provider makes of it -/

namespace Provider

open SpecCache (IsTrouble CanStore storedForm)

variable {σ α : Type} {loader : Loader σ} {location : String} {raw : Except Fault Value}
  {s : Supply σ} {source : σ}

/-- What a provider makes of the answer of a step on its cache. -/
def settled (fallback : α) : Except Defect α → Except Fault α
  | .ok a => .ok a
  | .error defect => if (troubleText? defect).isSome then .ok fallback else .error (.defect defect)

theorem settled_of_isTrouble {defect : Defect} (h : IsTrouble defect) (fallback : α) :
    settled fallback (.error defect) = .ok fallback := by
  obtain ⟨text, htext⟩ := h
  rw [settled, htext]
  rfl

theorem settled_of_troubleText?_eq_none {defect : Defect} (h : troubleText? defect = none)
    (fallback : α) : settled fallback (.error defect) = .error (.defect defect) := by
  rw [settled, h]
  rfl

/-- A step on the cache is answered, or settled. -/
theorem exists_on_attempt (complaint : String) (fallback : α) (step : Time.Moment → CacheTask α)
    {c c' : SpecCache} {r : Except Defect α} (hcache : s.cache = some c)
    (h : SpecCache.Yields (step s.clock.now) c r c') (log : List LogRecord) :
    ∃ log', (attempt complaint fallback step).on s log =
      ((settled fallback r, { s with cache := some c', clock := s.clock.tick }), log') := by
  cases r with
  | ok a => exact on_attempt complaint fallback step hcache h log
  | error defect =>
    cases htext : troubleText? defect with
    | none =>
      rw [settled_of_troubleText?_eq_none htext]
      exact on_attempt_error complaint fallback step htext hcache h log
    | some text =>
      obtain ⟨log', hstep⟩ : ∃ log', ((step s.clock.now).run.run c).run log =
          ((.error defect, c'), log') := ⟨_, Prod.ext (h log) rfl⟩
      rw [settled_of_isTrouble ⟨text, htext⟩]
      unfold attempt
      rw [on_bind on_get, hcache]
      dsimp only
      rw [on_bind (on_onCache hstep)]
      dsimp only
      rw [htext]
      exact ⟨_, rfl⟩

/-- Called on the source `source`, the loader answers `raw` and leaves `source'`, whatever records are
written already. -/
def Delivers (loader : Loader σ) (location : String) (source : σ) (raw : Except Fault Value)
    (source' : σ) : Prop :=
  ∀ log, (((loader location).run.run source).run log).1 = (raw, source')

theorem Delivers.exists_on_load (h : Delivers loader location s.source raw source)
    (log : List LogRecord) :
    ∃ log', (load loader location).on s log =
      ((ready location raw, { s with source }), log') := by
  obtain ⟨log', hload⟩ : ∃ log', ((loader location).run.run s.source).run
      (log ++ [announcement location]) = ((raw, source), log') := ⟨_, Prod.ext (h _) rfl⟩
  exact on_load hload

/-- What comes of storing a description, if there is a cache. -/
def stored (cache : Option SpecCache) (now : Time.Moment) (d : Spec.Description)
    (ttl : Time.Duration) : Except Fault Unit :=
  match cache with
  | none => .ok ()
  | some _ => ((storedForm now d ttl).mapError Fault.defect).map fun _ => ()

/-- Keeping a description fails only if it has no stored form. -/
theorem exists_on_keep (s : Supply σ) (d : Spec.Description) (ttl : Time.Duration)
    (log : List LogRecord) :
    ∃ s' log', (keep d ttl).on s log = ((stored s.cache s.clock.now d ttl, s'), log') := by
  cases hcache : s.cache with
  | none => exact ⟨s, log, on_attempt_of_no_cache _ _ _ hcache log⟩
  | some c =>
    obtain ⟨r, c', hkeep, hr⟩ := SpecCache.exists_keep_yields c s.clock.now d ttl
    obtain ⟨log', hrun⟩ := exists_on_attempt s!"Failed to cache spec for {d.location}" ()
      (fun now => do let _ ← SpecCache.keep now d ttl) hcache hkeep log
    have hsettled : settled () r = stored (some c) s.clock.now d ttl := by
      unfold stored
      rcases hr with rfl | ⟨⟨v, hv⟩, defect, rfl, htrouble⟩
      · cases hform : storedForm s.clock.now d ttl with
        | ok v => rfl
        | error defect =>
          have hnone : troubleText? defect = none := by
            rcases SpecCache.storedForm_eq_error hform with rfl | rfl <;> rfl
          exact settled_of_troubleText?_eq_none hnone ()
      · rw [settled_of_isTrouble htrouble, hv]
        rfl
    exact ⟨_, log', hsettled ▸ hrun⟩

/-- The fresh entry of a location. -/
def freshEntry (s : Supply σ) (location : String) : Except Defect (Option Entry) :=
  match s.cache with
  | none => .ok none
  | some c => c.fresh s.clock.now (Cache.keyOf location)

/-- What comes of keeping a description, if one was made. -/
def kept (cache : Option SpecCache) (now : Time.Moment) (ttl : Time.Duration)
    (made : Except Fault Spec.Description) : Except Fault Spec.Description := do
  let d ← made
  stored cache now d ttl
  return d

/-- A description that is loaded is answered if it can be stored. -/
theorem answer_loadAndKeep (hload : Delivers loader location s.source raw source)
    (ttl : Time.Duration) (log : List LogRecord) :
    ((loadAndKeep loader location ttl).on s log).1.1 =
      kept s.cache s.clock.now ttl (ready location raw) := by
  obtain ⟨log₁, hload⟩ := hload.exists_on_load log
  unfold loadAndKeep
  cases hready : ready location raw with
  | error fault =>
    rw [hready] at hload
    rw [on_bind_error hload]
    rfl
  | ok d =>
    rw [hready] at hload
    rw [on_bind hload]
    obtain ⟨s', log₂, hkeep⟩ := exists_on_keep { s with source } d ttl log₁
    show (Provider.on (do keep d ttl; return d) _ _).1.1 =
      (do stored s.cache s.clock.now d ttl; return d)
    cases hstored : stored s.cache s.clock.now d ttl with
    | error fault =>
      rw [hstored] at hkeep
      rw [on_bind_error hkeep]
      rfl
    | ok u =>
      rw [hstored] at hkeep
      rw [on_bind hkeep]
      rfl

/-- Looking a location up finds its fresh entry. -/
theorem exists_on_lookup (location : String) (hcache : s.cache = some c) (log : List LogRecord) :
    ∃ c' log', (attempt s!"Spec cache read failed for {location}" none fun now =>
        SpecCache.lookup now (Cache.keyOf location)).on s log =
      (((freshEntry s location).mapError Fault.defect,
        { s with cache := some c', clock := s.clock.tick }), log') := by
  obtain ⟨r, c', hlookup, hr⟩ := SpecCache.exists_lookup_yields c s.clock.now (Cache.keyOf location)
  obtain ⟨log', hattempt⟩ := exists_on_attempt s!"Spec cache read failed for {location}" none
    (fun now => SpecCache.lookup now (Cache.keyOf location)) hcache hlookup log
  have hsettled : settled none r = (freshEntry s location).mapError Fault.defect := by
    unfold freshEntry
    rw [hcache]
    dsimp only
    rcases hr with rfl | ⟨hnone, defect, rfl, htrouble⟩
    · cases hfresh : c.fresh s.clock.now (Cache.keyOf location) with
      | ok e? => rfl
      | error defect =>
        obtain ⟨rfl, -⟩ := SpecCache.fresh_eq_error_iff.1 hfresh
        rfl
    · rw [settled_of_isTrouble htrouble, hnone]
      rfl
  exact ⟨c', log', hsettled ▸ hattempt⟩

/-- What a provider answers: the fresh entry, or else what it loads, if that can be stored. -/
theorem answer_description (hload : Delivers loader location s.source raw source)
    (ttl : Time.Duration) (log : List LogRecord) :
    ((description loader location ttl).on s log).1.1 = (do
      match ← (freshEntry s location).mapError Fault.defect with
      | some e => return e.description
      | none => kept s.cache s.clock.tick.now ttl (ready location raw)) := by
  unfold description
  cases hcache : s.cache with
  | none =>
    have hnone : freshEntry s location = .ok none := by
      unfold freshEntry
      rw [hcache]
    rw [on_bind (on_attempt_of_no_cache _ _ _ hcache log), hnone]
    show ((loadAndKeep loader location ttl).on s log).1.1 = _
    rw [answer_loadAndKeep hload, hcache]
    rfl
  | some c =>
    obtain ⟨c', log₁, hlookup⟩ := exists_on_lookup location hcache log
    cases hfresh : freshEntry s location with
    | error defect =>
      rw [hfresh] at hlookup
      rw [on_bind_error hlookup]
      rfl
    | ok e? =>
      rw [hfresh] at hlookup
      rw [on_bind hlookup]
      cases e? with
      | some e => rfl
      | none =>
        exact answer_loadAndKeep (s := { s with cache := some c', clock := s.clock.tick }) hload ttl
          log₁

/-! ### Loading a description -/

/-- A document is made ready in three steps. -/
theorem ready_eq (location : String) (document : Value) :
    ready location (.ok document) = (do
      let version ← (Spec.detectVersion document).answer
      let resolved ← Reference.resolve document
      (Spec.Description.make location version.text resolved).mapError Fault.defect) := by
  have hparts := Run.answer_bind (x := Spec.detectVersion document)
    (appendsOnly_resolved location document)
  refine hparts.trans (congrArg _ (funext fun version => ?_))
  cases Reference.resolve document with
  | error fault => rfl
  | ok resolved =>
    show _ = (Spec.Description.make location version.text resolved).mapError Fault.defect
    dsimp only
    cases Spec.Description.make location version.text resolved <;> rfl

/-- Only the description is at fault where its version cannot be told. -/
theorem exists_specError_of_detectVersion {document : Value} {fault : Fault}
    (h : (Spec.detectVersion document).answer = .error fault) :
    ∃ e : SpecError, fault = .failure (.spec e) := by
  unfold Spec.detectVersion at h
  split at h
  · exact ⟨_, (Except.error.inj h).symm⟩
  dsimp only at h
  split at h
  · exact ⟨_, (Except.error.inj h).symm⟩
  split at h
  · cases h
  split at h
  · cases h
  split at h
  · cases h
  · exact ⟨_, (Except.error.inj h).symm⟩

/-- A mapping from different texts. -/
def HasTextKeys (v : Value) : Prop :=
  ∃ entries : List (String × Value), (entries.map Prod.fst).Nodup ∧ v = .ofFields entries

/-- A description is made of a document as it is exactly if its fields stand under different texts. -/
theorem exists_make_iff (location version : String) (document : Value) :
    (∃ d, Spec.Description.make location version document = .ok d ∧ d.value = document) ↔
      HasTextKeys document := by
  unfold Spec.Description.make Checked.orDefect
  constructor
  · rintro ⟨d, hmake, rfl⟩
    obtain ⟨entries, hentries, rfl⟩ := map_eq_ok_iff.1 (mapError_eq_ok_iff.1 hmake)
    refine ⟨entries, ?_, rfl⟩
    unfold Spec.Description.checkDocument Checked.mapping at hentries
    split at hentries
    · obtain ⟨fields, -, rfl⟩ := map_eq_ok_iff.1 hentries
      exact Entries.nodup_ofList fields
    · cases hentries
  · rintro ⟨entries, hnodup, rfl⟩
    refine ⟨⟨location, version, entries⟩, ?_, rfl⟩
    rw [Entry.checkDocument_ofFields hnodup]
    rfl

/-- A description that is made keeps its location and its version. -/
theorem of_make {version : String} {document : Value} {d : Spec.Description}
    (h : Spec.Description.make location version document = .ok d) :
    d.location = location ∧ d.version = version := by
  obtain ⟨entries, -, rfl⟩ := map_eq_ok_iff.1 (mapError_eq_ok_iff.1 h)
  exact ⟨rfl, rfl⟩

/-! ### Providing a description -/

/-- No entry without a distance to universal time stands in the cache for the location. -/
def IsDated (s : Supply σ) (location : String) : Prop :=
  ∀ c e, s.cache = some c → c.found (Cache.keyOf location) = .ok (some e) →
    e.expiresAt.offset ≠ none

/-- What can end a call for the description at a location, `raw` being what the loader answers. -/
inductive Ends (s : Supply σ) (location : String) (ttl : Time.Duration) (raw : Except Fault Value) :
    Fault → Prop
  /-- The loader fails. -/
  | loading {fault : Fault} (h : raw = .error fault) : Ends s location ttl raw fault
  /-- The version cannot be told. -/
  | version {document : Value} {e : SpecError} (hraw : raw = .ok document)
      (h : (Spec.detectVersion document).answer = .error (.failure (.spec e))) :
      Ends s location ttl raw (.failure (.spec e))
  /-- A pointer leads nowhere. -/
  | reference {document : Value} {fault : Fault} (hraw : raw = .ok document)
      (h : Reference.resolve document = .error fault) (hfault : Pointer.Misleads fault) :
      Ends s location ttl raw fault
  /-- A field does not stand under a text. -/
  | keys {document resolved : Value} {faults : List FieldFault} (hraw : raw = .ok document)
      (hresolve : Reference.resolve document = .ok resolved) (h : ¬ HasTextKeys resolved) :
      Ends s location ttl raw (.defect (.fields faults))
  /-- An entry cannot be told fresh or not. -/
  | undated (h : ¬ IsDated s location) : Ends s location ttl raw (.defect .wrongKind)
  /-- The description cannot be stored. -/
  | unstored {d : Spec.Description} {defect : Defect} (hready : ready location raw = .ok d)
      (hcache : s.cache ≠ none) (h : ¬ CanStore s.clock.tick.now ttl d.value)
      (hdefect : defect = .outOfRange ∨ defect = .notPlain) :
      Ends s location ttl raw (.defect defect)

/-- What a call for the description at a location answers, `raw` being what the loader answers. -/
structure IsProvided (s : Supply σ) (location : String) (ttl : Time.Duration)
    (raw : Except Fault Value) (answer : Except Fault Spec.Description) : Prop where
  /-- A fresh entry is answered. -/
  of_fresh : ∀ e, freshEntry s location = .ok (some e) → answer = .ok e.description
  /-- Where there is none, a document that is loaded, whose version is known and whose references are
  resolved is answered exactly if its fields stand under texts, no undated entry stands in the cache,
  and the description can be stored where there is a cache. -/
  returns_iff : ∀ document version resolved, (∀ e, freshEntry s location ≠ .ok (some e)) →
    raw = .ok document → (Spec.detectVersion document).answer = .ok version →
    Reference.resolve document = .ok resolved →
    ((∃ d, answer = .ok d ∧ d.location = location ∧ d.version = version.text ∧
        d.value = resolved) ↔
      HasTextKeys resolved ∧ IsDated s location ∧
        (s.cache ≠ none → CanStore s.clock.tick.now ttl resolved))
  /-- Nothing else ends the call. -/
  ends : ∀ fault, answer = .error fault → Ends s location ttl raw fault

/-- An undated entry is the only thing that keeps a fresh entry from being told. -/
theorem freshEntry_eq_error_iff {s : Supply σ} {defect : Defect} :
    freshEntry s location = .error defect ↔ defect = .wrongKind ∧ ¬ IsDated s location := by
  unfold freshEntry IsDated
  cases s.cache with
  | none => simp
  | some c => simp [SpecCache.fresh_eq_error_iff]

/-- A description is answered where there is no cache or the description can be stored. -/
theorem stored_eq_ok_iff {cache : Option SpecCache} {now : Time.Moment} {d : Spec.Description}
    {ttl : Time.Duration} :
    stored cache now d ttl = .ok () ↔ (cache ≠ none → CanStore now ttl d.value) := by
  unfold stored
  cases cache with
  | none => simp
  | some c =>
    dsimp only
    rw [map_eq_ok_iff]
    simp only [mapError_eq_ok_iff, and_true, ne_eq, reduceCtorEq, not_false_eq_true,
      forall_const, SpecCache.exists_storedForm_iff]

/-- What keeps a description from being answered is that it cannot be stored. -/
theorem of_stored_eq_error {cache : Option SpecCache} {now : Time.Moment} {d : Spec.Description}
    {ttl : Time.Duration} {fault : Fault} (h : stored cache now d ttl = .error fault) :
    cache ≠ none ∧ ¬ CanStore now ttl d.value ∧
      ∃ defect, fault = .defect defect ∧ (defect = .outOfRange ∨ defect = .notPlain) := by
  have hnot : ¬ (cache ≠ none → CanStore now ttl d.value) := by
    rw [← stored_eq_ok_iff, h]
    simp
  obtain ⟨hcache, hstore⟩ := Classical.not_imp.1 hnot
  refine ⟨hcache, hstore, ?_⟩
  obtain ⟨c, rfl⟩ := Option.ne_none_iff_exists'.1 hcache
  have hform := map_eq_error_iff.1 h
  cases hdefect : storedForm now d ttl with
  | ok v =>
    rw [hdefect] at hform
    cases hform
  | error defect =>
    rw [hdefect] at hform
    exact ⟨defect, (Except.error.inj hform).symm, SpecCache.storedForm_eq_error hdefect⟩

/-- What keeps a document from being made ready. -/
theorem ends_of_ready {fault : Fault} (h : ready location raw = .error fault)
    (s : Supply σ) (ttl : Time.Duration) : Ends s location ttl raw fault := by
  cases raw with
  | error fault' => exact .loading (congrArg _ (Except.error.inj h))
  | ok document =>
    rw [ready_eq] at h
    rcases bind_eq_error_iff.1 h with hversion | ⟨version, -, h⟩
    · obtain ⟨e, rfl⟩ := exists_specError_of_detectVersion hversion
      exact .version rfl hversion
    rcases bind_eq_error_iff.1 h with hresolve | ⟨resolved, hresolve, h⟩
    · obtain ⟨ref, -, href⟩ := Reference.resolve_eq_error_iff.1 hresolve
      exact .reference rfl hresolve (Pointer.misleads_of_lookup href)
    · cases hmake : Spec.Description.make location version.text resolved with
      | ok d =>
        rw [hmake] at h
        cases h
      | error defect =>
        rw [hmake] at h
        obtain rfl := Except.error.inj h
        have hkeys : ¬ HasTextKeys resolved := by
          rw [← exists_make_iff location version.text resolved, hmake]
          rintro ⟨d, hd, -⟩
          cases hd
        cases hcheck : (Spec.Description.checkDocument resolved).map
            (Spec.Description.mk location version.text) with
        | ok d =>
          rw [Spec.Description.make, hcheck] at hmake
          cases hmake
        | error faults =>
          rw [Spec.Description.make, hcheck] at hmake
          obtain rfl := Except.error.inj hmake
          exact .keys rfl hresolve hkeys

/-- Nothing but an undated entry ends a call before anything is loaded. -/
theorem ends_of_freshEntry {s : Supply σ} {fault : Fault}
    (h : (freshEntry s location).mapError Fault.defect = .error fault) (ttl : Time.Duration) :
    Ends s location ttl raw fault := by
  cases hfresh : freshEntry s location with
  | ok e? =>
    rw [hfresh] at h
    cases h
  | error defect =>
    rw [hfresh] at h
    obtain rfl := Except.error.inj h
    obtain ⟨rfl, hundated⟩ := freshEntry_eq_error_iff.1 hfresh
    exact .undated hundated

/-- What keeps a document from being made ready, or the description from being stored. -/
theorem ends_of_kept {s : Supply σ} {ttl : Time.Duration} {fault : Fault}
    (h : kept s.cache s.clock.tick.now ttl (ready location raw) = .error fault) :
    Ends s location ttl raw fault := by
  rcases bind_eq_error_iff.1 h with hready | ⟨d, hready, h⟩
  · exact ends_of_ready hready s ttl
  rcases bind_eq_error_iff.1 h with hstored | ⟨u, -, hend⟩
  · obtain ⟨hcache, hstore, defect, rfl, hdefect⟩ := of_stored_eq_error hstored
    exact .unstored hready hcache hstore hdefect
  · cases hend

theorem isDated_of_freshEntry {s : Supply σ} {e? : Option Entry}
    (h : freshEntry s location = .ok e?) : IsDated s location := by
  by_contra hundated
  have herror := freshEntry_eq_error_iff.2 ⟨rfl, hundated⟩
  rw [h] at herror
  cases herror

/-- A description is kept as it was made, if it can be made and stored. -/
theorem kept_make_iff {cache : Option SpecCache} {now : Time.Moment} {ttl : Time.Duration}
    {version : String} {document : Value} :
    (∃ d, kept cache now ttl
          ((Spec.Description.make location version document).mapError Fault.defect) = .ok d ∧
        d.location = location ∧ d.version = version ∧ d.value = document) ↔
      HasTextKeys document ∧ (cache ≠ none → CanStore now ttl document) := by
  rw [← exists_make_iff location version document]
  constructor
  · rintro ⟨d, hkept, -, -, rfl⟩
    obtain ⟨d', hmake, hkept⟩ := bind_eq_ok_iff.1 hkept
    obtain ⟨u, hstored, hd⟩ := bind_eq_ok_iff.1 hkept
    obtain rfl := Except.ok.inj hd
    exact ⟨⟨d', mapError_eq_ok_iff.1 hmake, rfl⟩, stored_eq_ok_iff.1 hstored⟩
  · rintro ⟨⟨d, hmake, rfl⟩, hstore⟩
    obtain ⟨hlocation, hversion⟩ := of_make hmake
    refine ⟨d, ?_, hlocation, hversion, rfl⟩
    rw [hmake]
    exact bind_eq_ok_iff.2 ⟨d, rfl, bind_eq_ok_iff.2 ⟨(), stored_eq_ok_iff.2 hstore, rfl⟩⟩

/-- A description without paths. -/
def bareDocument : Value := .ofFields [("openapi", .text "3.0.0")]

/-- A loader that knows one description. -/
def bareLoader : Loader Unit := fun _ => pure bareDocument

/-- A provider in the morning, with a cache whose store has stopped in some ways. -/
def morningSupply (broken : List Cache.Action) : Supply Unit :=
  ⟨some (.onStore ⟨[], broken⟩), .morning, ()⟩

theorem delivers_bareLoader (location : String) :
    Delivers bareLoader location () (.ok bareDocument) () := fun _ => rfl

theorem hasTextKeys_bareDocument : HasTextKeys bareDocument :=
  ⟨[("openapi", .text "3.0.0")], by decide, rfl⟩

theorem resolve_bareDocument : Reference.resolve bareDocument = .ok bareDocument :=
  Reference.resolve_eq_ok_iff.2 (Reference.resolves_self_of_refs_eq_nil rfl)

theorem detectVersion_bareDocument : (Spec.detectVersion bareDocument).answer = .ok .v30 := rfl

/-- An hour, in microseconds. -/
def oneHour : Time.Duration := ⟨3600000000⟩

end Provider

end ApiShell
