import ApiShell.Proofs.Cache.Providing
import ApiShell.Proofs.Time.Calendar
import Mathlib.Data.Set.Function

/-!
# Descriptions are not stale

A provider answers calls one after the other while time goes on and the source of its descriptions
changes.  Each call becomes a turn, which keeps what was loaded in it and what was answered.  Main
statement: a description that is answered was loaded for the same location, in a turn behind which
the location was not asked for anew and the cache was not emptied, and it is not older than the call
of that turn allowed.

What carries the proof is where the entries of the index come from.  `IsTraced` says of an entry
that it was loaded so.  A turn keeps this of the entries that it leaves, and the only entry that it
adds was loaded in it.
-/

namespace ApiShell

open Cache (Entry)

/-! ### Caches that are known by their index -/

namespace SpecCache

variable {c : SpecCache} {P Q : String → Entry → Prop} {key : String} {e : Entry} {v : Value}

/-- A working cache whose store has nothing that the index does not have, and all of whose entries
have a property. -/
structure IsIndexed (c : SpecCache) (P : String → Entry → Prop) : Prop where
  working : c.IsWorking
  indexed (key : String) : Entries.get? c.index key = none →
    Entries.get? c.store.entries key = none
  property (key : String) (e : Entry) : Entries.get? c.index key = some e → P key e

theorem isIndexed_empty (P : String → Entry → Prop) : (onStore .empty).IsIndexed P :=
  ⟨rfl, fun _ _ => rfl, fun _ _ h => nomatch h⟩

theorem IsIndexed.cleared (h : c.IsIndexed P) (Q : String → Entry → Prop) : c.cleared.IsIndexed Q :=
  ⟨h.working, fun _ _ => rfl, fun _ _ h => nomatch h⟩

theorem IsIndexed.imp (h : c.IsIndexed P) (himp : ∀ key e, P key e → Q key e) : c.IsIndexed Q :=
  ⟨h.working, h.indexed, fun key e he => himp key e (h.property key e he)⟩

/-- Taking an entry away leaves the other ones. -/
theorem IsIndexed.without (h : c.IsIndexed P) (key : String) :
    (c.without key).IsIndexed fun k e => P k e ∧ k ≠ key := by
  refine ⟨h.working, fun k hk => ?_, fun k e hk => ?_⟩
  · have hindex := (Entries.get?_erase c.index key k).symm.trans hk
    refine (Entries.get?_erase c.store.entries key k).trans ?_
    split
    · rfl
    · rename_i hne
      rw [if_neg hne] at hindex
      exact h.indexed k hindex
  · have hindex := (Entries.get?_erase c.index key k).symm.trans hk
    split at hindex
    · cases hindex
    · rename_i hne
      exact ⟨h.property k e hindex, hne⟩

/-- Keeping an entry adds it. -/
theorem IsIndexed.keeping (h : c.IsIndexed P) (he : P e.key e) (v : Value) :
    (c.keeping e v).IsIndexed P := by
  refine ⟨h.working, fun k hk => ?_, fun k e' hk => ?_⟩
  · have hindex := (Entries.get?_put c.index e.key k e).symm.trans hk
    refine (Entries.get?_put c.store.entries e.key k v).trans ?_
    split at hindex
    · cases hindex
    · rename_i hne
      rw [if_neg hne]
      exact h.indexed k hindex
  · have hindex := (Entries.get?_put c.index e.key k e).symm.trans hk
    split at hindex
    · rename_i hkey
      obtain rfl := Option.some.inj hindex
      exact hkey ▸ he
    · exact h.property k e' hindex

/-- Seeing an entry of the index changes nothing. -/
theorem IsIndexed.seeing (h : c.IsIndexed P) (he : Entries.get? c.index key = some e) :
    (c.seeing key e).IsIndexed P := by
  refine ⟨h.working, fun k hk => ?_, fun k e' hk => ?_⟩
  · have hindex := (Entries.get?_put c.index key k e).symm.trans hk
    split at hindex
    · cases hindex
    · exact h.indexed k hindex
  · have hindex := (Entries.get?_put c.index key k e).symm.trans hk
    split at hindex
    · rename_i hkey
      obtain rfl := Option.some.inj hindex
      exact h.property k e (hkey ▸ he)
    · exact h.property k e' hindex

/-- Looking up a key finds a live entry of the index or nothing. -/
theorem IsIndexed.lookup_cases (h : c.IsIndexed P)
    (huniversal : ∀ key e, P key e → e.expiresAt.IsUniversal) (now : Time.Moment) (key : String) :
    (∃ e, Entries.get? c.index key = some e ∧ now.instant ≤ e.expiresAt.instant ∧
      Yields (lookup now key) c (.ok (some e)) (c.seeing key e)) ∨
    ∃ c', Yields (lookup now key) c (.ok none) c' ∧ (c' = c ∨ c' = c.without key) := by
  cases hindex : Entries.get? c.index key with
  | none =>
    have hfind := find_yields_none h.working hindex (h.indexed key hindex)
    exact .inr ⟨c, lookup_yields_none hfind now, .inl rfl⟩
  | some e =>
    have hfind := find_yields_of_index hindex
    have hexpired := Entry.isExpired_eq (huniversal key e (h.property key e hindex)) now
    by_cases hover : e.expiresAt.instant < now.instant
    · rw [decide_eq_true hover] at hexpired
      exact .inr ⟨_, lookup_yields_of_expired h.working hfind hexpired, .inr rfl⟩
    · rw [decide_eq_false hover] at hexpired
      exact .inl ⟨e, rfl, Int.not_lt.1 hover, lookup_yields_of_live hfind hexpired⟩

/-- The second cache has nothing, in its index or in its store, that the first one does not have. -/
def AddsNothing (c c' : SpecCache) : Prop :=
  (∀ key e, Entries.get? c'.index key = some e → Entries.get? c.index key = some e) ∧
    ∀ key v, Entries.get? c'.store.entries key = some v → Entries.get? c.store.entries key = some v

theorem AddsNothing.refl (c : SpecCache) : c.AddsNothing c :=
  ⟨fun _ _ h => h, fun _ _ h => h⟩

theorem addsNothing_without (c : SpecCache) (key : String) : c.AddsNothing (c.without key) := by
  constructor
  · intro k e hk
    have hindex := (Entries.get?_erase c.index key k).symm.trans hk
    split at hindex
    · cases hindex
    · exact hindex
  · intro k v hk
    have hstore := (Entries.get?_erase c.store.entries key k).symm.trans hk
    split at hstore
    · cases hstore
    · exact hstore

end SpecCache

namespace Provider

variable {σ : Type} {loader : Loader σ} {location : String} {ttl : Time.Duration}

/-! ### Calls and turns -/

/-- What a provider is called for, and the passing of time. -/
inductive Call where
  | describe (location : String) (ttl : Time.Duration)
  | refresh (location : String) (ttl : Time.Duration)
  | clear
  | wait (micros : Nat)

namespace Call

/-- The call asks for the description at a location, which may be kept for a while. -/
def AsksFor (call : Call) (location : String) (ttl : Time.Duration) : Prop :=
  call = describe location ttl ∨ call = refresh location ttl

/-- The call puts an end to the descriptions of a location that were loaded before it. -/
def Drops (call : Call) (location : String) : Prop :=
  (∃ ttl, call = refresh location ttl) ∨ call = clear

end Call

/-- The calls of a loader, and what it answered. -/
abbrev Loads := List (String × Except Fault Value)

/-- The loader with a record of its calls. -/
def recording (loader : Loader σ) : Loader (σ × Loads) := fun location => ExceptT.mk do
  let (source, loads) ← get
  let (raw, source) ← ((loader location).run.run source : Logger _)
  set (source, loads ++ [(location, raw)])
  return raw

/-- What is done for a call. -/
def ask (loader : Loader σ) : Call → Provider (σ × Loads) (Option Spec.Description)
  | .describe location ttl => do
    let d ← description (recording loader) location ttl
    return some d
  | .refresh location ttl => do
    let d ← refresh (recording loader) location ttl
    return some d
  | .clear => do
    clear
    return none
  | .wait micros => do
    match (← get).clock.advance micros with
    | .ok clock =>
      modify fun s => { s with clock }
      return none
    | .error defect => throw (.defect defect)

/-- A call, the clock at its beginning, what was loaded in it, and what was answered. -/
structure Turn where
  call : Call
  clock : Clock
  loads : Loads
  outcome : Except Fault (Option Spec.Description)

/-- A provider at work, with the turns that are over, the latest first. -/
structure Service (σ : Type) where
  supply : Supply (σ × Loads)
  log : List LogRecord
  done : List Turn

namespace Service

/-- The supply before a call, nothing being loaded for it yet. -/
def nextSupply (u : Service σ) : Supply (σ × Loads) :=
  { u.supply with source := (u.supply.source.1, []) }

/-- What comes of a call. -/
def result (loader : Loader σ) (u : Service σ) (call : Call) :
    (Except Fault (Option Spec.Description) × Supply (σ × Loads)) × List LogRecord :=
  (ask loader call).on u.nextSupply u.log

/-- The turn that a call makes. -/
def turn (loader : Loader σ) (u : Service σ) (call : Call) : Turn :=
  ⟨call, u.supply.clock, (u.result loader call).1.2.source.2, (u.result loader call).1.1⟩

/-- The provider after a call. -/
def step (loader : Loader σ) (u : Service σ) (call : Call) : Service σ :=
  ⟨(u.result loader call).1.2, (u.result loader call).2, u.turn loader call :: u.done⟩

/-- The provider after calls. -/
def run (loader : Loader σ) (u : Service σ) (calls : List Call) : Service σ :=
  calls.foldl (step loader) u

/-- A provider with an empty cache that was not called yet. -/
def start (clock : Clock) (source : σ) : Service σ :=
  ⟨⟨some (.onStore .empty), clock, (source, [])⟩, [], []⟩

end Service

/-! ### What a call can do -/

variable {u : Service σ} {c : SpecCache}

/-- The call is answered by an entry of the index, and nothing is loaded. -/
structure Finds (loader : Loader σ) (u : Service σ) (c : SpecCache) (call : Call)
    (location : String) (e : Entry) : Prop where
  index : Entries.get? c.index (Cache.keyOf location) = some e
  live : u.supply.clock.now.instant ≤ e.expiresAt.instant
  loads : (u.turn loader call).loads = []
  outcome : (u.turn loader call).outcome = .ok (some e.description)
  cache : (u.step loader call).supply.cache = some (c.seeing (Cache.keyOf location) e)
  clock : (u.step loader call).supply.clock = u.supply.clock.tick

/-- The description is loaded after the cache became `c`, and kept if it can be. -/
structure LoadsAnew (loader : Loader σ) (u : Service σ) (c : SpecCache) (call : Call)
    (location : String) (ttl : Time.Duration) (raw : Except Fault Value)
    (answer : Except Fault Spec.Description) (c' : SpecCache) : Prop where
  answered : ∃ log, (((loader location).run.run u.supply.source.1).run log).1.1 = raw
  loads : (u.turn loader call).loads = [(location, raw)]
  outcome : (u.turn loader call).outcome = answer.map some
  keeps : Keeps u.supply.clock.tick.now ttl c (ready location raw) answer c'
  cache : (u.step loader call).supply.cache = some c'
  clock : (u.step loader call).supply.clock = u.supply.clock.tick ∨
    (u.step loader call).supply.clock = u.supply.clock.tick.tick

/-- The recording loader does what the loader does, and takes down its call. -/
theorem run_recording (loader : Loader σ) (location : String) (source : σ) (loads : Loads)
    (log : List LogRecord) : ∃ raw source' log',
      (((loader location).run.run source).run log).1.1 = raw ∧
        ((recording loader location).run.run (source, loads)).run log =
          ((raw, (source', loads ++ [(location, raw)])), log') :=
  ⟨_, _, _, rfl, rfl⟩

/-- A description that is answered is the outcome of the turn. -/
theorem result_of_on {call : Call} {p : Provider (σ × Loads) Spec.Description}
    {r : Except Fault Spec.Description} {s : Supply (σ × Loads)} {log : List LogRecord}
    (hask : ask loader call = do let d ← p; return some d)
    (h : p.on u.nextSupply u.log = ((r, s), log)) :
    u.result loader call = ((r.map some, s), log) := by
  rw [Service.result, hask]
  cases r with
  | error fault => exact on_bind_error h
  | ok d => exact on_bind h

/-- A computation that loads and keeps makes a turn in which the description was loaded anew. -/
theorem exists_loadsAnew {call : Call} {p : Provider (σ × Loads) Spec.Description}
    {log : List LogRecord} (hask : ask loader call = do let d ← p; return some d)
    (hworking : c.IsWorking)
    (h : p.on u.nextSupply u.log =
      (loadAndKeep (recording loader) location ttl).on
        ⟨some c, u.supply.clock.tick, (u.supply.source.1, [])⟩ log) :
    ∃ raw answer c', LoadsAnew loader u c call location ttl raw answer c' := by
  obtain ⟨raw, source, log₁, hraw, hrun⟩ := run_recording loader location u.supply.source.1 []
    (log ++ [announcement location])
  obtain ⟨answer, c', clock, log₂, hload, hkeeps, hclock⟩ := on_loadAndKeep ttl
    (s := ⟨some c, u.supply.clock.tick, (u.supply.source.1, [])⟩) rfl hworking hrun
  have hresult := result_of_on hask (h.trans hload)
  refine ⟨raw, answer, c', ⟨_, hraw⟩, ?_, ?_, hkeeps, ?_, ?_⟩
  · rw [Service.turn, hresult]
    rfl
  · rw [Service.turn, hresult]
  · rw [Service.step, hresult]
  · rw [Service.step, hresult]
    exact hclock

/-- A description is answered from the index or loaded anew. -/
theorem finds_or_loadsAnew {P : String → Entry → Prop} (hcache : u.supply.cache = some c)
    (hindexed : c.IsIndexed P) (huniversal : ∀ key e, P key e → e.expiresAt.IsUniversal)
    (loader : Loader σ) (location : String) (ttl : Time.Duration) :
    (∃ e, Finds loader u c (.describe location ttl) location e) ∨
    ∃ c₀ raw answer c', (c₀ = c ∨ c₀ = c.without (Cache.keyOf location)) ∧
      LoadsAnew loader u c₀ (.describe location ttl) location ttl raw answer c' := by
  have hask : ask loader (.describe location ttl) = do
      let d ← description (recording loader) location ttl
      return some d := rfl
  rcases hindexed.lookup_cases huniversal u.supply.clock.now (Cache.keyOf location) with
    ⟨e, hindex, hlive, hlookup⟩ | ⟨c₀, hlookup, hc₀⟩
  · obtain ⟨log, hrun⟩ := on_description_of_found (s := u.nextSupply) (recording loader) ttl hcache hlookup
      u.log
    have hresult := result_of_on hask hrun
    refine .inl ⟨e, hindex, hlive, ?_, ?_, ?_, ?_⟩
    · rw [Service.turn, hresult]
      rfl
    · rw [Service.turn, hresult]
      rfl
    · rw [Service.step, hresult]
    · rw [Service.step, hresult]
      rfl
  · obtain ⟨log, hrun⟩ := on_description_of_missing (s := u.nextSupply) (recording loader) ttl hcache
      hlookup u.log
    have hworking : c₀.IsWorking := by
      rcases hc₀ with rfl | rfl
      · exact hindexed.working
      · exact hindexed.working
    obtain ⟨raw, answer, c', hload⟩ := exists_loadsAnew hask hworking hrun
    exact .inr ⟨c₀, raw, answer, c', hc₀, hload⟩

/-- A description that is asked for anew is always loaded. -/
theorem loadsAnew_of_refresh (hcache : u.supply.cache = some c) (hworking : c.IsWorking)
    (loader : Loader σ) (location : String) (ttl : Time.Duration) :
    ∃ raw answer c', LoadsAnew loader u (c.without (Cache.keyOf location)) (.refresh location ttl)
      location ttl raw answer c' := by
  have hask : ask loader (.refresh location ttl) = do
      let d ← refresh (recording loader) location ttl
      return some d := rfl
  obtain ⟨log, hrun⟩ := on_refresh (s := u.nextSupply) (recording loader) ttl hcache hworking location u.log
  exact exists_loadsAnew hask hworking hrun

/-! ### Where entries come from -/

/-- In the turn the description was loaded, and made ready from what the loader answered. -/
def Turn.Brings (t : Turn) (location : String) (d : Spec.Description) : Prop :=
  ∃ raw, (location, raw) ∈ t.loads ∧ ready location raw = .ok d

/-- The description was loaded in a turn for the same location, which was not dropped since, and the
call of that turn allowed it to be kept until the moment at `limit` or longer. -/
def IsTraced (turns : List Turn) (location : String) (d : Spec.Description) (limit : Int) : Prop :=
  ∃ later t earlier ttl, turns = later ++ t :: earlier ∧ t.call.AsksFor location ttl ∧
    t.Brings location d ∧ (∀ x ∈ later, ¬ x.call.Drops location) ∧
    limit ≤ t.clock.tick.now.instant + ttl.micros

/-- A turn that does not drop the location leaves its descriptions traced. -/
theorem IsTraced.cons {turns : List Turn} {d : Spec.Description} {limit : Int} {t : Turn}
    (h : IsTraced turns location d limit) (ht : ¬ t.call.Drops location) :
    IsTraced (t :: turns) location d limit := by
  obtain ⟨later, t', earlier, ttl, rfl, hasks, hbrings, hlater, hlimit⟩ := h
  exact ⟨t :: later, t', earlier, ttl, rfl, hasks, hbrings,
    List.forall_mem_cons.2 ⟨ht, hlater⟩, hlimit⟩

/-- A description may be answered until any earlier moment. -/
theorem IsTraced.earlier {turns : List Turn} {d : Spec.Description} {limit moment : Int}
    (h : IsTraced turns location d limit) (hmoment : moment ≤ limit) :
    IsTraced turns location d moment := by
  obtain ⟨later, t, earlier, ttl, hturns, hasks, hbrings, hlater, hlimit⟩ := h
  exact ⟨later, t, earlier, ttl, hturns, hasks, hbrings, hlater, Int.le_trans hmoment hlimit⟩

/-- The entry under a key is traced to a load of a location with that key. -/
def IsTracedEntry (locations : Set String) (turns : List Turn) (key : String) (e : Entry) : Prop :=
  e.expiresAt.IsUniversal ∧ ∃ location ∈ locations, key = Cache.keyOf location ∧
    IsTraced turns location e.description e.expiresAt.instant

/-- All entries of the cache are traced, and the clock shows universal time. -/
structure Service.IsSound (locations : Set String) (u : Service σ) : Prop where
  universal : u.supply.clock.now.IsUniversal
  exists_cache : ∃ c, u.supply.cache = some c ∧ c.IsIndexed (IsTracedEntry locations u.done)

/-- The locations that a call asks for. -/
def Call.StaysIn (locations : Set String) (call : Call) : Prop :=
  ∀ location ttl, call.AsksFor location ttl → location ∈ locations

variable {locations : Set String}

/-- What was loaded in a turn is traced to it. -/
theorem LoadsAnew.isTraced {call : Call} {raw : Except Fault Value}
    {answer : Except Fault Spec.Description} {c' : SpecCache} {d : Spec.Description}
    (h : LoadsAnew loader u c call location ttl raw answer c') (hcall : call.AsksFor location ttl)
    (hready : ready location raw = .ok d) :
    IsTraced (u.turn loader call :: u.done) location d
      (u.supply.clock.tick.now.instant + ttl.micros) := by
  have hmem : (location, raw) ∈ (u.turn loader call).loads := by
    rw [h.loads]
    exact List.mem_singleton_self _
  exact ⟨[], u.turn loader call, u.done, ttl, rfl, hcall, ⟨raw, hmem, hready⟩,
    fun x hx => absurd hx List.not_mem_nil, Int.le_refl _⟩

/-- Loading anew leaves a sound provider, if the entries that it found are still traced. -/
theorem LoadsAnew.isSound {call : Call} {raw : Except Fault Value}
    {answer : Except Fault Spec.Description} {c' : SpecCache}
    (h : LoadsAnew loader u c call location ttl raw answer c') (hcall : call.AsksFor location ttl)
    (hlocation : location ∈ locations) (huniversal : u.supply.clock.now.IsUniversal)
    (hc : c.IsIndexed (IsTracedEntry locations (u.turn loader call :: u.done))) :
    (u.step loader call).IsSound locations := by
  have htick := (Clock.of_tick huniversal).1
  refine ⟨?_, c', h.cache, ?_⟩
  · rcases h.clock with hclock | hclock
    · rw [hclock]
      exact htick
    · rw [hclock]
      exact (Clock.of_tick htick).1
  · have hkeeps := h.keeps
    have htraced (d : Spec.Description) (hready : ready location raw = .ok d) :=
      h.isTraced hcall hready
    generalize hloaded : ready location raw = loaded at hkeeps htraced
    cases hkeeps with
    | failed fault => exact hc
    | refused h => exact hc
    | @kept d e v hmake hplain =>
      obtain ⟨hkey, hdescription, -, hexpires, hlimit⟩ := Entry.of_make hmake
      have hd : d.location = location := location_of_ready hloaded
      refine hc.keeping ⟨hexpires, location, hlocation, hd ▸ hkey, ?_⟩ v
      rw [hdescription, hlimit]
      exact htraced d rfl

/-- Entries stay traced over a turn that does not drop their locations. -/
theorem IsTracedEntry.cons {turns : List Turn} {key : String} {e : Entry} {t : Turn}
    (h : IsTracedEntry locations turns key e)
    (ht : ∀ location, key = Cache.keyOf location → ¬ t.call.Drops location) :
    IsTracedEntry locations (t :: turns) key e := by
  obtain ⟨hexpires, location, hlocation, hkey, htraced⟩ := h
  exact ⟨hexpires, location, hlocation, hkey, htraced.cons (ht location hkey)⟩

theorem not_drops_describe (location other : String) (ttl : Time.Duration) :
    ¬ (Call.describe location ttl).Drops other := by
  rintro (⟨ttl', h⟩ | h)
  · cases h
  · cases h

theorem not_drops_wait (micros : Nat) (location : String) : ¬ (Call.wait micros).Drops location := by
  rintro (⟨ttl, h⟩ | h)
  · cases h
  · cases h

/-- Asking for one location anew drops no other one. -/
theorem not_drops_refresh {other : String} (h : other ≠ location) (ttl : Time.Duration) :
    ¬ (Call.refresh location ttl).Drops other := by
  rintro (⟨ttl', heq⟩ | heq)
  · cases heq
    exact h rfl
  · cases heq

/-- Waiting leaves the cache as it is, and a clock that shows universal time. -/
theorem of_wait (loader : Loader σ) (u : Service σ) (micros : Nat)
    (h : u.supply.clock.now.IsUniversal) :
    (u.step loader (.wait micros)).supply.clock.now.IsUniversal ∧
      (u.step loader (.wait micros)).supply.cache = u.supply.cache := by
  have hstep : (u.step loader (.wait micros)).supply = ((match u.nextSupply.clock.advance micros with
      | .ok clock => do
        modify fun s => { s with clock }
        return none
      | .error defect => throw (.defect defect) :
        Provider (σ × Loads) (Option Spec.Description)).on u.nextSupply u.log).1.2 := by
    rw [Service.step, Service.result, ask, on_bind on_get]
  rw [hstep]
  cases hadvance : u.nextSupply.clock.advance micros with
  | error defect => exact ⟨h, rfl⟩
  | ok clock => exact ⟨(Clock.of_advance hadvance).1, rfl⟩

/-- Each call leaves a sound provider sound. -/
theorem Service.IsSound.step (h : u.IsSound locations) (loader : Loader σ) {call : Call}
    (hcall : call.StaysIn locations) : (u.step loader call).IsSound locations := by
  obtain ⟨huniversal, c, hcache, hindexed⟩ := h
  have hexpires (key : String) (e : Entry) (he : IsTracedEntry locations u.done key e) :
      e.expiresAt.IsUniversal := he.1
  cases call with
  | describe location ttl =>
    have hasks : (Call.describe location ttl).AsksFor location ttl := .inl rfl
    have hkept : c.IsIndexed (IsTracedEntry locations
        (u.turn loader (.describe location ttl) :: u.done)) :=
      hindexed.imp fun key e he => he.cons fun other _ => not_drops_describe location other ttl
    rcases finds_or_loadsAnew hcache hindexed hexpires loader location ttl with
      ⟨e, hfinds⟩ | ⟨c₀, raw, answer, c', hc₀, hloads⟩
    · refine ⟨?_, _, hfinds.cache, hkept.seeing hfinds.index⟩
      rw [hfinds.clock]
      exact (Clock.of_tick huniversal).1
    · refine hloads.isSound hasks (hcall location ttl hasks) huniversal ?_
      rcases hc₀ with rfl | rfl
      · exact hkept
      · exact (hkept.without _).imp fun key e he => he.1
  | refresh location ttl =>
    have hasks : (Call.refresh location ttl).AsksFor location ttl := .inr rfl
    obtain ⟨raw, answer, c', hloads⟩ :=
      loadsAnew_of_refresh hcache hindexed.working loader location ttl
    refine hloads.isSound hasks (hcall location ttl hasks) huniversal ?_
    refine (hindexed.without _).imp fun key e he => he.1.cons fun other hkey => ?_
    have hother : other ≠ location := by
      rintro rfl
      exact he.2 hkey
    exact not_drops_refresh hother ttl
  | clear =>
    refine ⟨huniversal, c.cleared, ?_, hindexed.cleared _⟩
    exact congrArg (Option.map SpecCache.cleared) hcache
  | wait micros =>
    obtain ⟨hclock, hsame⟩ := of_wait loader u micros huniversal
    exact ⟨hclock, c, hsame.trans hcache,
      hindexed.imp fun key e he => he.cons fun other _ => not_drops_wait micros other⟩

/-- Calls leave a sound provider sound. -/
theorem Service.IsSound.run (h : u.IsSound locations) (loader : Loader σ) {calls : List Call}
    (hcalls : ∀ call ∈ calls, call.StaysIn locations) : (u.run loader calls).IsSound locations := by
  induction calls generalizing u with
  | nil => exact h
  | cons call calls ih =>
    rw [List.forall_mem_cons] at hcalls
    exact ih (h.step loader hcalls.1) hcalls.2

theorem isSound_start {clock : Clock} (h : clock.now.IsUniversal) (source : σ)
    (locations : Set String) : (Service.start clock source).IsSound locations :=
  ⟨h, .onStore .empty, rfl, SpecCache.isIndexed_empty _⟩

/-! ### What is answered -/

/-- A description that a sound provider answers is traced to a load of its own location. -/
theorem Service.IsSound.isTraced_answer (h : u.IsSound locations)
    (hkeys : Set.InjOn Cache.keyOf locations) (hlocation : location ∈ locations)
    {d : Spec.Description}
    (hanswer : (u.turn loader (.describe location ttl)).outcome = .ok (some d)) :
    IsTraced (u.turn loader (.describe location ttl) :: u.done) location d
      u.supply.clock.now.instant := by
  obtain ⟨huniversal, c, hcache, hindexed⟩ := h
  rcases finds_or_loadsAnew hcache hindexed (fun key e he => he.1) loader location ttl with
    ⟨e, hfinds⟩ | ⟨c₀, raw, answer, c', -, hloads⟩
  · obtain rfl : e.description = d :=
      Option.some.inj (Except.ok.inj (hfinds.outcome.symm.trans hanswer))
    obtain ⟨-, other, hother, hkey, htraced⟩ := hindexed.property _ e hfinds.index
    obtain rfl := hkeys hlocation hother hkey
    exact (htraced.cons (not_drops_describe location location ttl)).earlier hfinds.live
  · have hmapped := hloads.outcome.symm.trans hanswer
    obtain ⟨d', rfl, hd⟩ := map_eq_ok_iff.1 hmapped
    obtain rfl := Option.some.inj hd
    have hready : ready location raw = .ok d' := hloads.keeps.of_ok.1
    have hlater := (Clock.of_tick huniversal).2
    exact (hloads.isTraced (.inl rfl) hready).earlier (by omega)

/-- A load that fails is answered by its fault, and nothing is kept. -/
theorem LoadsAnew.of_fault {call : Call} {raw : Except Fault Value}
    {answer : Except Fault Spec.Description} {c' : SpecCache} {fault : Fault}
    (h : LoadsAnew loader u c call location ttl raw answer c')
    (hready : ready location raw = .error fault) :
    (u.turn loader call).outcome = .error fault ∧
      (u.step loader call).supply.cache = some c := by
  obtain ⟨-, -, houtcome, hkeeps, hcache, -⟩ := h
  rw [hready] at hkeeps
  cases hkeeps
  exact ⟨houtcome, hcache⟩

/-- A call that asks for a description finds it without loading, or loads it anew; what it found in
the cache before that is not more than there was. -/
theorem Service.IsSound.finds_or_loadsAnew (h : u.IsSound locations) (loader : Loader σ) {call : Call}
    (hcall : call.AsksFor location ttl) : ∃ c, u.supply.cache = some c ∧
      ((∃ e, Finds loader u c call location e) ∨ ∃ c₀ raw answer c', c.AddsNothing c₀ ∧
        LoadsAnew loader u c₀ call location ttl raw answer c') := by
  obtain ⟨-, c, hcache, hindexed⟩ := h
  refine ⟨c, hcache, ?_⟩
  rcases hcall with rfl | rfl
  · refine (Provider.finds_or_loadsAnew hcache hindexed (fun key e he => he.1) loader location
      ttl).imp_right ?_
    rintro ⟨c₀, raw, answer, c', hc₀, hloads⟩
    refine ⟨c₀, raw, answer, c', ?_, hloads⟩
    rcases hc₀ with rfl | rfl
    · exact .refl _
    · exact SpecCache.addsNothing_without c _
  · obtain ⟨raw, answer, c', hloads⟩ :=
      loadsAnew_of_refresh hcache hindexed.working loader location ttl
    exact .inr ⟨_, raw, answer, c', SpecCache.addsNothing_without c _, hloads⟩

/-- Whatever a provider with an empty cache was called for, and whatever its loader answered: a
description that it answers was loaded for the same location, not before the location was last asked
for anew or the cache was last emptied, and is not older than the call that kept it allowed.  Asking
anew calls the loader once, describing at most once.  A load that fails is answered by its fault,
and nothing is kept.

The keys of the locations in question have to be different. -/
theorem isTraced_answer_run {clock : Clock} (hclock : clock.now.IsUniversal) (loader : Loader σ)
    (source : σ) {locations : Set String} (hkeys : Set.InjOn Cache.keyOf locations)
    {calls : List Call} (hcalls : ∀ call ∈ calls, call.StaysIn locations) {location : String}
    (hlocation : location ∈ locations) (ttl : Time.Duration) :
    let u := (Service.start clock source).run loader calls
    (∀ d, (u.turn loader (.describe location ttl)).outcome = .ok (some d) →
      IsTraced (u.turn loader (.describe location ttl) :: u.done) location d
        u.supply.clock.now.instant) ∧
    (∃ raw, (u.turn loader (.refresh location ttl)).loads = [(location, raw)]) ∧
    ∀ call, call.AsksFor location ttl →
      ((u.turn loader call).loads = [] ∨ ∃ raw, (u.turn loader call).loads = [(location, raw)]) ∧
      ∀ raw fault, (location, raw) ∈ (u.turn loader call).loads →
        ready location raw = .error fault →
          (u.turn loader call).outcome = .error fault ∧
          ∃ c c', u.supply.cache = some c ∧ (u.step loader call).supply.cache = some c' ∧
            c.AddsNothing c' := by
  intro u
  have hsound : u.IsSound locations := (isSound_start hclock source locations).run loader hcalls
  refine ⟨fun d hanswer => hsound.isTraced_answer hkeys hlocation hanswer, ?_, fun call hcall => ?_⟩
  · obtain ⟨-, c, hcache, hindexed⟩ := hsound
    obtain ⟨raw, answer, c', hloads⟩ :=
      loadsAnew_of_refresh hcache hindexed.working loader location ttl
    exact ⟨raw, hloads.loads⟩
  · obtain ⟨c, hcache, ⟨e, hfinds⟩ | ⟨c₀, raw, answer, c', hc₀, hloads⟩⟩ :=
      hsound.finds_or_loadsAnew loader hcall
    · refine ⟨.inl hfinds.loads, fun raw fault hraw => ?_⟩
      rw [hfinds.loads] at hraw
      cases hraw
    · refine ⟨.inr ⟨raw, hloads.loads⟩, fun raw' fault hraw hready => ?_⟩
      rw [hloads.loads, List.mem_singleton] at hraw
      obtain rfl := (Prod.mk.inj hraw).2
      obtain ⟨houtcome, hafter⟩ := hloads.of_fault hready
      exact ⟨houtcome, c, c₀, hcache, hafter, hc₀⟩

/-! A history: a location that has no description is asked for anew, and a second passes. -/

/-- A loader of one description, which changes each time that it is loaded. -/
def editions : Loader Nat := fun location => do
  if location = "pets.yaml" then
    let edition ← get
    set (edition + 1)
    return .ofFields [("openapi", .text "3.0.0"), ("x-edition", .int edition)]
  else throw (Fault.failure (.spec (.fileNotFound location)))

/-- The first edition. -/
def firstEdition : Spec.Description :=
  ⟨"pets.yaml", "3.0", [("openapi", .text "3.0.0"), ("x-edition", .int 0)]⟩

/-- An hour, for which descriptions are kept. -/
def hour : Time.Duration := ⟨3600000000⟩

/-- What the provider was called for. -/
def firstSecond : List Call := [.refresh "shop.yaml" hour, .wait 1000000]

/-- The provider after that. -/
def servant : Service Nat := (Service.start .morning 0).run editions firstSecond

theorem ready_firstEdition : ready "pets.yaml" (.ok firstEdition.value) = .ok firstEdition :=
  ready_of_refs_eq_nil rfl (by with_unfolding_all rfl) rfl

/-- The locations that the provider is called for. -/
def shops : Set String := {location | location ∈ ["pets.yaml", "shop.yaml"]}

theorem staysIn_firstSecond : ∀ call ∈ firstSecond, call.StaysIn shops := by
  intro call hcall location ttl hasks
  rcases List.mem_cons.1 hcall with rfl | hcall
  · rcases hasks with hasks | hasks
    · cases hasks
    · cases hasks
      exact List.mem_cons_of_mem _ (List.mem_singleton_self _)
  · rw [List.mem_singleton.1 hcall] at hasks
    rcases hasks with hasks | hasks
    · cases hasks
    · cases hasks

theorem injOn_shops : Set.InjOn Cache.keyOf shops := by
  have hkeys : ∀ a ∈ ["pets.yaml", "shop.yaml"], ∀ b ∈ ["pets.yaml", "shop.yaml"],
      Cache.keyOf a = Cache.keyOf b → a = b := by
    decide +kernel
  exact fun a ha b hb h => hkeys a ha b hb h

theorem isSound_servant : servant.IsSound shops :=
  (isSound_start Clock.isUniversal_morning 0 shops).run editions staysIn_firstSecond

theorem cache_servant : servant.supply.cache = some (.onStore .empty) := by
  with_unfolding_all rfl

theorem clock_servant : servant.supply.clock = ⟨⟨⟨2024, 1, 2⟩, 0, 0, 1, 0, some 0⟩, 0⟩ := by
  decide +kernel

theorem source_servant : servant.supply.source.1 = 0 := by
  decide +kernel

theorem isJson_firstEdition : firstEdition.value.IsJson := by
  rw [Spec.Description.value, Value.isJson_ofFields]
  refine ⟨by decide, fun e he => ?_⟩
  rcases List.mem_cons.1 he with rfl | he
  · trivial
  · rw [List.mem_singleton.1 he]
    trivial

/-- The first edition can be kept. -/
theorem not_cannotKeep_firstEdition (defect : Defect) :
    ¬ CannotKeep servant.supply.clock.tick.now hour firstEdition defect := by
  intro h
  cases h with
  | make h =>
    unfold Entry.make at h
    split at h
    · cases h
    · rename_i hnone
      rw [clock_servant] at hnone
      exact absurd hnone (by decide +kernel)
  | @plain e hmake h =>
    have hnow := (Clock.of_tick isSound_servant.universal).1
    have hstorable := Entry.isStorable_of_make hmake hnow isJson_firstEdition
    cases hstorable.plain_eq.symm.trans h

/-- The provider answers the first edition. -/
theorem outcome_servant :
    (servant.turn editions (.describe "pets.yaml" hour)).outcome = .ok (some firstEdition) := by
  rcases finds_or_loadsAnew cache_servant (SpecCache.isIndexed_empty fun _ _ => False)
    (fun _ _ h => h.elim) editions "pets.yaml" hour with
    ⟨e, hfinds⟩ | ⟨c₀, raw, answer, c', -, hloads⟩
  · cases hfinds.index
  · obtain ⟨log, hraw⟩ := hloads.answered
    rw [source_servant] at hraw
    have hkeeps := hloads.keeps
    obtain rfl : .ok firstEdition.value = raw := hraw
    rw [ready_firstEdition] at hkeeps
    rw [hloads.outcome]
    cases hkeeps with
    | kept hmake hplain => rfl
    | refused h => exact absurd h (not_cannotKeep_firstEdition _)

theorem isTraced_answer_run_servant :
    Clock.morning.now.IsUniversal ∧ Set.InjOn Cache.keyOf shops ∧
      (∀ call ∈ firstSecond, call.StaysIn shops) ∧ "pets.yaml" ∈ shops ∧
      (servant.turn editions (.describe "pets.yaml" hour)).outcome = .ok (some firstEdition) ∧
      IsTraced (servant.turn editions (.describe "pets.yaml" hour) :: servant.done) "pets.yaml"
        firstEdition servant.supply.clock.now.instant ∧
      (servant.turn editions (.refresh "shop.yaml" hour)).outcome =
        .error (.failure (.spec (.fileNotFound "shop.yaml"))) := by
  have hpets : "pets.yaml" ∈ shops := List.mem_cons_self
  have hshop : "shop.yaml" ∈ shops := List.mem_cons_of_mem _ (List.mem_singleton_self _)
  obtain ⟨htraced, -⟩ := isTraced_answer_run Clock.isUniversal_morning editions 0 injOn_shops
    staysIn_firstSecond hpets hour
  obtain ⟨-, -, hcalls⟩ := isTraced_answer_run Clock.isUniversal_morning editions 0 injOn_shops
    staysIn_firstSecond hshop hour
  have hloads : (servant.turn editions (.refresh "shop.yaml" hour)).loads =
      [("shop.yaml", .error (.failure (.spec (.fileNotFound "shop.yaml"))))] := by
    with_unfolding_all rfl
  have hmem : ("shop.yaml", .error (.failure (.spec (.fileNotFound "shop.yaml")))) ∈
      (servant.turn editions (.refresh "shop.yaml" hour)).loads := by
    rw [hloads]
    exact List.mem_singleton_self _
  exact ⟨Clock.isUniversal_morning, injOn_shops, staysIn_firstSecond, hpets, outcome_servant,
    htraced firstEdition outcome_servant,
    ((hcalls (.refresh "shop.yaml" hour) (.inr rfl)).2 _ _ hmem rfl).1⟩

end Provider

end ApiShell
