import ApiShell.Proofs.Cache.Basic
import ApiShell.Proofs.Time.Calendar

/-!
# Entries live until their time is over

A cache is used: descriptions are kept, looked up and taken away, time goes on, and the cache is
opened anew on its store.  `latest` reads off what has been done which entry was kept last under a
key and has not been taken away since.  Main statement: looking up a key answers that entry unless
its time is over, and then nothing is left of it.

What the index and the store have of a key is described by `Holds`.  The store has the stored form
of an entry, and the index has the entry itself or nothing, because it starts anew when the cache is
opened.  `IsFaithful` says of a cache in use that it holds, of each key, what was kept last, or
nothing if the time of that is over.  Each operation keeps it so.
-/

namespace ApiShell.SpecCache

open Cache (Entry Store)

variable {α : Type} {c : SpecCache} {key other : String} {now : Time.Moment} {e : Entry}
  {o : Option Entry}

/-! ### What a cache holds -/

/-- The index and the store together have the entry of a key, or have none. -/
def Holds (c : SpecCache) (key : String) : Option Entry → Prop
  | none => Entries.get? c.index key = none ∧ Entries.get? c.store.entries key = none
  | some e => e.IsStorable ∧ Entries.get? c.store.entries key = some (.ofFields e.storedFields) ∧
      (Entries.get? c.index key = none ∨ Entries.get? c.index key = some e)

/-- What is held is found. -/
theorem Holds.find_yields (h : c.Holds key o) (hworking : c.IsWorking) :
    Yields (find key) c (.ok o) c := by
  cases o with
  | none => exact find_yields_none hworking h.1 h.2
  | some e =>
    obtain ⟨hstorable, hstore, hindex | hindex⟩ := h
    · exact find_yields_of_store hworking hindex hstore rfl hstorable.check_storedFields
    · exact find_yields_of_index hindex

theorem holds_empty (key : String) : (onStore .empty).Holds key none := ⟨rfl, rfl⟩

theorem holds_cleared (c : SpecCache) (key : String) : c.cleared.Holds key none := ⟨rfl, rfl⟩

/-- Opening the cache anew forgets the index. -/
theorem Holds.onStore (h : c.Holds key o) : (onStore c.store).Holds key o := by
  cases o with
  | none => exact ⟨rfl, h.2⟩
  | some e => exact ⟨h.1, h.2.1, .inl rfl⟩

/-- What is held under a key depends on nothing but what the index and the store have there. -/
theorem Holds.congr {c' : SpecCache} (h : c.Holds key o)
    (hindex : Entries.get? c'.index key = Entries.get? c.index key)
    (hstore : Entries.get? c'.store.entries key = Entries.get? c.store.entries key) :
    c'.Holds key o := by
  cases o with
  | none => exact ⟨hindex.trans h.1, hstore.trans h.2⟩
  | some e => exact ⟨h.1, hstore.trans h.2.1, h.2.2.imp hindex.trans hindex.trans⟩

/-- An entry that is kept is held under its key. -/
theorem Holds.keeping (h : c.Holds key o) (he : e.IsStorable) :
    (c.keeping e (.ofFields e.storedFields)).Holds key (if key = e.key then some e else o) := by
  have hindex := Entries.get?_put c.index e.key key e
  have hstore := Entries.get?_put c.store.entries e.key key (.ofFields e.storedFields)
  by_cases hkey : key = e.key
  · rw [if_pos hkey] at hindex hstore ⊢
    exact ⟨he, hstore, .inr hindex⟩
  · rw [if_neg hkey] at hindex hstore ⊢
    exact h.congr hindex hstore

/-- An entry that is taken away is held no longer. -/
theorem Holds.without (h : c.Holds key o) (other : String) :
    (c.without other).Holds key (if key = other then none else o) := by
  have hindex := Entries.get?_erase c.index other key
  have hstore := Entries.get?_erase c.store.entries other key
  by_cases hkey : key = other
  · rw [if_pos hkey] at hindex hstore ⊢
    exact ⟨hindex, hstore⟩
  · rw [if_neg hkey] at hindex hstore ⊢
    exact h.congr hindex hstore

/-- Seeing an entry that is held changes nothing that is held. -/
theorem Holds.seeing (h : c.Holds key o) (hother : c.Holds other (some e)) :
    (c.seeing other e).Holds key (if key = other then some e else o) := by
  have hindex := Entries.get?_put c.index other key e
  by_cases hkey : key = other
  · rw [if_pos hkey] at hindex ⊢
    exact ⟨hother.1, hkey ▸ hother.2.1, .inr hindex⟩
  · rw [if_neg hkey] at hindex ⊢
    exact h.congr hindex rfl

/-! ### Using a cache -/

/-- What is done with a cache. -/
inductive Operation where
  | keep (d : Spec.Description) (ttl : Time.Duration)
  | lookup (key : String)
  | delete (key : String)
  | clear
  | wait (micros : Nat)
  | reopen

/-- The key that an operation is about, if it is about a single one. -/
def Operation.key? : Operation → Option String
  | keep d _ => some (Cache.keyOf d.location)
  | lookup key | delete key => some key
  | clear | wait _ | reopen => none

/-- A description that is kept is made of values that JSON has. -/
def Operation.IsJson : Operation → Prop
  | keep d _ => d.value.IsJson
  | _ => True

/-- What an operation answers: the entry that was kept or found, if there is one. -/
abbrev Answer := Except Defect (Option Entry)

/-- What a computation answers on a cache, and the cache that it leaves. -/
def outcome (task : CacheTask α) (c : SpecCache) : Except Defect α × SpecCache :=
  ((task.run.run c).run []).1

theorem Yields.outcome_eq {task : CacheTask α} {r : Except Defect α} {c' : SpecCache}
    (h : Yields task c r c') : outcome task c = (r, c') := h []

/-- A cache in use: the cache and its clock as they are now, and what was done and answered before,
the latest first. -/
structure Usage where
  cache : SpecCache
  clock : Clock
  done : List (Operation × Answer)

namespace Usage

/-- What an operation answers, and the cache and the clock after it. -/
def perform (u : Usage) : Operation → Answer × SpecCache × Clock
  | .keep d ttl =>
    let (r, cache) := outcome (SpecCache.keep u.clock.now d ttl) u.cache
    (r.map some, cache, u.clock)
  | .lookup key =>
    let (r, cache) := outcome (SpecCache.lookup u.clock.now key) u.cache
    (r, cache, u.clock)
  | .delete key =>
    let (r, cache) := outcome (SpecCache.delete key) u.cache
    (r.map fun _ => none, cache, u.clock)
  | .clear => (.ok none, u.cache.cleared, u.clock)
  | .wait micros => match u.clock.advance micros with
    | .ok clock => (.ok none, u.cache, clock)
    | .error defect => (.error defect, u.cache, u.clock)
  | .reopen => (.ok none, onStore u.cache.store, u.clock)

/-- What an operation answers. -/
def answer (u : Usage) (op : Operation) : Answer := (u.perform op).1

/-- The cache in use after an operation. -/
def step (u : Usage) (op : Operation) : Usage :=
  ⟨(u.perform op).2.1, (u.perform op).2.2, (op, u.answer op) :: u.done⟩

/-- The cache in use after operations. -/
def run (u : Usage) (ops : List Operation) : Usage := ops.foldl step u

/-- An empty cache with which nothing was done yet. -/
def start (clock : Clock) : Usage := ⟨onStore .empty, clock, []⟩

end Usage

/-- The entry under a key after something was done, where `before` was the entry before that. -/
def entryAfter (key : String) (before : Option Entry) : Operation × Answer → Option Entry
  | (.keep _ _, .ok (some e)) => if key = e.key then some e else before
  | (.delete other, _) => if key = other then none else before
  | (.clear, _) => none
  | _ => before

/-- The entry that was kept last under a key and not taken away since.  Its time may be over. -/
def latest (key : String) : List (Operation × Answer) → Option Entry
  | [] => none
  | event :: earlier => entryAfter key (latest key earlier) event

/-! ### Faithful caches -/

/-- What is left of an entry that was kept: all of it, or nothing if its time is over. -/
def IsLeftOf (now : Time.Moment) (kept left : Option Entry) : Prop :=
  left = kept ∨ left = none ∧ ∃ e, kept = some e ∧ e.expiresAt.instant < now.instant

/-- The cache holds of each key what is left of the entry that was kept last. -/
structure Usage.IsFaithful (u : Usage) : Prop where
  working : u.cache.IsWorking
  universal : u.clock.now.IsUniversal
  holds (key : String) : ∃ o, u.cache.Holds key o ∧ IsLeftOf u.clock.now (latest key u.done) o

/-- The time of the entry is not over. -/
def isLive (now : Time.Moment) (e : Entry) : Bool := now.instant ≤ e.expiresAt.instant

/-- What is left of an entry goes on being left of it. -/
theorem IsLeftOf.later {later : Time.Moment} {kept : Option Entry} (h : IsLeftOf now kept o)
    (hlater : now.instant ≤ later.instant) : IsLeftOf later kept o :=
  h.imp_right fun ⟨hnone, e, hkept, hexpired⟩ =>
    ⟨hnone, e, hkept, Int.lt_of_lt_of_le hexpired hlater⟩

/-- Nothing is left of what is not live. -/
theorem IsLeftOf.filter_eq_none {kept : Option Entry} (h : IsLeftOf now kept none) :
    kept.filter (isLive now) = none := by
  rcases h with hkept | ⟨-, e, hkept, hexpired⟩
  · rw [← hkept]
    rfl
  · rw [hkept, Option.filter_some, isLive, decide_eq_false (Int.not_le.2 hexpired)]
    rfl

/-- What is left is all of what was kept. -/
theorem IsLeftOf.eq_some {kept : Option Entry} (h : IsLeftOf now kept (some e)) : kept = some e := by
  rcases h with hkept | ⟨hnone, -⟩
  · exact hkept.symm
  · cases hnone

namespace Usage

variable {u : Usage}

/-- A description of values that JSON has is kept as the entry that is made of it, and only one that
would be kept beyond the calendar is refused. -/
theorem IsFaithful.perform_keep (h : u.IsFaithful) {d : Spec.Description} (hd : d.value.IsJson)
    (ttl : Time.Duration) :
    (∃ e, Entry.make u.clock.now d ttl = .ok e ∧ e.IsStorable ∧ u.perform (.keep d ttl) =
      (.ok (some e), u.cache.keeping e (.ofFields e.storedFields), u.clock)) ∨
    ∃ defect, Entry.make u.clock.now d ttl = .error defect ∧
      u.perform (.keep d ttl) = (.error defect, u.cache, u.clock) := by
  cases hmake : Entry.make u.clock.now d ttl with
  | error defect =>
    refine .inr ⟨defect, rfl, ?_⟩
    rw [perform, (keep_yields_of_make_error hmake u.cache).outcome_eq]
    rfl
  | ok e =>
    have hstorable : e.IsStorable := Entry.isStorable_of_make hmake h.universal hd
    refine .inl ⟨e, rfl, hstorable, ?_⟩
    rw [perform, (keep_yields h.working hmake hstorable.plain_eq).outcome_eq]
    rfl

/-- Looking up a key answers what was kept last if its time is not over.  If it is over, nothing is
held any more. -/
theorem IsFaithful.perform_lookup (h : u.IsFaithful) (key : String) :
    ∃ c', u.perform (.lookup key) =
        (.ok ((latest key u.done).filter (isLive u.clock.now)), c', u.clock) ∧ c'.IsWorking ∧
      (((latest key u.done).filter (isLive u.clock.now)) = none → c'.Holds key none) ∧
      ∀ k, ∃ o, c'.Holds k o ∧ IsLeftOf u.clock.now (latest k u.done) o := by
  obtain ⟨o, hheld, hleft⟩ := h.holds key
  have hfind := hheld.find_yields h.working
  cases o with
  | none =>
    refine ⟨u.cache, ?_, h.working, fun _ => hheld, h.holds⟩
    rw [perform, (lookup_yields_none hfind u.clock.now).outcome_eq, hleft.filter_eq_none]
  | some e =>
    have hexpired := Entry.isExpired_eq hheld.1.expiresAt u.clock.now
    rw [hleft.eq_some, Option.filter_some]
    by_cases hover : e.expiresAt.instant < u.clock.now.instant
    · rw [decide_eq_true hover] at hexpired
      have hdead : isLive u.clock.now e = false := decide_eq_false (Int.not_le.2 hover)
      refine ⟨u.cache.without key, ?_, h.working, fun _ => ?_, fun k => ?_⟩
      · rw [perform, (lookup_yields_of_expired h.working hfind hexpired).outcome_eq, hdead]
        rfl
      · have hgone := hheld.without key
        rwa [if_pos rfl] at hgone
      · obtain ⟨o, hk, hk'⟩ := h.holds k
        refine ⟨_, hk.without key, ?_⟩
        by_cases hsame : k = key
        · rw [if_pos hsame]
          exact .inr ⟨rfl, e, hsame ▸ hleft.eq_some, hover⟩
        · rwa [if_neg hsame]
    · rw [decide_eq_false hover] at hexpired
      have hlive : isLive u.clock.now e = true := decide_eq_true (Int.not_lt.1 hover)
      refine ⟨u.cache.seeing key e, ?_, h.working, fun hnone => ?_, fun k => ?_⟩
      · rw [perform, (lookup_yields_of_live hfind hexpired).outcome_eq, hlive]
        rfl
      · rw [hlive] at hnone
        cases hnone
      · obtain ⟨o, hk, hk'⟩ := h.holds k
        refine ⟨_, hk.seeing hheld, ?_⟩
        by_cases hsame : k = key
        · rw [if_pos hsame]
          exact .inl (hsame ▸ hleft.eq_some.symm)
        · rwa [if_neg hsame]

/-- Nothing is held by an empty cache, and nothing was kept in it. -/
theorem isFaithful_start {clock : Clock} (h : clock.now.IsUniversal) : (start clock).IsFaithful :=
  ⟨rfl, h, fun key => ⟨none, holds_empty key, .inl rfl⟩⟩

/-- What is kept is held from then on, and what was held under other keys still is. -/
theorem IsFaithful.step_keep (h : u.IsFaithful) {d : Spec.Description} (hd : d.value.IsJson)
    (ttl : Time.Duration) : (u.step (.keep d ttl)).IsFaithful := by
  rcases h.perform_keep hd ttl with ⟨e, -, hstorable, heq⟩ | ⟨defect, -, heq⟩
  · rw [Usage.step, answer, heq]
    refine ⟨h.working, h.universal, fun key => ?_⟩
    obtain ⟨o, hheld, hleft⟩ := h.holds key
    refine ⟨_, hheld.keeping hstorable, ?_⟩
    rw [latest, entryAfter]
    by_cases hkey : key = e.key
    · rw [if_pos hkey, if_pos hkey]
      exact .inl rfl
    · rwa [if_neg hkey, if_neg hkey]
  · rw [Usage.step, answer, heq]
    exact ⟨h.working, h.universal, h.holds⟩

/-- What is taken away is held no longer, and what was held under other keys still is. -/
theorem IsFaithful.step_delete (h : u.IsFaithful) (other : String) :
    (u.step (.delete other)).IsFaithful := by
  have heq : u.perform (.delete other) = (.ok none, u.cache.without other, u.clock) := by
    rw [perform, (delete_yields h.working other).outcome_eq]
    rfl
  rw [Usage.step, answer, heq]
  refine ⟨h.working, h.universal, fun key => ?_⟩
  obtain ⟨o, hheld, hleft⟩ := h.holds key
  refine ⟨_, hheld.without other, ?_⟩
  rw [latest, entryAfter]
  by_cases hkey : key = other
  · rw [if_pos hkey, if_pos hkey]
    exact .inl rfl
  · rwa [if_neg hkey, if_neg hkey]

/-- Waiting takes nothing away: what is left of an entry goes on being left of it. -/
theorem IsFaithful.step_wait (h : u.IsFaithful) (micros : ℕ) :
    (u.step (.wait micros)).IsFaithful := by
  rw [Usage.step, answer, perform]
  cases hadvance : u.clock.advance micros with
  | error defect => exact ⟨h.working, h.universal, h.holds⟩
  | ok clock =>
    obtain ⟨huniversal, hinstant⟩ := Clock.of_advance hadvance
    refine ⟨h.working, huniversal, fun key => ?_⟩
    obtain ⟨o, hheld, hleft⟩ := h.holds key
    have hlater : u.clock.now.instant ≤ clock.now.instant := by omega
    exact ⟨o, hheld, hleft.later hlater⟩

/-- Each operation leaves a faithful cache faithful. -/
theorem IsFaithful.step (h : u.IsFaithful) {op : Operation} (hop : op.IsJson) :
    (u.step op).IsFaithful := by
  cases op with
  | keep d ttl => exact h.step_keep hop ttl
  | lookup key =>
    obtain ⟨c', heq, hworking, -, hholds⟩ := h.perform_lookup key
    rw [Usage.step, answer, heq]
    exact ⟨hworking, h.universal, hholds⟩
  | delete other => exact h.step_delete other
  | clear => exact ⟨h.working, h.universal, fun key => ⟨none, holds_cleared _ key, .inl rfl⟩⟩
  | wait micros => exact h.step_wait micros
  | reopen =>
    refine ⟨h.working, h.universal, fun key => ?_⟩
    obtain ⟨o, hheld, hleft⟩ := h.holds key
    exact ⟨o, hheld.onStore, hleft⟩

/-- Operations leave a faithful cache faithful. -/
theorem IsFaithful.run (h : u.IsFaithful) {ops : List Operation} (hops : ∀ op ∈ ops, op.IsJson) :
    (u.run ops).IsFaithful := by
  induction ops generalizing u with
  | nil => exact h
  | cons op ops ih =>
    rw [List.forall_mem_cons] at hops
    exact ih (h.step hops.1) hops.2

/-! ### What is answered -/

/-- What is done with a single key takes no time. -/
theorem clock_step {op : Operation} (hkey : op.key? = some other) : (u.step op).clock = u.clock := by
  cases op with
  | keep d ttl => rfl
  | lookup key => rfl
  | delete key => rfl
  | clear => cases hkey
  | wait micros => cases hkey
  | reopen => cases hkey

/-- What is done with one key does not change what was kept last under another. -/
theorem IsFaithful.latest_step (h : u.IsFaithful) {op : Operation} (hop : op.IsJson)
    (hkey : op.key? = some other) (hne : other ≠ key) :
    latest key (u.step op).done = latest key u.done := by
  cases op with
  | keep d ttl =>
    have hlocation : Cache.keyOf d.location = other := Option.some.inj hkey
    rcases h.perform_keep hop ttl with ⟨e, hmake, -, heq⟩ | ⟨defect, -, heq⟩
    · rw [Usage.step, answer, heq, latest, entryAfter, (Entry.of_make hmake).1, hlocation,
        if_neg hne.symm]
    · rw [Usage.step, answer, heq]
      rfl
  | lookup k => rfl
  | delete k =>
    have hk : k = other := Option.some.inj hkey
    rw [Usage.step, latest, entryAfter, hk, if_neg hne.symm]
  | clear => cases hkey
  | wait micros => cases hkey
  | reopen => cases hkey

end Usage

/-! A history: two descriptions are kept for an hour, one of them is taken away, and the hour passes
while the cache is opened anew. -/

/-- A description with a title at a location. -/
def titled (location title : String) : Spec.Description :=
  ⟨location, "3.0", [("info", .ofFields [("title", .text title)])]⟩

/-- What is done in the hour. -/
def hourOfUse : List Operation :=
  [.keep (titled "pets.yaml" "Pets") ⟨3600000000⟩, .keep (titled "shop.yaml" "Shop") ⟨3600000000⟩,
    .delete (Cache.keyOf "shop.yaml"), .wait 3600000000, .reopen]

theorem isJson_titled (location title : String) : (titled location title).value.IsJson := by
  rw [Spec.Description.value, Value.isJson_ofFields]
  refine ⟨List.nodup_singleton _, fun e he => ?_⟩
  rw [List.mem_singleton.1 he, Value.isJson_ofFields]
  exact ⟨List.nodup_singleton _, fun e he => List.mem_singleton.1 he ▸ trivial⟩

end ApiShell.SpecCache
