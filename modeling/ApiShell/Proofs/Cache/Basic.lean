import ApiShell.Cache.Basic
import ApiShell.Proofs.Cache.Entry

/-!
# What is done with a cache

Each thing that is done with a cache on a working store is described by what it answers and by the
cache that it leaves.  `Yields` says so of a computation, whatever records are written already, and
passes from the parts of a sequence to the whole.

An entry that is kept is put into the index and, in its stored form, into the store.  `Holds` says
which entry the two have of a key: the index may not know it yet, but it never knows another one.
-/

namespace ApiShell.SpecCache

open Cache (Entry Store)

variable {α β : Type} {c c' c'' : SpecCache} {key : String} {now : Time.Moment} {e : Entry}

/-! ### Computations on a cache -/

/-- The computation answers `r` on the cache `c` and leaves the cache `c'`, whatever records are
written already. -/
def Yields (task : CacheTask α) (c : SpecCache) (r : Except Defect α) (c' : SpecCache) : Prop :=
  ∀ log, ((task.run.run c).run log).1 = (r, c')

theorem Yields.pure (a : α) (c : SpecCache) : Yields (Pure.pure a) c (.ok a) c := fun _ => rfl

theorem Yields.record (level : Level) (message : String) (c : SpecCache) :
    Yields (ApiShell.record level message) c (.ok ()) c := fun _ => rfl

theorem Yields.orStop (r : Except Defect α) (c : SpecCache) : Yields (SpecCache.orStop r) c r c := by
  cases r <;> exact fun _ => rfl

/-- A sequence goes on with what its first part answers and leaves. -/
theorem Yields.bind {task : CacheTask α} {f : α → CacheTask β} {a : α} {r : Except Defect β}
    (h : Yields task c (.ok a) c') (hf : Yields (f a) c' r c'') : Yields (task >>= f) c r c'' := by
  intro log
  obtain ⟨log', hlog⟩ : ∃ log', (task.run.run c).run log = ((.ok a, c'), log') :=
    ⟨_, Prod.ext (h log) rfl⟩
  rw [ExceptT.run_bind, StateT.run_bind, StateT.run_bind, hlog]
  exact hf log'

/-- A sequence ends where its first part ends early. -/
theorem Yields.bind_error {task : CacheTask α} {f : α → CacheTask β} {d : Defect}
    (h : Yields task c (.error d) c') : Yields (task >>= f) c (.error d) c' := by
  intro log
  obtain ⟨log', hlog⟩ : ∃ log', (task.run.run c).run log = ((.error d, c'), log') :=
    ⟨_, Prod.ext (h log) rfl⟩
  rw [ExceptT.run_bind, StateT.run_bind, StateT.run_bind, hlog]
  rfl

/-! ### The caches that are left -/

/-- The store does all that it is asked to do. -/
def IsWorking (c : SpecCache) : Prop := c.store.broken = []

/-- The cache with an entry, which is stored as `v`. -/
def keeping (c : SpecCache) (e : Entry) (v : Value) : SpecCache :=
  ⟨Entries.put c.index e.key e, c.store.put e.key v⟩

/-- The cache without the entry under a key. -/
def without (c : SpecCache) (key : String) : SpecCache :=
  ⟨Entries.erase c.index key, { c.store with entries := Entries.erase c.store.entries key }⟩

/-- The cache that has seen an entry under a key. -/
def seeing (c : SpecCache) (key : String) (e : Entry) : SpecCache :=
  { c with index := Entries.put c.index key e }

theorem index_keeping (c : SpecCache) (e : Entry) (v : Value) (key : String) :
    Entries.get? (c.keeping e v).index key =
      if key = e.key then some e else Entries.get? c.index key :=
  Entries.get?_put c.index e.key key e

theorem store_keeping (c : SpecCache) (e : Entry) (v : Value) (key : String) :
    Entries.get? (c.keeping e v).store.entries key =
      if key = e.key then some v else Entries.get? c.store.entries key :=
  Entries.get?_put c.store.entries e.key key v

theorem index_without (c : SpecCache) (key other : String) :
    Entries.get? (c.without key).index other =
      if other = key then none else Entries.get? c.index other :=
  Entries.get?_erase c.index key other

theorem store_without (c : SpecCache) (key other : String) :
    Entries.get? (c.without key).store.entries other =
      if other = key then none else Entries.get? c.store.entries other :=
  Entries.get?_erase c.store.entries key other

theorem get_of_isWorking (h : c.IsWorking) (key : String) :
    c.store.get key = .ok ((Entries.get? c.store.entries key).filter fun v => !v.isNull) := by
  have hworks : c.store.broken.contains .get = false := by rw [h]; rfl
  rw [Store.get, hworks]
  rfl

theorem set_of_isWorking (h : c.IsWorking) (key : String) (v : Value) :
    c.store.set key v = .ok (c.store.put key v) := by
  have hworks : c.store.broken.contains .set = false := by rw [h]; rfl
  rw [Store.set, hworks]
  rfl

theorem delete_of_isWorking (h : c.IsWorking) (key : String) :
    c.store.delete key = .ok (c.without key).store := by
  have hworks : c.store.broken.contains .delete = false := by rw [h]; rfl
  rw [Store.delete, hworks]
  rfl

/-! ### Answers -/

/-- Taking an entry away takes it out of the index and the store. -/
theorem delete_yields (h : c.IsWorking) (key : String) :
    Yields (delete key) c (.ok ()) (c.without key) := by
  have hstore : Yields (SpecCache.orStop (c.store.delete key)) ⟨Entries.erase c.index key, c.store⟩
      (.ok (c.without key).store) ⟨Entries.erase c.index key, c.store⟩ := by
    rw [delete_of_isWorking h]
    exact .pure _ _
  unfold delete
  exact .bind (fun _ => rfl) (.bind (fun _ => rfl) (.bind hstore fun _ => rfl))

/-- An entry that could not be made is not kept. -/
theorem keep_yields_of_make_error {d : Spec.Description} {ttl : Time.Duration} {defect : Defect}
    (h : Entry.make now d ttl = .error defect) (c : SpecCache) :
    Yields (keep now d ttl) c (.error defect) c := by
  unfold keep
  rw [h]
  exact .bind_error (.orStop _ c)

/-- An entry that has no stored form is not kept. -/
theorem keep_yields_of_plain_error {d : Spec.Description} {ttl : Time.Duration} {defect : Defect}
    (hmake : Entry.make now d ttl = .ok e) (h : e.plain = .error defect) (c : SpecCache) :
    Yields (keep now d ttl) c (.error defect) c := by
  unfold keep
  rw [hmake]
  refine .bind (.orStop _ c) (.bind_error ?_)
  rw [h]
  exact .orStop _ c

/-- An entry that was made and has a stored form is kept. -/
theorem keep_yields {d : Spec.Description} {ttl : Time.Duration} {v : Value} (h : c.IsWorking)
    (hmake : Entry.make now d ttl = .ok e) (hplain : e.plain = .ok v) :
    Yields (keep now d ttl) c (.ok e) (c.keeping e v) := by
  have hset : Yields (SpecCache.orStop (c.store.set e.key v)) c (.ok (c.store.put e.key v)) c := by
    rw [set_of_isWorking h]
    exact .pure _ _
  have hform : Yields (SpecCache.orStop e.plain) c (.ok v) c := by
    rw [hplain]
    exact .pure _ _
  unfold keep
  rw [hmake]
  exact .bind (.orStop _ c) (.bind hform (.bind (fun _ => rfl) (.bind hset fun _ => rfl)))

/-- What the index has under a key is found first. -/
theorem find_yields_of_index (h : Entries.get? c.index key = some e) :
    Yields (find key) c (.ok (some e)) c := by
  refine .bind (a := c) (fun _ => rfl) ?_
  rw [h]
  exact .pure _ _

/-- Nothing is found where neither the index nor the store has an entry. -/
theorem find_yields_none (h : c.IsWorking) (hindex : Entries.get? c.index key = none)
    (hstore : Entries.get? c.store.entries key = none) : Yields (find key) c (.ok none) c := by
  refine .bind (a := c) (fun _ => rfl) ?_
  rw [hindex, get_of_isWorking h, hstore]
  exact .bind (.orStop _ c) (.pure _ _)

/-- What only the store has is found there, unless it is faulty. -/
theorem find_yields_of_store {v : Value} (h : c.IsWorking)
    (hindex : Entries.get? c.index key = none) (hstore : Entries.get? c.store.entries key = some v)
    (hnull : v.isNull = false) (hcheck : Entry.check v = .ok e) :
    Yields (find key) c (.ok (some e)) c := by
  have hfilter : (some v).filter (fun v => !v.isNull) = some v := by
    rw [Option.filter_some, hnull]
    rfl
  refine .bind (a := c) (fun _ => rfl) ?_
  rw [hindex, get_of_isWorking h, hstore, hfilter]
  refine .bind (.orStop _ c) ?_
  dsimp only
  rw [hcheck]
  exact .orStop _ c

/-- Where nothing is found, looking up answers nothing. -/
theorem lookup_yields_none (h : Yields (find key) c (.ok none) c) (now : Time.Moment) :
    Yields (lookup now key) c (.ok none) c :=
  .bind h (.pure _ _)

/-- An entry whose time is not over is answered, and seen from then on. -/
theorem lookup_yields_of_live (h : Yields (find key) c (.ok (some e)) c)
    (hlive : e.isExpired now = .ok false) :
    Yields (lookup now key) c (.ok (some e)) (c.seeing key e) := by
  refine .bind h ?_
  dsimp only
  rw [hlive]
  exact .bind (.orStop _ c) (.bind (fun _ => rfl) (.pure _ _))

/-- An entry whose time is over is taken away. -/
theorem lookup_yields_of_expired (hworking : c.IsWorking) (h : Yields (find key) c (.ok (some e)) c)
    (hexpired : e.isExpired now = .ok true) :
    Yields (lookup now key) c (.ok none) (c.without key) := by
  refine .bind h ?_
  dsimp only
  rw [hexpired]
  exact .bind (.orStop _ c) (.bind (.record _ _ c) (.bind (delete_yields hworking key) (.pure _ _)))

end ApiShell.SpecCache
