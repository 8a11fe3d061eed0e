import ApiShell.Proofs.Cache.Lifetime
import ApiShell.Proofs.Cache.Trouble
import Mathlib.Logic.Function.Basic

/-!
# Instances that share a store

Processes that are run beside each other open the cache in the same directory: they share its store,
and each instance has an index of its own.  Nothing tells an instance that another one has kept a
newer entry.  So an instance may look up a key under which its index still has an old entry whose
time is over, and then it takes away what the store has, which is the newer entry.

Main statement: as long as the time of the entry that was kept last is not over, an instance that is
newly opened finds it exactly if nothing of this kind has happened since, and if its document is its
own plain form.
-/

namespace ApiShell.SpecCache

open Cache (Entry Store)

variable {c : SpecCache} {key : String} {e : Entry} {d : Spec.Description} {ttl : Time.Duration}

/-! ### What looking up does to a store -/

/-- What the cache has under the key is an entry whose time is over. -/
def HasExpired (c : SpecCache) (now : Time.Moment) (key : String) : Prop :=
  ∃ e, c.found key = .ok (some e) ∧ e.isExpired now = .ok true

/-- Looking up takes an expired entry out of the store, and does nothing else to it. -/
theorem exists_lookup_of_isWorking (hworking : c.IsWorking) (now : Time.Moment) (key : String) :
    ∃ r c', Yields (lookup now key) c r c' ∧
      (¬ c.HasExpired now key ∧ c'.store = c.store ∨
        c.HasExpired now key ∧ c'.store = (c.without key).store) := by
  have hfind := find_yields c key
  cases hfound : c.found key with
  | error defect =>
    rw [hfound] at hfind
    refine ⟨_, c, hfind.bind_error, .inl ⟨?_, rfl⟩⟩
    rintro ⟨e, he, -⟩
    cases hfound.symm.trans he
  | ok e? =>
    rw [hfound] at hfind
    cases e? with
    | none =>
      refine ⟨_, c, lookup_yields_none hfind now, .inl ⟨?_, rfl⟩⟩
      rintro ⟨e, he, -⟩
      cases hfound.symm.trans he
    | some e =>
      cases hexpired : e.isExpired now with
      | error defect =>
        refine ⟨.error defect, c, hfind.bind ?_, .inl ⟨?_, rfl⟩⟩
        · exact .bind_error (hexpired ▸ .orStop _ c)
        · rintro ⟨e', he', hover⟩
          cases hfound.symm.trans he'
          cases hexpired.symm.trans hover
      | ok isOver =>
        cases isOver with
        | false =>
          refine ⟨_, _, lookup_yields_of_live hfind hexpired, .inl ⟨?_, rfl⟩⟩
          rintro ⟨e', he', hover⟩
          cases hfound.symm.trans he'
          cases hexpired.symm.trans hover
        | true =>
          exact ⟨_, _, lookup_yields_of_expired hworking hfind hexpired,
            .inr ⟨⟨e, hfound, hexpired⟩, rfl⟩⟩

/-- A description is kept as the entry that is made of it, or the cache stays as it is. -/
theorem keep_cases (hworking : c.IsWorking) (now : Time.Moment) (d : Spec.Description)
    (ttl : Time.Duration) :
    (∃ defect, Yields (keep now d ttl) c (.error defect) c) ∨
      ∃ e v, Entry.make now d ttl = .ok e ∧ e.plain = .ok v ∧
        Yields (keep now d ttl) c (.ok e) (c.keeping e v) := by
  cases hmake : Entry.make now d ttl with
  | error defect => exact .inl ⟨defect, keep_yields_of_make_error hmake c⟩
  | ok e =>
    cases hplain : e.plain with
    | error defect => exact .inl ⟨defect, keep_yields_of_plain_error hmake hplain c⟩
    | ok v => exact .inr ⟨e, v, rfl, hplain, keep_yields hworking hmake hplain⟩

/-! ### Instances -/

/-- Instances with an index each, the store that they share, and the present time. -/
structure Sharing (ι : Type) where
  index : ι → List (String × Entry)
  store : Store
  clock : Clock

/-- What the instances do, and the passing of time. -/
inductive Move (ι : Type) where
  | keep (i : ι) (d : Spec.Description) (ttl : Time.Duration)
  | lookup (i : ι) (key : String)
  | wait (micros : Nat)

namespace Sharing

variable {ι : Type} {p : Sharing ι}

/-- Instances that were just opened on a store. -/
def opened (store : Store) (clock : Clock) : Sharing ι := ⟨fun _ => [], store, clock⟩

/-- The cache of an instance. -/
def view (p : Sharing ι) (i : ι) : SpecCache := ⟨p.index i, p.store⟩

/-- What an instance that is newly opened answers for a key. -/
def answerAnew (p : Sharing ι) (key : String) : Answer :=
  (outcome (SpecCache.lookup p.clock.now key) (onStore p.store)).1

/-- An instance looks the key up, and what it finds there is an entry whose time is over. -/
def Takes (p : Sharing ι) (key : String) (move : Move ι) : Prop :=
  ∃ i, move = .lookup i key ∧ (p.view i).HasExpired p.clock.now key

/-- An instance looks the key up, and what its own index has there is an entry whose time is over. -/
def Spoils (p : Sharing ι) (key : String) (move : Move ι) : Prop :=
  ∃ i e, move = .lookup i key ∧ Entries.get? (p.index i) key = some e ∧
    e.isExpired p.clock.now = .ok true

/-- The store has nothing under the key. -/
structure HasLost (p : Sharing ι) (key : String) : Prop where
  working : p.store.broken = []
  gone : Entries.get? p.store.entries key = none

/-- The store has under the key a form of the entry, whose time is not over. -/
structure HasStored (p : Sharing ι) (key : String) (e : Entry) : Prop where
  working : p.store.broken = []
  stored : ∃ v, Entries.get? p.store.entries key = some v ∧ v.isNull = false ∧
    Entry.check v = .ok e
  universal : e.expiresAt.IsUniversal
  live : p.clock.now.instant ≤ e.expiresAt.instant

theorem HasStored.isExpired_eq (h : p.HasStored key e) : e.isExpired p.clock.now = .ok false := by
  rw [Entry.isExpired_eq h.universal, decide_eq_false (Int.not_lt.2 h.live)]

/-- A stored entry is found by an instance that is newly opened. -/
theorem HasStored.answerAnew (h : p.HasStored key e) : p.answerAnew key = .ok (some e) := by
  obtain ⟨v, hstored, hnull, hcheck⟩ := h.stored
  have hfind := find_yields_of_store (c := onStore p.store) h.working rfl hstored hnull hcheck
  rw [Sharing.answerAnew, (lookup_yields_of_live hfind h.isExpired_eq).outcome_eq]

theorem HasLost.answerAnew (h : p.HasLost key) : p.answerAnew key = .ok none := by
  have hfind := find_yields_none (c := onStore p.store) h.working rfl h.gone
  rw [Sharing.answerAnew, (lookup_yields_none hfind p.clock.now).outcome_eq]

/-- A stored entry is taken away exactly where the own index of an instance has one whose time is
over. -/
theorem HasStored.takes_iff (h : p.HasStored key e) (move : Move ι) :
    p.Takes key move ↔ p.Spoils key move := by
  constructor
  · rintro ⟨i, rfl, old, hfound, hover⟩
    cases hindex : Entries.get? (p.view i).index key with
    | some own =>
      have hown :=
        (find_yields_of_index hindex).outcome_eq.symm.trans (find_yields _ key).outcome_eq
      obtain rfl := Option.some.inj (Except.ok.inj ((congrArg Prod.fst hown).trans hfound))
      exact ⟨i, own, rfl, hindex, hover⟩
    | none =>
      -- What is found in the store is the entry itself, and its time is not over.
      obtain ⟨v, hstored, hnull, hcheck⟩ := h.stored
      have hfind := find_yields_of_store (c := p.view i) h.working hindex hstored hnull hcheck
      have hentry := hfind.outcome_eq.symm.trans (find_yields _ key).outcome_eq
      obtain rfl := Option.some.inj (Except.ok.inj ((congrArg Prod.fst hentry).trans hfound))
      cases h.isExpired_eq.symm.trans hover
  · rintro ⟨i, own, rfl, hindex, hover⟩
    have hown := (find_yields_of_index (c := p.view i) hindex).outcome_eq.symm.trans
      (find_yields _ key).outcome_eq
    exact ⟨i, rfl, own, (congrArg Prod.fst hown).symm, hover⟩

/-! ### Moves -/

variable [DecidableEq ι] {i : ι} {moves : List (Move ι)}

/-- The instances after the cache of one of them has become `c`. -/
def become (p : Sharing ι) (i : ι) (c : SpecCache) : Sharing ι :=
  { p with index := Function.update p.index i c.index, store := c.store }

/-- What a move answers, and the instances after it. -/
def perform (p : Sharing ι) : Move ι → Answer × Sharing ι
  | .keep i d ttl =>
    let (r, c) := outcome (SpecCache.keep p.clock.now d ttl) (p.view i)
    (r.map some, p.become i c)
  | .lookup i key =>
    let (r, c) := outcome (SpecCache.lookup p.clock.now key) (p.view i)
    (r, p.become i c)
  | .wait micros => match p.clock.advance micros with
    | .ok clock => (.ok none, { p with clock })
    | .error defect => (.error defect, p)

/-- What a move answers. -/
def answer (p : Sharing ι) (move : Move ι) : Answer := (p.perform move).1

/-- The instances after a move. -/
def step (p : Sharing ι) (move : Move ι) : Sharing ι := (p.perform move).2

/-- The instances after moves. -/
def run (p : Sharing ι) (moves : List (Move ι)) : Sharing ι := moves.foldl step p

/-- The move puts a new entry under the key. -/
def Replaces (p : Sharing ι) (key : String) (move : Move ι) : Prop :=
  ∃ i d ttl e, move = .keep i d ttl ∧ p.answer move = .ok (some e) ∧ e.key = key

/-- One of the moves is such that `P` holds of it and of the instances before it. -/
def Meets (P : Sharing ι → Move ι → Prop) : Sharing ι → List (Move ι) → Prop
  | _, [] => False
  | p, move :: moves => P p move ∨ Meets P (p.step move) moves

theorem perform_keep {r : Except Defect Entry}
    (h : Yields (SpecCache.keep p.clock.now d ttl) (p.view i) r c) :
    p.perform (.keep i d ttl) = (r.map some, p.become i c) := by
  rw [perform, h.outcome_eq]

theorem perform_lookup {r : Answer}
    (h : Yields (SpecCache.lookup p.clock.now key) (p.view i) r c) :
    p.perform (.lookup i key) = (r, p.become i c) := by
  rw [perform, h.outcome_eq]

/-- Time does not go back. -/
theorem instant_le_step (p : Sharing ι) (move : Move ι) :
    p.clock.now.instant ≤ (p.step move).clock.now.instant := by
  cases move with
  | keep i d ttl => exact Int.le_refl _
  | lookup i key => exact Int.le_refl _
  | wait micros =>
    rw [step, perform]
    cases hadvance : p.clock.advance micros with
    | error defect => exact Int.le_refl _
    | ok clock =>
      have hinstant := (Clock.of_advance hadvance).2
      dsimp only
      omega

theorem instant_le_run (p : Sharing ι) (moves : List (Move ι)) :
    p.clock.now.instant ≤ (p.run moves).clock.now.instant := by
  induction moves generalizing p with
  | nil => exact Int.le_refl _
  | cons move moves ih => exact (instant_le_step p move).trans (ih (p.step move))

/-- The move leaves what the store has under the key. -/
def LeavesAlone (p : Sharing ι) (key : String) (move : Move ι) : Prop :=
  ¬ p.Takes key move ∧
    Entries.get? (p.step move).store.entries key = Entries.get? p.store.entries key

/-- The move takes away what the store has under the key. -/
def Removes (p : Sharing ι) (key : String) (move : Move ι) : Prop :=
  p.Takes key move ∧ Entries.get? (p.step move).store.entries key = none

omit [DecidableEq ι] in
/-- Only looking up takes anything away. -/
theorem lookup_of_takes {move : Move ι} (h : p.Takes key move) : ∃ i, move = .lookup i key :=
  h.imp fun _ htakes => htakes.1

/-- Keeping a description leaves other keys alone. -/
theorem leavesAlone_keep (hworking : p.store.broken = []) {i : ι} {d : Spec.Description}
    {ttl : Time.Duration} (hkeeps : ¬ p.Replaces key (.keep i d ttl)) :
    (p.step (.keep i d ttl)).store.broken = [] ∧ p.LeavesAlone key (.keep i d ttl) := by
  have hview : (p.view i).IsWorking := hworking
  have hnone : ¬ p.Takes key (.keep i d ttl) := fun h => nomatch lookup_of_takes h
  unfold LeavesAlone
  rcases keep_cases hview p.clock.now d ttl with ⟨defect, hyields⟩ | ⟨e, v, -, -, hyields⟩
  · rw [step, perform_keep hyields]
    exact ⟨hworking, hnone, rfl⟩
  · have hanswer : p.answer (.keep i d ttl) = .ok (some e) :=
      congrArg Prod.fst (perform_keep hyields)
    have hother : key ≠ e.key := fun hkey => hkeeps ⟨i, d, ttl, e, rfl, hanswer, hkey.symm⟩
    rw [step, perform_keep hyields]
    exact ⟨hworking, hnone, (store_keeping (p.view i) e v key).trans (if_neg hother)⟩

/-- Looking up leaves other keys alone, and takes away what stands under its own key if the time of
that is over. -/
theorem leavesAlone_or_removes_lookup (hworking : p.store.broken = []) (i : ι) (other : String) :
    (p.step (.lookup i other)).store.broken = [] ∧
      (p.LeavesAlone key (.lookup i other) ∨ p.Removes key (.lookup i other)) := by
  have hview : (p.view i).IsWorking := hworking
  obtain ⟨r, c, hyields, hstore⟩ := exists_lookup_of_isWorking hview p.clock.now other
  have hnext : (p.step (.lookup i other)).store = c.store :=
    congrArg (fun r : Answer × Sharing ι => r.2.store) (perform_lookup hyields)
  unfold LeavesAlone Removes
  rw [hnext]
  rcases hstore with ⟨hfresh, hsame⟩ | ⟨hover, htaken⟩
  · rw [hsame]
    refine ⟨hworking, .inl ⟨?_, rfl⟩⟩
    rintro ⟨j, hmove, hover⟩
    cases hmove
    exact hfresh hover
  · rw [htaken, store_without]
    refine ⟨hworking, ?_⟩
    by_cases hkey : key = other
    · subst hkey
      exact .inr ⟨⟨i, rfl, hover⟩, if_pos rfl⟩
    · refine .inl ⟨?_, if_neg hkey⟩
      rintro ⟨j, hmove, -⟩
      cases hmove
      exact hkey rfl

/-- A move that puts nothing new under a key leaves it alone or takes it away. -/
theorem leavesAlone_or_removes (hworking : p.store.broken = []) {move : Move ι}
    (hkeeps : ¬ p.Replaces key move) :
    (p.step move).store.broken = [] ∧ (p.LeavesAlone key move ∨ p.Removes key move) := by
  cases move with
  | keep i d ttl => exact (leavesAlone_keep hworking hkeeps).imp_right .inl
  | lookup i other => exact leavesAlone_or_removes_lookup hworking i other
  | wait micros =>
    have hstore : (p.step (.wait micros)).store = p.store := by
      rw [step, perform]
      cases p.clock.advance micros <;> rfl
    unfold LeavesAlone
    rw [hstore]
    exact ⟨hworking, .inl ⟨(nomatch lookup_of_takes ·), rfl⟩⟩

/-- A stored entry stays in the store until it is taken away. -/
theorem HasStored.step (h : p.HasStored key e) {move : Move ι} (hkeeps : ¬ p.Replaces key move)
    (hlive : (p.step move).clock.now.instant ≤ e.expiresAt.instant) :
    ¬ p.Spoils key move ∧ (p.step move).HasStored key e ∨
      p.Spoils key move ∧ (p.step move).HasLost key := by
  obtain ⟨hworking, ⟨hstays, hsame⟩ | ⟨htaken, hgone⟩⟩ := leavesAlone_or_removes h.working hkeeps
  · have hspared : ¬ p.Spoils key move := fun hspoils => hstays ((h.takes_iff move).2 hspoils)
    refine .inl ⟨hspared, hworking, ?_, h.universal, hlive⟩
    rw [hsame]
    exact h.stored
  · exact .inr ⟨(h.takes_iff move).1 htaken, hworking, hgone⟩

/-- What is lost stays lost until something new is kept. -/
theorem HasLost.step (h : p.HasLost key) {move : Move ι} (hkeeps : ¬ p.Replaces key move) :
    (p.step move).HasLost key := by
  obtain ⟨hworking, ⟨-, hsame⟩ | ⟨-, hgone⟩⟩ := leavesAlone_or_removes h.working hkeeps
  · exact ⟨hworking, hsame.trans h.gone⟩
  · exact ⟨hworking, hgone⟩

theorem HasLost.run (h : p.HasLost key) (hkeeps : ¬ Meets (Replaces · key ·) p moves) :
    (p.run moves).HasLost key := by
  induction moves generalizing p with
  | nil => exact h
  | cons move moves ih =>
    obtain ⟨hfirst, hrest⟩ := not_or.1 hkeeps
    exact ih (h.step hfirst) hrest

/-- After moves that put nothing new under the key, the entry is stored, or one of them has taken it
away. -/
theorem HasStored.run (h : p.HasStored key e) (hkeeps : ¬ Meets (Replaces · key ·) p moves)
    (hlive : (p.run moves).clock.now.instant ≤ e.expiresAt.instant) :
    ¬ Meets (Spoils · key ·) p moves ∧ (p.run moves).HasStored key e ∨
      Meets (Spoils · key ·) p moves ∧ (p.run moves).HasLost key := by
  induction moves generalizing p with
  | nil => exact .inl ⟨not_false, h⟩
  | cons move moves ih =>
    obtain ⟨hfirst, hrest⟩ := not_or.1 hkeeps
    have hafter := (instant_le_run (p.step move) moves).trans hlive
    rcases h.step hfirst hafter with ⟨hspares, hstored⟩ | ⟨hspoils, hlost⟩
    · rcases ih hstored hrest hlive with ⟨hnone, hstays⟩ | ⟨hsome, hgone⟩
      · exact .inl ⟨not_or.2 ⟨hspares, hnone⟩, hstays⟩
      · exact .inr ⟨.inr hsome, hgone⟩
    · exact .inr ⟨.inl hspoils, hlost.run hrest⟩

/-- An entry that was kept is stored as it is read back, with the plain form of its document. -/
theorem exists_hasStored (hworking : p.store.broken = []) (hclock : p.clock.now.IsUniversal)
    (hkeep : p.answer (.keep i d ttl) = .ok (some e))
    (hlive : p.clock.now.instant ≤ e.expiresAt.instant) :
    e.description = d ∧ ∃ document, (Value.ofFields e.document).plain = .ok (.ofFields document) ∧
      (p.step (.keep i d ttl)).HasStored e.key { e with document } := by
  have hview : (p.view i).IsWorking := hworking
  rcases keep_cases hview p.clock.now d ttl with ⟨defect, hyields⟩ | ⟨e', v, hmake, hplain, hyields⟩
  · cases (congrArg Prod.fst (perform_keep hyields)).symm.trans hkeep
  · obtain rfl : e' = e := Option.some.inj (Except.ok.inj
      ((congrArg Prod.fst (perform_keep hyields)).symm.trans hkeep))
    obtain ⟨-, hdescription, hcreated, hexpires, -⟩ := Entry.of_make hmake
    obtain ⟨document, hdocument, hnull, hcheck⟩ :=
      Entry.exists_check_of_plain hplain (hcreated ▸ hclock) hexpires
    refine ⟨hdescription, document, hdocument, ?_⟩
    rw [step, perform_keep hyields]
    exact ⟨hworking, ⟨v, (store_keeping (p.view i) e' v e'.key).trans (if_pos rfl), hnull, hcheck⟩,
      hexpires, hlive⟩

/-- **Sharing a store.**  Whatever instances have done before: an entry is kept, moves follow that put
nothing new under its key, and its time is not over.  Then an instance that is newly opened finds
exactly this entry if and only if the description is its own plain form and no instance has looked the
key up while its own index had an entry there whose time was over.  If one has, nothing is found. -/
theorem answerAnew_eq_iff (hworking : p.store.broken = []) (hclock : p.clock.now.IsUniversal)
    (hkeep : p.answer (.keep i d ttl) = .ok (some e)) (moves : List (Move ι))
    (hlast : ¬ Meets (Replaces · e.key ·) (p.step (.keep i d ttl)) moves)
    (hlive : isLive ((p.step (.keep i d ttl)).run moves).clock.now e = true) :
    let after := (p.step (.keep i d ttl)).run moves
    let isSpoilt := Meets (Spoils · e.key ·) (p.step (.keep i d ttl)) moves
    (after.answerAnew e.key = .ok (some e) ↔ d.value.plain = .ok d.value ∧ ¬ isSpoilt) ∧
      (isSpoilt → after.answerAnew e.key = .ok none) := by
  intro after isSpoilt
  have hend : after.clock.now.instant ≤ e.expiresAt.instant := of_decide_eq_true hlive
  have hnow : p.clock.now.instant ≤ after.clock.now.instant :=
    (instant_le_step p (.keep i d ttl)).trans (instant_le_run _ moves)
  obtain ⟨rfl, document, hplain, hstored⟩ :=
    exists_hasStored hworking hclock hkeep (hnow.trans hend)
  have hsame : e.description.value.plain = .ok e.description.value ↔ document = e.document := by
    show (Value.ofFields e.document).plain = .ok (.ofFields e.document) ↔ _
    rw [hplain]
    constructor
    · intro h
      exact Value.textFields_injective (Value.mapping.inj (Except.ok.inj h))
    · rintro rfl
      rfl
  rcases hstored.run hlast hend with ⟨hspared, hfound⟩ | ⟨hspoilt, hlost⟩
  · refine ⟨?_, fun h => absurd h hspared⟩
    rw [hfound.answerAnew, hsame]
    constructor
    · intro h
      exact ⟨congrArg Entry.document (Option.some.inj (Except.ok.inj h)), hspared⟩
    · rintro ⟨rfl, -⟩
      rfl
  · refine ⟨?_, fun _ => hlost.answerAnew⟩
    rw [hlost.answerAnew]
    exact ⟨fun h => (by cases h), fun h => absurd hspoilt h.2⟩

/-! ### Two instances and a shop -/

/-- The key of the shop. -/
def shopKey : String := Cache.keyOf "shop.yaml"

/-- The first of two instances keeps the description of the shop for a while, the second one looks it
up, and some time passes. -/
def seenByBoth (ttl passed : ℕ) : List (Move Bool) :=
  [.keep false (titled "shop.yaml" "Old") ⟨ttl⟩, .lookup true shopKey, .wait passed]

/-- A newer description of the shop. -/
def newShop : Spec.Description := titled "shop.yaml" "New"

/-- An hour, in microseconds. -/
def hour : Time.Duration := ⟨3600000000⟩

/-- The answer is an entry under the key whose time is not over. -/
def isKeptAt (key : String) (now : Time.Moment) : Answer → Bool
  | .ok (some e) => e.key == key && isLive now e
  | _ => false

theorem exists_of_isKeptAt {now : Time.Moment} {a : Answer} (h : isKeptAt key now a = true) :
    ∃ e, a = .ok (some e) ∧ e.key = key ∧ isLive now e = true := by
  unfold isKeptAt at h
  split at h
  · rename_i e
    obtain ⟨hkey, hlive⟩ := Bool.and_eq_true_iff.1 h
    exact ⟨e, rfl, beq_iff_eq.1 hkey, hlive⟩
  · cases h

/-- What an instance has in its own index under a key, if it has something, is an entry whose time is
not over. -/
def hasFresh (p : Sharing Bool) (i : Bool) (key : String) : Bool :=
  (Entries.get? (p.index i) key).all fun e => (e.isExpired p.clock.now).toOption == some false

theorem not_isOver_of_hasFresh {p : Sharing Bool} {i : Bool} (h : p.hasFresh i key = true)
    (hindex : Entries.get? (p.index i) key = some e) : e.isExpired p.clock.now ≠ .ok true := by
  intro hover
  rw [hasFresh, hindex, Option.all_some, hover] at h
  cases h

/-- An older entry whose time is not over does no harm: both instances look the shop up, and the newer
entry is found. -/
theorem answerAnew_eq_iff_shop :
    let p := (opened .empty .morning).run (seenByBoth 3600000000 0)
    let moves := [.lookup true shopKey, .lookup false shopKey]
    p.store.broken = [] ∧ p.clock.now.IsUniversal ∧
      ∃ e, p.answer (.keep false newShop hour) = .ok (some e) ∧
        ¬ Meets (Replaces · e.key ·) (p.step (.keep false newShop hour)) moves ∧
        isLive ((p.step (.keep false newShop hour)).run moves).clock.now e = true ∧
        ((p.step (.keep false newShop hour)).run moves).answerAnew e.key = .ok (some e) := by
  intro p moves
  have hworking : p.store.broken = [] := by decide +kernel
  have hclock : p.clock = .morning := by decide +kernel
  have huniversal : p.clock.now.IsUniversal := hclock ▸ Clock.isUniversal_morning
  have hkept : isKeptAt shopKey ((p.step (.keep false newShop hour)).run moves).clock.now
      (p.answer (.keep false newShop hour)) = true := by
    decide +kernel
  obtain ⟨e, hkeep, hkey, hlive⟩ := exists_of_isKeptAt hkept
  have hlast : ¬ Meets (Replaces · e.key ·) (p.step (.keep false newShop hour)) moves := by
    rintro (⟨_, _, _, _, hmove, -⟩ | ⟨_, _, _, _, hmove, -⟩ | hnone)
    · cases hmove
    · cases hmove
    · exact hnone
  have hspared : ¬ Meets (Spoils · e.key ·) (p.step (.keep false newShop hour)) moves := by
    rw [hkey]
    rintro (⟨i, old, hmove, hindex, hover⟩ | ⟨i, new, hmove, hindex, hover⟩ | hnone)
    · cases hmove
      exact not_isOver_of_hasFresh (by decide +kernel) hindex hover
    · cases hmove
      exact not_isOver_of_hasFresh (by decide +kernel) hindex hover
    · exact hnone
  have hplain : newShop.value.plain = .ok newShop.value :=
    (isJson_titled "shop.yaml" "New").plain_eq
  exact ⟨hworking, huniversal, e, hkeep, hlast, hlive,
    (answerAnew_eq_iff hworking huniversal hkeep moves hlast hlive).1.2 ⟨hplain, hspared⟩⟩

/-- Not every entry whose time is not over is found by an instance that is newly opened: the second
instance still has an older entry of the shop, whose time is over, and looks the shop up. -/
theorem not_forall_answerAnew :
    ¬ ∀ (clock : Clock) (before after : List (Move Bool)) (p : Sharing Bool) (i : Bool)
      (d : Spec.Description) (ttl : Time.Duration) (e : Entry), clock.now.IsUniversal →
      p = (opened .empty clock).run before → d.value.IsJson →
      p.answer (.keep i d ttl) = .ok (some e) →
      ¬ Meets (Replaces · e.key ·) (p.step (.keep i d ttl)) after →
      isLive ((p.step (.keep i d ttl)).run after).clock.now e = true →
      ((p.step (.keep i d ttl)).run after).answerAnew e.key = .ok (some e) := by
  intro h
  let p := (opened .empty .morning).run (seenByBoth 1000000 2000000)
  have hkept : isKeptAt shopKey ((p.step (.keep false newShop hour)).run
      [.lookup true shopKey]).clock.now (p.answer (.keep false newShop hour)) = true := by
    decide +kernel
  obtain ⟨e, hkeep, hkey, hlive⟩ := exists_of_isKeptAt hkept
  have hlast : ¬ Meets (Replaces · e.key ·) (p.step (.keep false newShop hour))
      [.lookup true shopKey] := by
    rintro (⟨_, _, _, _, hmove, -⟩ | hnone)
    · cases hmove
    · exact hnone
  have hfound := h .morning (seenByBoth 1000000 2000000) [.lookup true shopKey] p false newShop
    hour e Clock.isUniversal_morning rfl (isJson_titled "shop.yaml" "New") hkeep hlast hlive
  have hgone : (((p.step (.keep false newShop hour)).run
      [.lookup true shopKey]).answerAnew shopKey).toOption.all (·.isNone) = true := by
    decide +kernel
  rw [hkey] at hfound
  rw [hfound] at hgone
  cases hgone

end Sharing

end ApiShell.SpecCache
