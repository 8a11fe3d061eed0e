import ApiShell.Fault
import Mathlib.Data.List.Forall2

/-!
# Computations that may end early

A result read backwards: a sequence of computations succeeds exactly when each of them does, and so
does a loop.  `Succeeds` says that there is a result without naming it.

Computations that also write log records only ever append to them, and what they answer does not
depend on the records written before.  `AppendsOnly` says so of one computation and passes from the
parts of a computation to the whole.  What such computations answer can be read without any records:
`answer` takes sequences and loops of them to sequences and loops of answers.
-/

namespace ApiShell

section Except

variable {ε α β : Type}

/-- A sequence succeeds when both of its parts do. -/
theorem bind_eq_ok_iff {x : Except ε α} {f : α → Except ε β} {b : β} :
    x >>= f = .ok b ↔ ∃ a, x = .ok a ∧ f a = .ok b := by
  constructor
  · intro h
    cases x with
    | error e => cases h
    | ok a => exact ⟨a, rfl, h⟩
  · rintro ⟨a, rfl, h⟩
    exact h

/-- A sequence fails when its first part does, or the second one. -/
theorem bind_eq_error_iff {x : Except ε α} {f : α → Except ε β} {e : ε} :
    x >>= f = .error e ↔ x = .error e ∨ ∃ a, x = .ok a ∧ f a = .error e := by
  cases x with
  | error e' =>
    constructor
    · intro h
      exact .inl (congrArg _ (Except.error.inj h))
    · rintro (h | ⟨_, h, _⟩)
      · exact congrArg _ (Except.error.inj h)
      · cases h
  | ok a =>
    constructor
    · intro h
      exact .inr ⟨a, rfl, h⟩
    · rintro (h | ⟨a', ha, h⟩)
      · cases h
      · rw [Except.ok.inj ha]
        exact h

theorem map_eq_error_iff {x : Except ε α} {f : α → β} {e : ε} :
    x.map f = .error e ↔ x = .error e := by
  cases x with
  | error e' =>
    exact ⟨fun h => congrArg _ (Except.error.inj h), fun h => congrArg _ (Except.error.inj h)⟩
  | ok a => exact ⟨nofun, nofun⟩

theorem map_eq_ok_iff {x : Except ε α} {f : α → β} {b : β} :
    x.map f = .ok b ↔ ∃ a, x = .ok a ∧ f a = b := by
  cases x with
  | error e => exact ⟨nofun, fun ⟨_, h, _⟩ => nomatch h⟩
  | ok a => exact ⟨fun h => ⟨a, rfl, Except.ok.inj h⟩, fun ⟨_, h, hb⟩ => by cases h; rw [← hb]; rfl⟩

theorem mapError_eq_ok_iff {ε' : Type} {x : Except ε α} {f : ε → ε'} {a : α} :
    x.mapError f = .ok a ↔ x = .ok a := by
  cases x with
  | error e => exact ⟨nofun, nofun⟩
  | ok b => exact ⟨fun h => congrArg _ (Except.ok.inj h), fun h => congrArg _ (Except.ok.inj h)⟩

/-- What is left of a result without its errors is the result. -/
theorem eq_ok_of_toOption {x : Except ε α} {a : α} (h : x.toOption = some a) : x = .ok a := by
  cases x with
  | error e => cases h
  | ok b => exact congrArg _ (Option.some.inj h)

/-- A loop succeeds when each of its rounds does. -/
theorem mapM_eq_ok_iff {f : α → Except ε β} {as : List α} {bs : List β} :
    as.mapM f = .ok bs ↔ List.Forall₂ (fun a b => f a = .ok b) as bs := by
  induction as generalizing bs with
  | nil =>
    rw [List.mapM_nil, List.forall₂_nil_left_iff]
    exact ⟨fun h => (Except.ok.inj h).symm, fun h => h ▸ rfl⟩
  | cons a as ih =>
    rw [List.mapM_cons, List.forall₂_cons_left_iff, bind_eq_ok_iff]
    constructor
    · rintro ⟨b, hb, hrest⟩
      obtain ⟨bs', hbs, heq⟩ := bind_eq_ok_iff.1 hrest
      exact ⟨b, bs', hb, ih.1 hbs, (Except.ok.inj heq).symm⟩
    · rintro ⟨b, bs', hb, hbs, rfl⟩
      exact ⟨b, hb, bind_eq_ok_iff.2 ⟨bs', ih.2 hbs, rfl⟩⟩

/-- A loop ends with the first round that fails. -/
theorem mapM_eq_find? {f : α → Except ε β} {fails : α → Bool} {e : α → ε} {g : α → β} {as : List α}
    (hf : ∀ a ∈ as, f a = if fails a then .error (e a) else .ok (g a)) :
    as.mapM f = match as.find? fails with
      | some a => .error (e a)
      | none => .ok (as.map g) := by
  induction as with
  | nil => rfl
  | cons a as ih =>
    have hfirst := hf a List.mem_cons_self
    have hrest := ih fun b hb => hf b (List.mem_cons_of_mem a hb)
    rw [List.mapM_cons, hfirst, hrest]
    by_cases hfails : fails a
    · rw [if_pos hfails, List.find?_cons_of_pos hfails]
      rfl
    · rw [if_neg hfails, List.find?_cons_of_neg hfails]
      cases as.find? fails <;> rfl

/-- A loop that fails does so in one of its rounds. -/
theorem exists_of_mapM_eq_error {f : α → Except ε β} {as : List α} {e : ε}
    (h : as.mapM f = .error e) : ∃ a ∈ as, f a = .error e := by
  induction as with
  | nil => cases h
  | cons a as ih =>
    rw [List.mapM_cons] at h
    rcases bind_eq_error_iff.1 h with hfirst | ⟨b, -, h⟩
    · exact ⟨a, List.mem_cons_self, hfirst⟩
    · rcases bind_eq_error_iff.1 h with hrest | ⟨bs, -, hend⟩
      · obtain ⟨a', ha', hfails⟩ := ih hrest
        exact ⟨a', List.mem_cons_of_mem a ha', hfails⟩
      · cases hend

/-- What is true before a loop with a state and stays true in each of its rounds is true after it.
It may speak of what the loop has passed. -/
theorem foldlM_induction {f : β → α → Except ε β} {as : List α} {b b' : β}
    {I : List α → β → Prop} (h : as.foldlM f b = .ok b') (hstart : I [] b)
    (hround : ∀ passed a s s', I passed s → f s a = .ok s' → I (passed ++ [a]) s') : I as b' := by
  suffices hrest : ∀ rest passed s, rest.foldlM f s = .ok b' → I passed s → I (passed ++ rest) b' from
    hrest as [] b h hstart
  intro rest
  induction rest with
  | nil =>
    intro passed s hend hs
    rw [List.append_nil, ← Except.ok.inj hend]
    exact hs
  | cons a rest ih =>
    intro passed s hend hs
    rw [List.foldlM_cons] at hend
    obtain ⟨s', hfirst, hend⟩ := bind_eq_ok_iff.1 hend
    rw [← List.singleton_append, ← List.append_assoc]
    exact ih (passed ++ [a]) s' hend (hround passed a s s' hs hfirst)

/-- A loop with a state fails in the first of its rounds that fails. -/
theorem foldlM_eq_error_iff {f : β → α → Except ε β} {as : List α} {b : β} {e : ε} :
    as.foldlM f b = .error e ↔ ∃ before a after s, as = before ++ a :: after ∧
      before.foldlM f b = .ok s ∧ f s a = .error e := by
  constructor
  · intro h
    induction as generalizing b with
    | nil => cases h
    | cons a as ih =>
      rw [List.foldlM_cons] at h
      rcases bind_eq_error_iff.1 h with hfirst | ⟨s, hs, hrest⟩
      · exact ⟨[], a, as, b, rfl, rfl, hfirst⟩
      · obtain ⟨before, a', after, s', rfl, hbefore, hfails⟩ := ih hrest
        refine ⟨a :: before, a', after, s', rfl, ?_, hfails⟩
        rw [List.foldlM_cons]
        exact bind_eq_ok_iff.2 ⟨s, hs, hbefore⟩
  · rintro ⟨before, a, after, s, rfl, hbefore, hfails⟩
    rw [List.foldlM_append, hbefore]
    show (a :: after).foldlM f s = .error e
    rw [List.foldlM_cons, hfails]
    rfl

/-- What stands in a result of rounds was made of something. -/
theorem exists_mem_of_forall₂ {R : α → β → Prop} {as : List α} {bs : List β} {b : β}
    (h : List.Forall₂ R as bs) (hb : b ∈ bs) : ∃ a ∈ as, R a b := by
  induction h with
  | nil => cases hb
  | @cons a b' as bs hab _ ih =>
    rcases List.mem_cons.1 hb with rfl | hb
    · exact ⟨a, List.mem_cons_self, hab⟩
    · obtain ⟨a', ha', hab'⟩ := ih hb
      exact ⟨a', List.mem_cons_of_mem a ha', hab'⟩

/-- What corresponds to a list that corresponds back does so member by member. -/
theorem exists_of_forall₂_of_forall₂ {R : α → β → Prop} {S : β → α → Prop} {as : List α}
    {bs : List β} (h : List.Forall₂ R as bs) (hback : List.Forall₂ S bs as) {a : α} (ha : a ∈ as) :
    ∃ b, R a b ∧ S b a := by
  induction h with
  | nil => cases ha
  | @cons a' b as bs hab _ ih =>
    cases hback with
    | cons hba hrest =>
      rcases List.mem_cons.1 ha with rfl | ha
      · exact ⟨b, hab, hba⟩
      · exact ih hrest ha

/-- Results of rounds over two lists after each other are results of rounds over each. -/
theorem exists_append_of_forall₂ {R : α → β → Prop} {as as' : List α} {bs : List β}
    (h : List.Forall₂ R (as ++ as') bs) :
    ∃ cs cs', bs = cs ++ cs' ∧ List.Forall₂ R as cs ∧ List.Forall₂ R as' cs' := by
  induction as generalizing bs with
  | nil => exact ⟨[], bs, rfl, .nil, h⟩
  | cons a as ih =>
    obtain ⟨b, rest, hab, hrest, rfl⟩ := List.forall₂_cons_left_iff.1 h
    obtain ⟨cs, cs', rfl, hcs, hcs'⟩ := ih hrest
    exact ⟨b :: cs, cs', rfl, .cons hab hcs, hcs'⟩

/-- Loops over related members do the same if their rounds do. -/
theorem foldlM_eq_of_forall₂ {m : Type → Type} [Monad m] {γ : Type} {R : α → β → Prop} {as : List α}
    {bs : List β} {f : γ → α → m γ} {g : γ → β → m γ} (h : List.Forall₂ R as bs)
    (hround : ∀ a ∈ as, ∀ b, R a b → ∀ s, g s b = f s a) (s : γ) :
    bs.foldlM g s = as.foldlM f s := by
  induction h generalizing s with
  | nil => rfl
  | @cons a b as bs hab _ ih =>
    have hrest := ih fun a' ha' => hround a' (List.mem_cons_of_mem a ha')
    rw [List.foldlM_cons, List.foldlM_cons, hround a List.mem_cons_self b hab]
    exact congrArg (f s a >>= ·) (funext hrest)

/-- What each round chooses beside its member can be listed with the members. -/
theorem exists_map_of_forall₂ {γ : Type} {P : α → γ → Prop} {g : α × γ → β} {as : List α}
    {bs : List β} (h : List.Forall₂ (fun a b => ∃ c, P a c ∧ b = g (a, c)) as bs) :
    ∃ xs : List (α × γ), xs.map Prod.fst = as ∧ bs = xs.map g ∧ ∀ x ∈ xs, P x.1 x.2 := by
  induction h with
  | nil => exact ⟨[], rfl, rfl, fun x hx => absurd hx List.not_mem_nil⟩
  | @cons a b as bs hab _ ih =>
    obtain ⟨c, hc, rfl⟩ := hab
    obtain ⟨xs, rfl, rfl, hxs⟩ := ih
    refine ⟨(a, c) :: xs, rfl, rfl, fun x hx => ?_⟩
    rcases List.mem_cons.1 hx with rfl | hx
    · exact hc
    · exact hxs x hx

/-! ### Success

Whether a computation succeeds is read off its parts: a sequence succeeds when its parts do, and a
loop when each of its rounds does.  Where a round depends on the state that it finds, an invariant
says what is known of the state in terms of what the loop has passed. -/

/-- The computation has a result. -/
def Succeeds (x : Except ε α) : Prop := ∃ a, x = .ok a

theorem succeeds_pure (a : α) : Succeeds (pure a : Except ε α) := ⟨a, rfl⟩

theorem not_succeeds_error (e : ε) : ¬ Succeeds (.error e : Except ε α) := nofun

theorem succeeds_map_iff {x : Except ε α} {f : α → β} : Succeeds (x.map f) ↔ Succeeds x := by
  cases x with
  | error e => exact ⟨nofun, nofun⟩
  | ok a => exact ⟨fun _ => ⟨a, rfl⟩, fun _ => ⟨f a, rfl⟩⟩

theorem succeeds_mapError_iff {ε' : Type} {x : Except ε α} {f : ε → ε'} :
    Succeeds (x.mapError f) ↔ Succeeds x :=
  exists_congr fun _ => mapError_eq_ok_iff

theorem succeeds_bind_iff {x : Except ε α} {f : α → Except ε β} :
    Succeeds (x >>= f) ↔ ∃ a, x = .ok a ∧ Succeeds (f a) := by
  constructor
  · rintro ⟨b, hb⟩
    obtain ⟨a, ha, hb⟩ := bind_eq_ok_iff.1 hb
    exact ⟨a, ha, b, hb⟩
  · rintro ⟨a, ha, b, hb⟩
    exact ⟨b, bind_eq_ok_iff.2 ⟨a, ha, hb⟩⟩

/-- The first part of a sequence that succeeds does. -/
theorem Succeeds.of_bind {x : Except ε α} {f : α → Except ε β} (h : Succeeds (x >>= f)) :
    Succeeds x := by
  obtain ⟨a, ha, -⟩ := succeeds_bind_iff.1 h
  exact ⟨a, ha⟩

/-- Where the second part does not depend on the result of the first one, both have to succeed. -/
theorem succeeds_bind_iff_and {x : Except ε α} {f : α → Except ε β} {p : Prop}
    (hf : ∀ a, Succeeds (f a) ↔ p) : Succeeds (x >>= f) ↔ Succeeds x ∧ p := by
  rw [succeeds_bind_iff]
  constructor
  · rintro ⟨a, ha, h⟩
    exact ⟨⟨a, ha⟩, (hf a).1 h⟩
  · rintro ⟨⟨a, ha⟩, hp⟩
    exact ⟨a, ha, (hf a).2 hp⟩

/-- A sequence whose second part always succeeds depends on the first one alone. -/
theorem succeeds_bind_iff_left {x : Except ε α} {f : α → Except ε β} (hf : ∀ a, Succeeds (f a)) :
    Succeeds (x >>= f) ↔ Succeeds x := by
  rw [succeeds_bind_iff_and fun a => iff_true_intro (hf a), and_true]

/-- A loop succeeds when each of its rounds does. -/
theorem succeeds_mapM_iff {f : α → Except ε β} {as : List α} :
    Succeeds (as.mapM f) ↔ ∀ a ∈ as, Succeeds (f a) := by
  induction as with
  | nil => exact ⟨fun _ a ha => absurd ha List.not_mem_nil, fun _ => ⟨[], rfl⟩⟩
  | cons a as ih =>
    have hrest : ∀ b, Succeeds (do let bs ← as.mapM f; return b :: bs) ↔ Succeeds (as.mapM f) :=
      fun b => succeeds_bind_iff_left fun bs => succeeds_pure (b :: bs)
    rw [List.mapM_cons, succeeds_bind_iff_and hrest, ih, List.forall_mem_cons]

/-- A loop with a state succeeds when each of its rounds does, as the rounds find it. -/
theorem succeeds_foldlM_iff {f : β → α → Except ε β} {as : List α} {b : β}
    {I : List α → β → Prop} {P : List α → α → Prop} (hstart : I [] b)
    (hround : ∀ passed a s s', I passed s → f s a = .ok s' → I (passed ++ [a]) s')
    (hsucceeds : ∀ passed a s, I passed s → (Succeeds (f s a) ↔ P passed a)) :
    Succeeds (as.foldlM f b) ↔ ∀ before a after, as = before ++ a :: after → P before a := by
  suffices hrest : ∀ rest passed s, I passed s → (Succeeds (rest.foldlM f s) ↔
      ∀ before a after, rest = before ++ a :: after → P (passed ++ before) a) from
    hrest as [] b hstart
  intro rest
  induction rest with
  | nil =>
    intro passed s _
    refine iff_of_true ⟨s, rfl⟩ fun before a after h => ?_
    simp at h
  | cons a rest ih =>
    intro passed s hs
    rw [List.foldlM_cons, succeeds_bind_iff]
    constructor
    · rintro ⟨s', hs', hend⟩ before a' after h
      cases before with
      | nil =>
        obtain ⟨rfl, -⟩ := List.cons.inj h
        rw [List.append_nil]
        exact (hsucceeds passed a s hs).1 ⟨s', hs'⟩
      | cons b before =>
        obtain ⟨rfl, hrest⟩ := List.cons.inj h
        have hlater := (ih _ s' (hround passed a s s' hs hs')).1 hend before a' after hrest
        rwa [List.append_assoc, List.singleton_append] at hlater
    · intro h
      have hfirst : P passed a := by
        have := h [] a rest rfl
        rwa [List.append_nil] at this
      obtain ⟨s', hs'⟩ := (hsucceeds passed a s hs).2 hfirst
      refine ⟨s', hs', (ih _ s' (hround passed a s s' hs hs')).2 fun before a' after hrest => ?_⟩
      rw [List.append_assoc, List.singleton_append]
      exact h (a :: before) a' after (by rw [hrest, List.cons_append])

/-- Where no round depends on the state, a loop with a state is like one without. -/
theorem succeeds_foldlM_iff_forall {f : β → α → Except ε β} {as : List α} {b : β} {P : α → Prop}
    (hsucceeds : ∀ a s, Succeeds (f s a) ↔ P a) :
    Succeeds (as.foldlM f b) ↔ ∀ a ∈ as, P a := by
  rw [succeeds_foldlM_iff (I := fun _ _ => True) (P := fun _ => P) trivial
    (fun _ _ _ _ _ _ => trivial) fun _ a s _ => hsucceeds a s]
  constructor
  · intro h a ha
    obtain ⟨before, after, hsplit⟩ := List.append_of_mem ha
    exact h before a after hsplit
  · rintro h before a after rfl
    exact h a (by simp)

end Except

namespace Run

variable {α β : Type}

/-- What a computation answers when the records `log` are written already, and the records that it
leaves. -/
def runWith (x : Run α) (log : List LogRecord) : Except Fault α × List LogRecord :=
  StateT.run (ExceptT.run x) log

/-- What a computation answers when no record is written yet. -/
def answer (x : Run α) : Except Fault α := (x.runWith []).1

/-- The records that a computation writes when none is written yet. -/
def records (x : Run α) : List LogRecord := (x.runWith []).2

theorem runWith_nil (x : Run α) : x.runWith [] = (x.answer, x.records) := rfl

/-- The computation appends its records to those written already and answers as if there were
none. -/
def AppendsOnly (x : Run α) : Prop := ∀ log, x.runWith log = (x.answer, log ++ x.records)

theorem runWith_bind (x : Run α) (f : α → Run β) (log : List LogRecord) :
    (x >>= f).runWith log = match x.runWith log with
      | (.ok a, log') => (f a).runWith log'
      | (.error e, log') => (.error e, log') := by
  simp only [runWith, ExceptT.run_bind, StateT.run_bind]
  rcases StateT.run (ExceptT.run x) log with ⟨_ | a, log'⟩ <;> rfl

/-- What is answered does not depend on the records written before. -/
theorem AppendsOnly.answer_eq {x : Run α} (hx : AppendsOnly x) {log log' : List LogRecord} {a : α}
    (h : x.runWith log = (.ok a, log')) : x.answer = .ok a := by
  rw [hx log] at h
  exact congrArg Prod.fst h

/-- A value is answered without records. -/
theorem AppendsOnly.pure (a : α) : AppendsOnly (Pure.pure a) :=
  fun log => congrArg (Prod.mk _) (List.append_nil log).symm

/-- An early end writes no records. -/
theorem AppendsOnly.stop (fault : Fault) : AppendsOnly (stop fault : Run α) :=
  fun log => congrArg (Prod.mk _) (List.append_nil log).symm

/-- A note is one record. -/
theorem AppendsOnly.note (level : Level) (message : String) : AppendsOnly (note level message) :=
  fun _ => rfl

/-- A sequence appends what its parts append. -/
theorem AppendsOnly.bind {x : Run α} {f : α → Run β} (hx : AppendsOnly x)
    (hf : ∀ a, AppendsOnly (f a)) : AppendsOnly (x >>= f) := by
  intro log
  have hempty := hx []
  rw [answer, records, runWith_bind, runWith_bind, hx log, hempty]
  cases x.answer with
  | error e => rfl
  | ok a =>
    dsimp only
    rw [hf a (log ++ x.records), hf a ([] ++ x.records), List.nil_append, List.append_assoc]

/-- A sequence answers the sequence of the answers. -/
theorem answer_bind {x : Run α} {f : α → Run β} (hf : ∀ a, AppendsOnly (f a)) :
    (x >>= f).answer = x.answer >>= fun a => (f a).answer := by
  rw [answer, runWith_bind]
  unfold answer
  rcases x.runWith [] with ⟨_ | a, log⟩
  · rfl
  · show ((f a).runWith log).1 = ((f a).runWith []).1
    rw [hf a log]
    rfl

/-- A loop with a state appends what its rounds append. -/
theorem AppendsOnly.foldlM {f : β → α → Run β} (hf : ∀ b a, AppendsOnly (f b a)) (as : List α)
    (b : β) : AppendsOnly (as.foldlM f b) := by
  induction as generalizing b with
  | nil => exact .pure b
  | cons a as ih => exact (hf b a).bind ih

/-- A loop with a state answers the loop of the answers. -/
theorem answer_foldlM {f : β → α → Run β} (hf : ∀ b a, AppendsOnly (f b a)) (as : List α) (b : β) :
    (as.foldlM f b).answer = as.foldlM (fun b a => (f b a).answer) b := by
  induction as generalizing b with
  | nil => rfl
  | cons a as ih =>
    rw [List.foldlM_cons, List.foldlM_cons, answer_bind fun b => .foldlM hf as b]
    exact congrArg _ (funext ih)

/-- A loop appends what its rounds append. -/
theorem AppendsOnly.mapM {f : α → Run β} (hf : ∀ a, AppendsOnly (f a)) (as : List α) :
    AppendsOnly (as.mapM f) := by
  induction as with
  | nil => exact .pure []
  | cons a as ih =>
    rw [List.mapM_cons]
    exact (hf a).bind fun b => ih.bind fun bs => .pure (b :: bs)

/-- A loop answers the loop of the answers. -/
theorem answer_mapM {f : α → Run β} (hf : ∀ a, AppendsOnly (f a)) (as : List α) :
    (as.mapM f).answer = as.mapM fun a => (f a).answer := by
  induction as with
  | nil => rfl
  | cons a as ih =>
    rw [List.mapM_cons, List.mapM_cons,
      answer_bind fun b => (AppendsOnly.mapM hf as).bind fun bs => .pure (b :: bs)]
    refine congrArg _ (funext fun b => ?_)
    rw [answer_bind fun bs => .pure (b :: bs), ih]
    rfl

/-- A sequence with an end that depends on no result succeeds when both parts do. -/
theorem succeeds_bind_iff_and {x : Run α} {f : α → Run β} {p : Prop}
    (happends : ∀ a, AppendsOnly (f a)) (hf : ∀ a, Succeeds (f a).answer ↔ p) :
    Succeeds (x >>= f).answer ↔ Succeeds x.answer ∧ p := by
  rw [answer_bind happends, ApiShell.succeeds_bind_iff_and hf]

/-- Making something of a result always succeeds. -/
theorem succeeds_bind_pure_iff {x : Run α} {f : α → β} :
    Succeeds (x >>= fun a => pure (f a)).answer ↔ Succeeds x.answer := by
  rw [answer_bind fun a => .pure (f a)]
  exact succeeds_bind_iff_left fun a => succeeds_pure (f a)

end Run

end ApiShell
