import ApiShell.Proofs.Cache.Providing
import ApiShell.Proofs.Spec.PlainForm
import ApiShell.Proofs.Time.Calendar

/-!
# Descriptions that another process reads back

A process that finds a description in the store gets the plain form of what was loaded.  So it
extracts the same endpoints and compiles the same commands where all that is read of the description
is its own plain form, and it may extract others where it is not: a moment that a description gives
as a default is read back as a text.
-/

namespace ApiShell.Provider

open Cache (Entry)

variable {σ : Type} {s s' later : Supply σ} {log log' : List LogRecord} {c c₀ : SpecCache}
  {location : String} {ttl : Time.Duration} {d : Spec.Description} {loader : Loader σ}

section Missing

-- The cache does not have the description: there is none, or its time is over.
variable (hcache : s.cache = some c)
  (hmissing :
    SpecCache.Yields (SpecCache.lookup s.clock.now (Cache.keyOf location)) c (.ok none) c₀)
  (hworking : c₀.IsWorking)

include hcache hmissing hworking

/-- The description is loaded, and what was loaded is kept if it can be. -/
theorem exists_keeps (loader : Loader σ) (ttl : Time.Duration) (log : List LogRecord) :
    ∃ log₁ raw source log₂ answer c' clock log₃,
      ((loader location).run.run s.source).run log₁ = ((raw, source), log₂) ∧
      (description loader location ttl).on s log = ((answer, ⟨some c', clock, source⟩), log₃) ∧
      Keeps s.clock.tick.now ttl c₀ (ready location raw) answer c' := by
  obtain ⟨log₁, hdescription⟩ := on_description_of_missing loader ttl hcache hmissing log
  obtain ⟨raw, source, log₂, hload⟩ : ∃ raw source log₂, ((loader location).run.run s.source).run
      (log₁ ++ [announcement location]) = ((raw, source), log₂) := ⟨_, _, _, rfl⟩
  obtain ⟨answer, c', clock, log₃, hrun, hkeeps, -⟩ :=
    on_loadAndKeep (s := { s with cache := some c₀, clock := s.clock.tick }) ttl rfl hworking hload
  exact ⟨_, raw, source, log₂, answer, c', clock, log₃, hload, hdescription.trans hrun, hkeeps⟩

/-- A description that is answered is kept in the store. -/
theorem exists_stored_of_description
    (h : (description loader location ttl).on s log = ((.ok d, s'), log')) :
    ∃ e v c', Entry.make s.clock.tick.now d ttl = .ok e ∧ e.plain = .ok v ∧
      s'.cache = some c' ∧ c'.IsWorking ∧
      Entries.get? c'.store.entries (Cache.keyOf location) = some v := by
  obtain ⟨-, raw, source, -, answer, c', clock, log₃, -, hrun, hkeeps⟩ :=
    exists_keeps hcache hmissing hworking loader ttl log
  rw [hrun] at h
  cases h
  obtain ⟨hready, e, v, hmake, hplain, rfl⟩ := hkeeps.of_ok
  have hkey : e.key = Cache.keyOf location := by
    rw [(Entry.of_make hmake).1, location_of_ready hready]
  refine ⟨e, v, _, hmake, hplain, rfl, hworking, ?_⟩
  show Entries.get? (Entries.put c₀.store.entries e.key v) _ = _
  rw [hkey, Entries.get?_put, if_pos rfl]

/-- A description that is ready and can be kept is answered. -/
theorem exists_on_description {raw w : Value} {e : Entry} (hloader : loader location = pure raw)
    (hready : ready location (.ok raw) = .ok d)
    (hmake : Entry.make s.clock.tick.now d ttl = .ok e) (hplain : d.value.plain = .ok w)
    (log : List LogRecord) :
    ∃ s' log', (description loader location ttl).on s log = ((.ok d, s'), log') := by
  obtain ⟨log₁, loaded, source, log₂, answer, c', clock, log₃, hload, hrun, hkeeps⟩ :=
    exists_keeps hcache hmissing hworking loader ttl log
  rw [hloader] at hload
  cases hload
  obtain ⟨v, hv⟩ := Entry.exists_plain_of_make hmake hplain
  rw [hready] at hkeeps
  rw [hkeeps.eq_ok hmake hv] at hrun
  exact ⟨_, log₃, hrun⟩

/-- A process that starts with the store as it was left reads the description back in plain form,
without loading it, until its time is over. -/
theorem exists_reread_of_description (hclock : s.clock.now.IsUniversal)
    (h : (description loader location ttl).on s log = ((.ok d, s'), log'))
    (hlater : later.cache = s'.cache.map fun c => SpecCache.onStore c.store)
    (hlive : later.clock.now.instant ≤ s.clock.tick.now.instant + ttl.micros)
    (loader' : Loader σ) (ttl' : Time.Duration) (log₁ : List LogRecord) :
    ∃ document later' log₂, (description loader' location ttl').on later log₁ =
        ((.ok { d with document }, later'), log₂) ∧
      later'.source = later.source ∧ d.value.plain = .ok (.ofFields document) := by
  obtain ⟨e, v, c', hmake, hplain, hcache', hworking', hstore⟩ :=
    exists_stored_of_description hcache hmissing hworking h
  obtain ⟨-, rfl, hcreated, hexpires, hinstant⟩ := Entry.of_make hmake
  obtain ⟨document, hdocument, hnull, hcheck⟩ := Entry.exists_check_of_plain hplain
    (hcreated ▸ (Clock.of_tick hclock).1) hexpires
  rw [hcache'] at hlater
  have hfind : SpecCache.Yields (SpecCache.find (Cache.keyOf location)) (.onStore c'.store)
      (.ok (some { e with document })) (.onStore c'.store) :=
    SpecCache.find_yields_of_store hworking' rfl hstore hnull hcheck
  have hlive' : ¬ e.expiresAt.instant < later.clock.now.instant := by
    rw [hinstant]
    exact Int.not_lt.2 hlive
  have hexpired : Entry.isExpired { e with document } later.clock.now = .ok false :=
    (Entry.isExpired_eq (e := { e with document }) hexpires _).trans
      (congrArg Except.ok (decide_eq_false hlive'))
  obtain ⟨log₂, hrun⟩ := on_description_of_found loader' ttl' hlater
    (SpecCache.lookup_yields_of_live hfind hexpired) log₁
  exact ⟨document, _, log₂, hrun, rfl, hdocument⟩

/-- A process that starts with the store as it was left reads the description back without loading
it, until its time is over.  It extracts the same endpoints and compiles the same commands if all
that is read of the description is its own plain form. -/
theorem reread_of_isPlainDocument (hclock : s.clock.now.IsUniversal)
    (h : (description loader location ttl).on s log = ((.ok d, s'), log'))
    (hd : Spec.IsPlainDocument d.value)
    (hlater : later.cache = s'.cache.map fun c => SpecCache.onStore c.store)
    (hlive : later.clock.now.instant ≤ s.clock.tick.now.instant + ttl.micros)
    (loader' : Loader σ) (ttl' : Time.Duration) (log₁ : List LogRecord) :
    ∃ d' later' log₂, (description loader' location ttl').on later log₁ =
        ((.ok d', later'), log₂) ∧
      later'.source = later.source ∧
      Spec.extractEndpoints d'.value = Spec.extractEndpoints d.value ∧
      ∀ name endpoints, Program.treeOf name d'.value endpoints =
        Program.treeOf name d.value endpoints := by
  obtain ⟨document, later', log₂, hrun, hsource, hdocument⟩ :=
    exists_reread_of_description hcache hmissing hworking hclock h hlater hlive loader' ttl' log₁
  exact ⟨_, later', log₂, hrun, hsource, hd.extractEndpoints_eq hdocument, hd.treeOf_eq hdocument⟩

end Missing

/-! ### A description of orders -/

/-- The fields of a description of orders: its version, the status of a response, and the default of
the moment from which on orders are listed. -/
def orderFields (version status since : Scalar) : List (String × Value) :=
  [("openapi", .text "3.0.0"),
    ("info", .ofFields [("title", .text "Orders"), ("version", .scalar version)]),
    ("paths", .ofFields [("/orders", .ofFields [("get", .ofFields
      [("parameters", .list [.ofFields [("name", .text "since"), ("in", .text "query"),
          ("schema", .ofFields [("default", .scalar since)])]]),
        ("responses", .mapping [(status, .ofFields [("description", .text "Orders")])])])])])]

/-- The description: its version is a date, and the status is a number. -/
def orders (since : Scalar) : Spec.Description :=
  ⟨"orders.yaml", "3.0", orderFields (.date ⟨2024, 1, 2⟩) (.int 200) since⟩

/-- The fields that are read back. -/
def storedOrderFields (since : String) : List (String × Value) :=
  orderFields (.text "2024-01-02") (.text "200") (.text since)

/-- A moment that a description gives. -/
def opening : Scalar := .moment ⟨⟨2024, 1, 2⟩, 3, 4, 5, 0, none⟩

/-- What a process works with that finds nothing in its cache. -/
def beginning : Supply Unit := ⟨some (.onStore .empty), .morning, ()⟩

/-- What a process works with that starts at the same time with the store as it was left. -/
def resumed (s : Supply Unit) : Supply Unit :=
  ⟨s.cache.map fun c => .onStore c.store, .morning, ()⟩

/-- A loader of one raw document. -/
def serving (raw : Value) : Loader Unit := fun _ => pure raw

/-- A loader that finds no document. -/
def losing : Loader Unit := fun location => throw (Fault.failure (.spec (.fileNotFound location)))

/-- How long descriptions are kept. -/
def shortly : Time.Duration := ⟨60000000⟩

theorem lookup_beginning :
    SpecCache.Yields (SpecCache.lookup beginning.clock.now (Cache.keyOf "orders.yaml"))
      (.onStore .empty) (.ok none) (.onStore .empty) :=
  have hworking : (SpecCache.onStore .empty).IsWorking := rfl
  SpecCache.lookup_yields_none (SpecCache.find_yields_none hworking rfl rfl) _

theorem instant_resumed_le (s : Supply Unit) :
    (resumed s).clock.now.instant ≤ beginning.clock.tick.now.instant + shortly.micros := by
  show Clock.morning.now.instant ≤ Clock.morning.tick.now.instant + shortly.micros
  decide

/-- The description is loaded and answered at the beginning. -/
theorem exists_on_beginning {since : Scalar} {w : Value}
    (hready : ready "orders.yaml" (.ok (orders since).value) = .ok (orders since))
    (hplain : (orders since).value.plain = .ok w) :
    ∃ s' log', (description (serving (orders since).value) "orders.yaml" shortly).on beginning [] =
      ((.ok (orders since), s'), log') := by
  obtain ⟨e, hmake⟩ : ∃ e, Entry.make beginning.clock.tick.now (orders since) shortly = .ok e :=
    ⟨_, rfl⟩
  exact exists_on_description rfl lookup_beginning rfl rfl hready hmake hplain []

/-! The default may be a text: then everything that is read of the description is its own plain
form. -/

theorem ready_orders_text :
    ready "orders.yaml" (.ok (orders (.text "2024")).value) = .ok (orders (.text "2024")) :=
  ready_of_refs_eq_nil rfl (by with_unfolding_all rfl) rfl

theorem isPlainOperation_orders_text : Spec.IsPlainOperation
    ((((orders (.text "2024")).value.getD "paths").getD "/orders").getD "get") := by
  refine ⟨Value.keepsKeys_ofFields (by decide), fun name hname => ?_, ?_⟩
  · show (Value.getD (.ofFields [("parameters", _), ("responses", _)]) name).IsJson
    rw [Value.getD_ofFields, Entries.get?_cons, Entries.get?_cons]
    by_cases hparameters : "parameters" = name
    · rw [if_pos hparameters]
      simp [Value.IsJson, Value.AreJson, Value.isJson_ofFields, Scalar.IsJson]
    · have hresponses : "responses" ≠ name := by
        rintro rfl
        exact absurd hname (by decide)
      rw [if_neg hparameters, if_neg hresponses]
      trivial
  · refine ⟨fun f hf => ?_, by decide +kernel⟩
    rw [List.mem_singleton.1 hf]
    exact ⟨rfl, Value.isJson_ofFields.2 ⟨by decide, by simp [Value.IsJson, Scalar.IsJson]⟩⟩

theorem isPlainDocument_orders_text : Spec.IsPlainDocument (orders (.text "2024")).value := by
  have hoperations (method : Spec.Method) : Spec.IsPlainOperation
      ((((orders (.text "2024")).value.getD "paths").getD "/orders").getD method.key) := by
    cases method with
    | get =>
      have hkey : Spec.Method.key .get = "get" := by decide +kernel
      rw [hkey]
      exact isPlainOperation_orders_text
    | _ => exact .of_isJson (by with_unfolding_all trivial)
  refine ⟨Value.keepsKeys_ofFields (by decide), Spec.isPlainPaths_ofFields (by decide) ?_,
    trivial, trivial, Value.keepsKeys_ofFields (by decide), trivial⟩
  intro e he
  rw [List.mem_singleton.1 he]
  exact ⟨Value.keepsKeys_ofFields (by decide), trivial, hoperations⟩

theorem reread_of_isPlainDocument_orders :
    ∃ s' log', (description (serving (orders (.text "2024")).value) "orders.yaml" shortly).on
        beginning [] = ((.ok (orders (.text "2024")), s'), log') ∧
      ∃ d' later' log₂, (description losing "orders.yaml" shortly).on (resumed s') [] =
          ((.ok d', later'), log₂) ∧
        Spec.extractEndpoints d'.value = Spec.extractEndpoints (orders (.text "2024")).value ∧
        ∀ name endpoints, Program.treeOf name d'.value endpoints =
          Program.treeOf name (orders (.text "2024")).value endpoints := by
  obtain ⟨s', log', h⟩ := exists_on_beginning ready_orders_text
    (w := .ofFields (storedOrderFields "2024")) rfl
  obtain ⟨d', later', log₂, hrun, -, hendpoints, htree⟩ :=
    reread_of_isPlainDocument rfl lookup_beginning rfl Clock.isUniversal_morning h
      isPlainDocument_orders_text (by rfl) (instant_resumed_le s') losing shortly []
  exact ⟨s', log', h, d', later', log₂, hrun, hendpoints, htree⟩

/-! The default may be a moment: then it is read back as a text, which is not the one that the moment
is shown as. -/

theorem ready_orders_opening :
    ready "orders.yaml" (.ok (orders opening).value) = .ok (orders opening) :=
  ready_of_refs_eq_nil rfl (by with_unfolding_all rfl) rfl

/-- The defaults of the flags in the commands that endpoints are compiled to. -/
def flagDefaults (endpoints : Run (List Spec.Endpoint)) : Option (List Command.FlagValue) :=
  let tree : Run Command.Tree := do Command.compile "shop" (← endpoints) [] ""
  tree.answer.toOption.map fun tree =>
    tree.groups.flatMap fun g => g.commands.flatMap fun command => command.flags.map (·.default)

theorem exists_extractEndpoints_reread_ne :
    ∃ s' log', (description (serving (orders opening).value) "orders.yaml" shortly).on
        beginning [] = ((.ok (orders opening), s'), log') ∧
      ∃ d' later' log₂, (description losing "orders.yaml" shortly).on (resumed s') [] =
          ((.ok d', later'), log₂) ∧
        Spec.extractEndpoints d'.value ≠ Spec.extractEndpoints (orders opening).value ∧
        flagDefaults (Spec.extractEndpoints (orders opening).value) =
          some [.string "2024-01-02 03:04:05"] ∧
        flagDefaults (Spec.extractEndpoints d'.value) = some [.string "2024-01-02T03:04:05"] := by
  have hplain : (orders opening).value.plain =
      .ok (.ofFields (storedOrderFields "2024-01-02T03:04:05")) := rfl
  obtain ⟨s', log', h⟩ := exists_on_beginning ready_orders_opening hplain
  obtain ⟨document, later', log₂, hrun, -, hdocument⟩ :=
    exists_reread_of_description rfl lookup_beginning rfl Clock.isUniversal_morning h
      (by rfl) (instant_resumed_le s') losing shortly []
  have hloaded : flagDefaults (Spec.extractEndpoints (orders opening).value) =
      some [.string "2024-01-02 03:04:05"] := by
    decide +kernel
  have hread : flagDefaults (Spec.extractEndpoints (.ofFields document)) =
      some [.string "2024-01-02T03:04:05"] := by
    rw [← Except.ok.inj (hplain.symm.trans hdocument)]
    decide +kernel
  refine ⟨s', log', h, _, later', log₂, hrun, fun heq => ?_, hloaded, hread⟩
  exact absurd (hread.symm.trans ((congrArg flagDefaults heq).trans hloaded)) (by decide)

end ApiShell.Provider
