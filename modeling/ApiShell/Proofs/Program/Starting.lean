import ApiShell.Program.Run
import ApiShell.Proofs.Config.Loading
import ApiShell.Proofs.Program.Session
import ApiShell.Proofs.Time.Calendar

/-!
# Starting from any configuration

A run goes on with whatever configuration stands at its path, unless loading it runs into a defect: one
that is refused is replaced by the one without APIs.  So it can be written over with the configuration to
start with, and then the file holds that one and nothing else has changed.
-/

namespace ApiShell.Program

open CommandLine (Values)
open Session (Does MeetsOnlyDefects)

variable {e : Effects} {path : Host.Path} {invocation : Invocation} {values : Values} {d : Defect}

/-! ### Reading the configuration -/

/-- The configuration at the path is refused. -/
def IsRefused (host : Host) (path : Host.Path) : Prop :=
  ∃ problem, Config.load host path = .error (.failure (.config (.invalid path.text problem)))

theorem does_readConfig_of_ok {c : Config} (h : Config.load e.output.host path = .ok c) :
    Does (readConfig path) e (.ok c) e := by
  refine (Session.does_host e).bind ?_
  rw [h]
  exact .pure c e

/-- A configuration that is refused counts as the one without APIs. -/
theorem does_readConfig_of_isRefused (h : IsRefused e.output.host path) :
    Does (readConfig path) e (.ok Config.empty) e := by
  obtain ⟨problem, hload⟩ := h
  refine (Session.does_host e).bind ?_
  rw [hload]
  have hsaid : Does (liftM (Session.say .warning
      (ConfigError.invalid path.text problem).message) : Session Unit) e (.ok ()) e :=
    Session.does_step (fun _ _ => rfl) (Session.effects_say .warning _)
  exact hsaid.bind (.pure Config.empty e)

theorem does_readConfig_of_breaks (h : Config.Breaks e.output.host path d) :
    Does (readConfig path) e (.error (.fault (.defect d))) e := by
  refine (Session.does_host e).bind ?_
  rw [Config.load_eq_defect_iff.2 h]
  exact .failWith _ e

/-- Reading the configuration ends in one of three ways. -/
theorem readConfig_cases (path : Host.Path) (e : Effects) :
    (∃ c, Config.load e.output.host path = .ok c ∧ Does (readConfig path) e (.ok c) e) ∨
      (IsRefused e.output.host path ∧ Does (readConfig path) e (.ok Config.empty) e) ∨
      ∃ d, Config.Breaks e.output.host path d ∧
        Does (readConfig path) e (.error (.fault (.defect d))) e := by
  rcases Config.load_cases e.output.host path with ⟨c, hload⟩ | hrefused | ⟨d, hd⟩
  · exact .inl ⟨c, hload, does_readConfig_of_ok hload⟩
  · exact .inr (.inl ⟨hrefused, does_readConfig_of_isRefused hrefused⟩)
  · have hbreaks := Config.load_eq_defect_iff.1 hd
    exact .inr (.inr ⟨d, hbreaks, does_readConfig_of_breaks hbreaks⟩)

/-- Reading the configuration succeeds with the one that is loaded, or with none where it is refused. -/
theorem of_readConfig {s s' : State} {config : Config}
    (h : (readConfig path).on s = (.ok config, s')) :
    Config.load s.world.host path = .ok config ∨
      IsRefused s.world.host path ∧ config = Config.empty := by
  rcases readConfig_cases path s.effects with ⟨c, hload, hdoes⟩ | ⟨hrefused, hdoes⟩ | ⟨d, -, hdoes⟩
  · have hends := hdoes.on_eq.1
    rw [h] at hends
    rw [← Except.ok.inj hends] at hload
    exact .inl hload
  · have hends := hdoes.on_eq.1
    rw [h] at hends
    exact .inr ⟨hrefused, Except.ok.inj hends⟩
  · have hends := hdoes.on_eq.1
    rw [h] at hends
    cases hends

/-! ### Preparing a run -/

theorem meetsOnlyDefects_readConfig (path : Host.Path) : MeetsOnlyDefects (readConfig path) := by
  intro s ending h
  rcases readConfig_cases path s.effects with ⟨c, -, hdoes⟩ | ⟨-, hdoes⟩ | ⟨d, -, hdoes⟩
  · rw [hdoes.on_eq.1] at h
    cases h
  · rw [hdoes.on_eq.1] at h
    cases h
  · rw [hdoes.on_eq.1] at h
    exact ⟨d, (Except.error.inj h).symm⟩

theorem meetsOnlyDefects_openCache : MeetsOnlyDefects openCache := by
  unfold openCache
  refine (MeetsOnlyDefects.step Session.host).bind fun host =>
    (MeetsOnlyDefects.step _).bind fun made => ?_
  split
  · exact .step _
  · exact .failWith _
  · refine (MeetsOnlyDefects.onFiles _).bind fun _ =>
      (MeetsOnlyDefects.step Session.host).bind fun host => ?_
    split
    · exact .failWith _
    · exact .step _

theorem meetsOnlyDefects_clear : MeetsOnlyDefects (Session.provide Provider.clear) := by
  intro s ending h
  have hcleared : ((Session.provide Provider.clear).on s).1 = .ok () := rfl
  rw [hcleared] at h
  cases h

/-- Nothing but a defect keeps a run from being prepared. -/
theorem meetsOnlyDefects_prepare (early : EarlyOptions) : MeetsOnlyDefects (prepare early) := by
  unfold prepare
  refine (MeetsOnlyDefects.onFiles _).bind fun path =>
    (meetsOnlyDefects_readConfig path).bind fun config => meetsOnlyDefects_openCache.bind fun _ =>
      (MeetsOnlyDefects.step Session.host).bind fun host => ?_
  split
  · exact meetsOnlyDefects_clear.bind fun _ => (MeetsOnlyDefects.step _).bind fun _ =>
      .step (pure (Settings.mk config path))
  · exact .step (pure (Settings.mk config path))

/-- A run that is prepared has the configuration at its path, or none where that is refused. -/
theorem of_prepare {early : EarlyOptions} {s s' : State} {settings : Settings} {host : Host}
    (hpath : (Host.configPath (early.config.getD "")).on s.world.host = (.ok path, host))
    (h : (prepare early).on s = (.ok settings, s')) :
    settings.path = path ∧ (Config.load host path = .ok settings.config ∨
      IsRefused host path ∧ settings.config = Config.empty) := by
  unfold prepare at h
  obtain ⟨path', s₁, hfiles, h⟩ := Session.on_bind_eq_ok h
  obtain ⟨hpathEq, heffects⟩ := (Session.does_onFiles (e := s.effects) hpath).on_eq
  rw [hfiles] at hpathEq heffects
  obtain rfl := Except.ok.inj hpathEq
  have hhost : s₁.world.host = host := congrArg (·.output.host) heffects
  obtain ⟨config, s₂, hconfig, h⟩ := Session.on_bind_eq_ok h
  obtain ⟨_, s₃, -, h⟩ := Session.on_bind_eq_ok h
  obtain ⟨_, s₄, -, h⟩ := Session.on_bind_eq_ok h
  have hsettings : settings = ⟨config, path'⟩ := by
    split at h
    · obtain ⟨_, s₅, -, h⟩ := Session.on_bind_eq_ok h
      obtain ⟨_, s₆, -, h⟩ := Session.on_bind_eq_ok h
      exact (Except.ok.inj (congrArg Prod.fst h)).symm
    · exact (Except.ok.inj (congrArg Prod.fst h)).symm
  subst hsettings
  rw [← hhost]
  exact ⟨rfl, of_readConfig hconfig⟩

/-! ### Writing a configuration to start with -/

/-- The text of the configuration to start with. -/
def starterText : String :=
  "apis:\n  example-api:\n    apispec: ./openapi.yaml\n    url: http://api.example.com\n" ++
  "    auth: user:pass\n    cache_ttl: 24h\n    output: json\n    headers:\n" ++
  "      X-Client: ontap\n    api_key_header: X-API-Key\n"

theorem text_starter : Config.starter.text = .ok starterText :=
  eq_ok_of_toOption (by decide +kernel)

/-- The configuration to start with is saved as its text. -/
theorem save_starter (token : String) (path : Host.Path) :
    Config.starter.save {} token path =
      Host.replace {} token path (Text.utf8 starterText.toList) := by
  rw [Config.save, text_starter]

/-- Read the configuration, and then write the one to start with. -/
def startOver (invocation : Invocation) (path : Host.Path) (values : Values) : Session Unit := do
  let config ← readConfig path
  runInit invocation ⟨config, path⟩ values

/-- Whatever the configuration, a file that is there can be written over. -/
theorem does_runInit (config : Config) {old : List UInt8} (hforce : values.isOn "force")
    (hlocal : ¬ values.isOn "global_") (hold : e.output.host.Holds path old)
    (hroom : e.output.host.HasRoom path invocation.token) :
    ∃ place files, e.output.host.files.follow (e.output.host.start path) path.names = .ok place ∧
      (∀ other, files.node? other =
        if other = place then some (.file (Text.utf8 starterText.toList))
        else e.output.host.files.node? other) ∧
      Does (runInit invocation ⟨config, path⟩ values) e (.ok ())
        { e with output.host := { e.output.host with files } } := by
  obtain ⟨place, files, hplace, hrun, hfiles⟩ :=
    Host.on_replace hold hroom (Text.utf8 starterText.toList)
  refine ⟨place, files, hplace, hfiles, ?_⟩
  have hpresent : e.output.host.present path = .ok true := by
    rw [Host.present, if_neg hold.named, hold.found]
  have hthere : Does (Session.settleDefects (e.output.host.present path)) e (.ok true) e := by
    rw [hpresent]
    exact .pure true e
  have hsaved := Session.does_onFiles (e := e) hrun
  have hsaid : Does (liftM (Session.say .success
      s!"Wrote starter config to {path.text}") : Session Unit)
      { e with output.host := { e.output.host with files } } (.ok ())
      { e with output.host := { e.output.host with files } } :=
    Session.does_step (fun _ _ => rfl) (Session.effects_say .success _)
  unfold runInit
  rw [if_neg hlocal]
  refine (Does.pure path e).bind ?_
  refine (Session.does_host e).bind (hthere.bind ?_)
  rw [hforce, save_starter]
  exact hsaved.bind hsaid

/-! ### All configurations -/

/-- What comes of the configuration at a path, and of writing the one to start with over it. -/
structure StartsFrom (host : Host) (path : Host.Path) : Prop where
  /-- Loading gives a configuration, refuses it, or runs into a defect. -/
  loads : (∃ c, Config.load host path = .ok c) ∨ IsRefused host path ∨
    ∃ d, Config.Breaks host path d
  /-- The defects that loading runs into are these and no others. -/
  breaks : ∀ d, Config.load host path = .error (.defect d) ↔ Config.Breaks host path d
  /-- What is refused is a file with a text that is no YAML, no mapping, or has faulty fields. -/
  refuses : IsRefused host path ↔ ∃ content cs, host.Holds path content ∧
    Text.ofUtf8? content = some cs ∧ Config.Refuses (Text.plainBreaks cs)
  /-- A configuration that is loaded is used. -/
  uses : ∀ c e, Config.load host path = .ok c → e.output.host = host →
    Does (readConfig path) e (.ok c) e
  /-- A configuration that is refused is replaced by the one without APIs. -/
  replaces : ∀ e, IsRefused host path → e.output.host = host →
    Does (readConfig path) e (.ok Config.empty) e
  /-- A run is prepared with the configuration that is loaded, or with the one without APIs where that
  is refused; nothing but a defect keeps it from being prepared. -/
  prepares : ∀ early s, (Host.configPath (early.config.getD "")).on s.world.host = (.ok path, host) →
    (∀ settings s', (prepare early).on s = (.ok settings, s') → settings.path = path ∧
      (Config.load host path = .ok settings.config ∨
        IsRefused host path ∧ settings.config = Config.empty)) ∧
    ∀ ending s', (prepare early).on s = (.error ending, s') → ∃ d, ending = .fault (.defect d)
  /-- Unless loading runs into a defect, the file gets the text of the configuration to start with, and
  no other file changes. -/
  startsOver : ∀ e invocation values old, (∀ d, ¬ Config.Breaks host path d) →
    e.output.host = host → values.isOn "force" → ¬ values.isOn "global_" →
    host.Holds path old → host.HasRoom path invocation.token → ∃ place files,
      host.files.follow (host.start path) path.names = .ok place ∧
      (∀ other, files.node? other =
        if other = place then some (.file (Text.utf8 starterText.toList))
        else host.files.node? other) ∧
      Does (startOver invocation path values) e (.ok ())
        { e with output.host := { host with files } }
  /-- A defect ends all before anything is written. -/
  stops : ∀ d e invocation values, Config.Breaks host path d → e.output.host = host →
    Does (startOver invocation path values) e (.error (.fault (.defect d))) e

/-- A host with one file. -/
def hostWith (content : List UInt8) : Host :=
  { environment := []
    directory := []
    files := ⟨[([], .directory), (["config.yaml"], .file content)]⟩ }

/-- The path of the file. -/
def configFile : Host.Path := ⟨"", ["config.yaml"]⟩

theorem holds_hostWith (content : List UInt8) : (hostWith content).Holds configFile content where
  named := by decide
  found := Host.find_eq_file_iff.2 ⟨["config.yaml"], rfl, rfl⟩

theorem hasRoom_hostWith (content : List UInt8) : (hostWith content).HasRoom configFile "1" where
  name := by decide
  free := ⟨[".config.yaml.1.tmp"], rfl, rfl⟩

/-- A run of `init --force`. -/
def initRun : Invocation :=
  { arguments := ["init", "--force"]
    network := ⟨fun _ _ => .response ⟨200, "", [], []⟩, fun _ _ => .response ⟨200, "", [], []⟩⟩
    client := ⟨Http.defaultTimeout, "b", 0⟩
    token := "1"
    stamp := "" }

/-- What `init` is told by `--force`. -/
def forced : Values := [("force", ⟨some (.bool true), true⟩)]

/-- The bytes of a configuration that is no YAML. -/
def brokenConfig : List UInt8 := Text.utf8 "apis: [broken\n".toList

/-- The beginning of a run with a configuration. -/
def beginning (content : List UInt8) : State := State.start ⟨hostWith content, [], .morning⟩ {}

theorem isRefused_brokenConfig : IsRefused (hostWith brokenConfig) configFile := by
  have hsome : (Yaml.problem? (Yaml.read (Text.plainBreaks "apis: [broken\n".toList))).isSome := by
    decide +kernel
  obtain ⟨problem, hproblem⟩ := Option.isSome_iff_exists.1 hsome
  exact Config.load_eq_refusal_iff.2 ⟨brokenConfig, _, holds_hostWith brokenConfig,
    by decide +kernel, .notYaml (Yaml.eq_problem_of_problem? hproblem)⟩

end ApiShell.Program
