import ApiShell.Config.Directories
import ApiShell.Program.Call
import ApiShell.Program.EarlyOptions
import ApiShell.Program.Session

/-!
# Runs

A run looks for early options, reads the configuration, opens the cache, makes the commands of the
configured APIs, and then does what its command line says.  A failure is reported with its own exit code;
a defect leaves a crash log.
-/

namespace ApiShell.Program

open CommandLine (Values Stop UsageError choose)
open Session

/-- The configuration of a run. -/
structure Settings where
  config : Config
  path : Host.Path

/-- Read the configuration.  One that cannot be used is reported, and the run goes on without APIs. -/
def readConfig (path : Host.Path) : Session Config := do
  match Config.load (← host) path with
  | .ok config => return config
  | .error (.failure (.config e)) => do
    say .warning e.message
    return .empty
  | .error fault => failWith fault

/-- Open the cache of descriptions.  Where its directory cannot be made, there is none. -/
def openCache : Session Unit := do
  let directory := (← host).directoryPath .cache
  match ← onHost (Host.directoryFor .cache) with
  | .error (.file fault) =>
    let reason := fault.text directory.text
    remark .warning s!"Spec cache unavailable, loading specs directly: {reason}"
  | .error defect => failWith defect
  | .ok directory => do
    let path := directory.child SpecCache.storeName
    onFiles (Host.makeDirectories path)
    let host ← host
    match host.files.follow (host.start path) path.names with
    | .error fault => failWith (Defect.file fault)
    | .ok place => modify fun s => { s with
        cache := some (place, SpecCache.onStore (s.world.storeAt place)) }

/-- Read the configuration and open the cache, which is emptied if the environment asks for it. -/
def prepare (early : EarlyOptions) : Session Settings := do
  let path ← onFiles (Host.configPath (early.config.getD ""))
  let config ← readConfig path
  openCache
  if (← host).asksForClearCache then
    provide Provider.clear
    remark .info "Spec cache cleared"
  return ⟨config, path⟩

/-- Write a starter configuration. -/
def runInit (invocation : Invocation) (settings : Settings) (values : Values) : Session Unit := do
  let path ← if values.isOn "global_" then onFiles Host.defaultConfigPath
    else pure settings.path
  let isThere ← settleDefects ((← host).present path)
  if isThere && !values.isOn "force" then failWith (ConfigError.exists path.text)
  onFiles (Config.starter.save {} invocation.token path)
  say .success s!"Wrote starter config to {path.text}"

/-- Tell that a description was loaded anew. -/
def sayRefreshed (name : String) : Step Unit := say .success s!"Refreshed spec for {name}"

/-- Load descriptions anew: that of the API that is named, or all. -/
def runRefresh (invocation : Invocation) (settings : Settings) (values : Values) :
    Session Unit := do
  let loader := Session.loader invocation.network (← host)
  match values.text? "api_name" with
  | some name => do
    let api ← settle ((settings.config.api name).mapError fun e => .failure (.config e))
    provide (refreshApi loader api)
    sayRefreshed name
  | none => do
    let (refreshed, defect) ←
      (onDescriptions (refreshEach loader settings.config.apis) : Step _)
    (refreshed.done.forM sayRefreshed : Step Unit)
    match refreshed.fault? defect with
    | some fault => failWith fault
    | none => return

/-- Run a built-in command. -/
def runBuiltin (invocation : Invocation) (settings : Settings) (values : Values) :
    Builtin → Session Unit
  | .init => runInit invocation settings values
  | .refresh => runRefresh invocation settings values
  | .version => printOut versionLine

/-- Put output where it belongs. -/
def deliver (call : Call) (text : String) : Session Unit := do
  if call.save = "" then printOut text
  else
    let host ← embed (Output.save (← host) call.save (Text.utf8 text.toList))
    modify fun s => { s with world.host := host }

/-- Send the request of a call, and show the response, whatever its status.  A status that is no success
is a failure after that. -/
def perform (invocation : Invocation) (call : Call) : Session Unit := do
  let r ← send invocation call.request
  let width := Output.screenWidth ((← host).valueOf "COLUMNS")
  match ← embed (call.shown width r) with
  | some text => deliver call text
  | none => pure ()
  embed (Response.raiseForStatus r.status r.reason r.body)

/-- Report the request of a call that is not sent. -/
def rehearse (call : Call) : Session Unit := do
  (call.request.describe.forM (remark .debug) : Step Unit)
  say .note "Dry run completed. No request was sent."

/-- Run the command of an endpoint. -/
def runLeaf (invocation : Invocation) (settings : Settings) (api : String) (l : Command.Leaf)
    (choices : Choices) : Session Unit := do
  let api ← settle ((settings.config.api api).mapError fun e => .failure (.config e))
  if choices.isOn "verbose" then modify fun s => { s with log.level := .debug }
  let call ← embed (Call.make (← host) api l choices)
  if call.isDry then rehearse call else perform invocation call

/-- What the first word of a command line can name. -/
inductive Target where
  | builtin (b : Builtin)
  | api (t : Command.Tree)

/-- What a first word names. -/
def target? (trees : List Command.Tree) (word : String) : Option Target :=
  match Builtin.ofName? word with
  | some b => some (.builtin b)
  | none => (trees.find? (·.name == word)).map .api

/-- How a run ends where its command line stops. -/
def Ending.ofStop (path : List String) : Stop → Ending
  | .misused e => .usage path e
  | .signalled .help => .help path
  | .signalled .version => .version

/-- What a part of the command line says; `path` leads to the command that the part belongs to. -/
def orFinish {α : Type} (path : List String) : Except Stop α → Session α
  | .ok a => return a
  | .error s => finish (.ofStop path s)

/-- Set the log to what the words behind the program say. -/
def configureLog (outer : Values) : Session Unit := do
  let named := (outer.text? "log_level").getD ""
  if (level? named).isNone then
    let all := Text.join ", " (levelNames.map Prod.fst)
    finish (.usage [name] (.badValue "--log-level" s!"must be one of {all}"))
  modify fun s => { s with log := s.log.configure named (outer.isOn "verbose") }

/-- Do what the command line says. -/
def execute (invocation : Invocation) (settings : Settings) (trees : List Command.Tree) :
    Session Unit := do
  let path := [name]
  let (outer, word, target, words) ←
    orFinish path (choose interface (target? trees) invocation.arguments)
  configureLog outer
  let path := path ++ [word]
  match target with
  | .builtin b => do
    let values ← orFinish path (b.interface.read words)
    runBuiltin invocation settings values b
  | .api tree => do
    let (_, word, group, words) ← orFinish path (choose {} tree.group? words)
    let path := path ++ [word]
    let (_, word, leaf, words) ← orFinish path (choose {} group.command? words)
    let inner ← orFinish (path ++ [word]) (leaf.interface.read words)
    runLeaf invocation settings tree.name leaf ⟨outer, inner⟩

/-- All that a run does. -/
def session (invocation : Invocation) (early : EarlyOptions) : Session Unit := do
  let settings ← prepare early
  let loader := Session.loader invocation.network (← host)
  let trees ← provide (catalogue loader settings.config)
  execute invocation settings trees

/-- What a run has come to. -/
structure Report where
  exitCode : Nat
  transcript : Transcript
  /-- What was wrong with the command line. -/
  usageError : Option UsageError := none
  /-- The command whose help page is to be shown. -/
  page : Option (List String) := none
  /-- What has kept a crash log from being written. -/
  unlogged : Option Defect := none

/-- The text of a crash log. -/
def crashText (defect : Defect) : List UInt8 := Text.utf8 ((reprStr defect).toList ++ ['\n'])

/-- Write a crash log, and give its path. -/
def writeCrashLog (stamp : String) (defect : Defect) : Host.Task Host.Path := do
  let directory := (← Host.directoryFor .data).child "logs"
  Host.makeDirectories directory
  let path := directory.child s!"crash-{stamp}.log"
  Host.Task.change (·.write path (crashText defect))
  return path

/-- The report of a run as it stands. -/
def reportNow (exitCode : Nat) : Step Report := return { exitCode, transcript := (← get).transcript }

/-- The end of a run that has met a defect. -/
def crash (stamp : String) (defect : Defect) : Step Report := do
  let exitCode := FailureClass.general.exitCode
  match ← onHost (writeCrashLog stamp defect) with
  | .ok path => do
    say .error s!"Unexpected error. Debug log: {path.text}"
    tell fun t => { t with hasCrashLog := true }
    reportNow exitCode
  | .error lost => return { ← reportNow exitCode with unlogged := some lost }

/-- The report of a run that ends early. -/
def Ending.report (stamp : String) : Ending → Step Report
  | .usage path e => do
    let page := if e = .nothingGiven then some path else none
    return { ← reportNow UsageError.exitCode with usageError := some e, page }
  | .help path => do
    printOut ""
    return { ← reportNow 0 with page := some path }
  | .version => do
    printOut versionLine
    reportNow 0
  | .fault (.failure f) => do
    say .error f.message
    reportNow f.exitCode
  | .fault (.defect d) => crash stamp d

/-- All that a run does, and its report. -/
def reported (invocation : Invocation) (early : EarlyOptions) : Step Report := do
  match ← (session invocation early).run with
  | .ok _ => reportNow 0
  | .error ending => ending.report invocation.stamp

/-- The state at the beginning of a run. -/
def State.start (w : World) (early : EarlyOptions) : State :=
  { world := w
    log := ({} : Log).configure early.logLevel early.isVerbose
    voice := Output.Voice.make w.host false false early.isVerbose
    cache := none
    transcript := {} }

/-- Run the program in a world. -/
def run (w : World) (invocation : Invocation) : Report × World :=
  let early := EarlyOptions.scan invocation.arguments
  let (report, s) := (reported invocation early).run (State.start w early)
  let w := match s.cache with
    | some (place, cache) => s.world.keepStore place cache.store
    | none => s.world
  (report, w)

end ApiShell.Program
