import ApiShell.CommandLine.Binding
import ApiShell.Http.Client
import ApiShell.Fault
import ApiShell.Output.Format
import ApiShell.Output.Message
import ApiShell.Program.Catalogue
import ApiShell.Spec.Load

/-!
# Sessions

A session is one run of the program: it starts in a world of files, kept descriptions and a clock, talks
to servers, says things, logs as much as it is told to, and leaves the world changed.  All of this is a
value that the steps of the run pass on, so a step has no effect that does not show in it.
-/

namespace ApiShell.Program

/-- The names of the levels. -/
def levelNames : List (String × Level) :=
  [("debug", .debug), ("info", .info), ("warn", .warning), ("error", .error)]

/-- The level of a name. -/
def level? (name : String) : Option Level := (levelNames.find? (·.1 == name)).map Prod.snd

/-- The level to set for a name; an unknown name stands for `info`. -/
def levelFor (name : String) (isVerbose : Bool) : Level :=
  if isVerbose then .debug else (level? name).getD .info

/-- The log of the program. -/
structure Log where
  /-- Records of this level and more important ones are shown. -/
  level : Level := .info
  /-- The log is connected to the screen. -/
  isConnected : Bool := false
deriving DecidableEq, Repr

/-- Set the level of the log, and connect it if it is not connected yet. -/
def Log.configure (_ : Log) (name : String) (isVerbose : Bool) : Log :=
  ⟨levelFor name isVerbose, true⟩

/-- What is there before a run and after it. -/
structure World where
  host : Host
  /-- The stores of kept descriptions, by the places of their directories. -/
  stores : List (Host.Place × Cache.Store)
  clock : Clock

/-- The servers that a run talks to. -/
structure Network where
  /-- The servers of the configured APIs. -/
  apis : Http.Server
  /-- The servers of their descriptions. -/
  descriptions : Http.Server

/-- How a run is started. -/
structure Invocation where
  arguments : List String
  network : Network
  client : Http.Client
  /-- What makes the name of a temporary file. -/
  token : String
  /-- The present time as part of the name of a crash log. -/
  stamp : String

/-- What a run has said and sent so far. -/
structure Transcript where
  stdout : String := ""
  stderr : String := ""
  logs : List LogRecord := []
  /-- The requests to APIs. -/
  requests : List Http.Sent := []
  /-- The requests for descriptions. -/
  fetches : List Http.Sent := []
  /-- A crash log was written. -/
  hasCrashLog : Bool := false

/-- The state of a run. -/
structure State where
  world : World
  log : Log
  voice : Output.Voice
  /-- The cache of descriptions, if there is one, and the place of its store. -/
  cache : Option (Host.Place × SpecCache)
  transcript : Transcript

/-- How a run ends before its command has done all it does. -/
inductive Ending where
  /-- The command line is wrong; the names lead to the command whose usage it is about. -/
  | usage (path : List String) (e : CommandLine.UsageError)
  /-- A help page is asked for. -/
  | help (path : List String)
  /-- The version is asked for. -/
  | version
  | fault (f : Fault)

/-- Steps of a run that always succeed. -/
abbrev Step := StateM State

/-- Steps of a run that may end it. -/
abbrev Session := ExceptT Ending Step

namespace Session

/-- End the run. -/
def finish {α : Type} (ending : Ending) : Session α := throw ending

/-- End the run with a fault. -/
def failWith {α : Type} (fault : Fault) : Session α := finish (.fault fault)

/-- The result of a step that may have failed. -/
def settle {α : Type} : Except Fault α → Session α
  | .ok a => return a
  | .error fault => failWith fault

/-- The result of a step that may have met a defect. -/
def settleDefects {α : Type} (r : Except Defect α) : Session α := settle (r.mapError .defect)

/-- The host as it is now. -/
def host : Step Host := return (← get).world.host

/-- Change what has been said and sent. -/
def tell (f : Transcript → Transcript) : Step Unit :=
  modify fun s => { s with transcript := f s.transcript }

/-- Show the log records of the chosen level. -/
def publish (records : List LogRecord) : Step Unit :=
  modify fun s => { s with transcript.logs := s.transcript.logs ++ visible s.log.level records }

/-- Run a step that logs. -/
def logged {α : Type} (step : Logger α) : Step α := do
  let (a, records) := step.run []
  publish records
  return a

/-- Write a log record. -/
def remark (level : Level) (message : String) : Step Unit := logged (record level message)

/-- Run a step that logs and may fail. -/
def embed {α : Type} (step : Run α) : Session α := do
  let r ← (logged step.run : Step _)
  settle r

/-- Say something to the user. -/
def say (tone : Output.Tone) (message : String) : Step Unit := do
  let said := (← get).voice.say tone message
  tell fun t => { t with stderr := t.stderr ++ said }

/-- Print output. -/
def printOut (text : String) : Step Unit :=
  tell fun t => { t with stdout := t.stdout ++ Output.Format.endLine text }

/-- Run a step that changes files. -/
def onHost {α : Type} (step : Host.Task α) : Step (Except Defect α) := do
  let (r, host) := (step.run (← host) : Id _)
  modify fun s => { s with world.host := host }
  return r

/-- Run a step that changes files and has to succeed. -/
def onFiles {α : Type} (step : Host.Task α) : Session α := do
  let r ← (onHost step : Step _)
  settleDefects r

/-- How descriptions are loaded: from files and from the servers of descriptions. -/
def loader (network : Network) (host : Host) : Loader (List Http.Sent) :=
  Spec.load host network.descriptions

/-- Run a step on the descriptions. -/
def onDescriptions {α : Type} (step : StateT (Supply (List Http.Sent)) Logger α) : Step α := do
  let s ← get
  let supply : Supply (List Http.Sent) :=
    ⟨s.cache.map Prod.snd, s.world.clock, s.transcript.fetches⟩
  let (a, supply) ← logged (step.run supply)
  modify fun s => { s with
    cache := s.cache.bind fun c => supply.cache.map fun cache => (c.1, cache)
    world.clock := supply.clock
    transcript.fetches := supply.source }
  return a

/-- Run a step of a provider. -/
def provide {α : Type} (step : Provider (List Http.Sent) α) : Session α := do
  let r ← (onDescriptions step.run : Step _)
  settle r

/-- Send a request to an API. -/
def send (invocation : Invocation) (d : Request.Descriptor) : Session Http.Response := do
  let before := (← get).transcript.requests
  let talk := Http.send invocation.client invocation.network.apis d
  let (r, requests) ← (logged (talk.run.run before) : Step _)
  tell fun t => { t with requests }
  settle r

end Session

/-- The stores after the one at a place has changed. -/
def World.keepStore (w : World) (place : Host.Place) (store : Cache.Store) : World :=
  { w with stores := (place, store) :: w.stores.filter (·.1 != place) }

/-- The store at a place. -/
def World.storeAt (w : World) (place : Host.Place) : Cache.Store :=
  ((w.stores.find? (·.1 == place)).map Prod.snd).getD .empty

end ApiShell.Program
