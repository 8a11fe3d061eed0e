import ApiShell.Cache.Basic

/-!
# Providing descriptions

Descriptions are taken from the cache while they are fresh, and loaded otherwise.  Trouble with the
cache is logged and never keeps a description from being provided.  How a description is loaded is left
open: a loader may change a state of its own.
-/

namespace ApiShell

/-- A clock: the present moment, and by how many microseconds it moves on when it is read. -/
structure Clock where
  now : Time.Moment
  step : Nat
deriving DecidableEq, Repr

/-- The clock after a while. -/
def Clock.advance (c : Clock) (micros : Int) : Except Defect Clock :=
  match Time.Moment.ofInstant? (c.now.instant + micros) with
  | some now => .ok { c with now }
  | none => .error .outOfRange

/-- The clock after it was read. -/
def Clock.tick (c : Clock) : Clock :=
  match c.advance c.step with
  | .ok c => c
  | .error _ => c

/-- How raw documents are loaded, over a state of their source. -/
abbrev Loader (σ : Type) := String → ExceptT Fault (StateT σ Logger) Value

/-- What a provider works with: a cache, if there is one, a clock and the source of documents. -/
structure Supply (σ : Type) where
  cache : Option SpecCache
  clock : Clock
  source : σ

/-- Computations of a provider. -/
abbrev Provider (σ : Type) := ExceptT Fault (StateT (Supply σ) Logger)

namespace Provider

variable {σ : Type}

/-- A computation that needs no description. -/
def ofRun {α : Type} (r : Run α) : Provider σ α := ExceptT.mk (StateT.lift r.run)

/-- What comes of a computation; only a defect ends it early. -/
def outcome {α : Type} (p : Provider σ α) : Provider σ (Except Failure α) :=
  ExceptT.mk do
    match ← p.run with
    | .ok a => return .ok (.ok a)
    | .error (.failure f) => return .ok (.error f)
    | .error (.defect d) => return .error (.defect d)

/-- Run a step on the source. -/
def onSource {α : Type} (step : ExceptT Fault (StateT σ Logger) α) : Provider σ α :=
  ExceptT.mk do
    let s ← get
    let (result, source) ← step.run.run s.source
    set { s with source }
    return result

/-- Run a step on a cache at the present moment, and give what comes of it. -/
def onCache {α : Type} (cache : SpecCache) (step : Time.Moment → CacheTask α) :
    Provider σ (Except Defect α) := do
  let s ← get
  let (result, cache) ← ((step s.clock.now).run.run cache : Logger _)
  set { s with cache := some cache, clock := s.clock.tick }
  return result

/-- The text of trouble that a provider copes with: failing files and faulty fields. -/
def troubleText? : Defect → Option String
  | .file fault => some fault.reason
  | .fields faults => some (fieldFaultsText faults)
  | _ => none

/-- Run a step on the cache, if there is one; trouble is logged and gives `fallback`. -/
def attempt {α : Type} (complaint : String) (fallback : α) (step : Time.Moment → CacheTask α) :
    Provider σ α := do
  match (← get).cache with
  | none => return fallback
  | some cache => match ← onCache cache step with
    | .ok a => return a
    | .error defect => match troubleText? defect with
      | some text => do
        record .warning s!"{complaint}: {text}"
        return fallback
      | none => throw (.defect defect)

/-- Load the description at a location. -/
def load (loader : Loader σ) (location : String) : Provider σ Spec.Description := do
  record .debug s!"Loading spec from {location}"
  let raw ← onSource (loader location)
  match ← ((Spec.Description.ofRaw location raw).run : Logger _) with
  | .ok d => return d
  | .error fault => throw fault

/-- Keep a description for a while. -/
def keep (d : Spec.Description) (ttl : Time.Duration) : Provider σ Unit :=
  attempt s!"Failed to cache spec for {d.location}" () fun now => do
    let _ ← SpecCache.keep now d ttl

/-- Load a description and keep it. -/
def loadAndKeep (loader : Loader σ) (location : String) (ttl : Time.Duration) :
    Provider σ Spec.Description := do
  let d ← load loader location
  keep d ttl
  return d

/-- The description at a location, from the cache while it is fresh. -/
def description (loader : Loader σ) (location : String) (ttl : Time.Duration) :
    Provider σ Spec.Description := do
  let entry ← attempt s!"Spec cache read failed for {location}" none fun now =>
    SpecCache.lookup now (Cache.keyOf location)
  match entry with
  | some entry => do
    record .debug s!"Using cached spec for {location}"
    return entry.description
  | none => loadAndKeep loader location ttl

/-- Load the description at a location anew. -/
def refresh (loader : Loader σ) (location : String) (ttl : Time.Duration) :
    Provider σ Spec.Description := do
  attempt s!"Failed to drop cached spec for {location}" () fun _ =>
    SpecCache.delete (Cache.keyOf location)
  loadAndKeep loader location ttl

/-- Take all descriptions out of the cache. -/
def clear : Provider σ Unit :=
  modify fun s => { s with cache := s.cache.map SpecCache.cleared }

end Provider

end ApiShell
