import ApiShell.Host.Replacement
import ApiShell.Text.Lower

/-!
# The places of files

Settings, descriptions kept for later and crash logs each have a directory of their own.  Where these
are is a matter of the system and of a few environment variables; each directory is made when it is
asked for.  The configuration file is named by a flag, by an environment variable, or stands in the
directory of the settings.
-/

namespace ApiShell

/-- What a directory is for. -/
inductive Purpose where
  | config
  | cache
  | data
deriving DecidableEq, Repr

namespace Purpose

/-- The environment variable that names the directory above the one for a purpose. -/
def variableName : Purpose → String
  | config => "XDG_CONFIG_HOME"
  | cache => "XDG_CACHE_HOME"
  | data => "XDG_DATA_HOME"

/-- The names below the home directory where no variable says otherwise. -/
def homeNames : Purpose → List String
  | config => [".config"]
  | cache => [".cache"]
  | data => [".local", "share"]

/-- The names below the one directory that other systems have for all purposes. -/
def plainNames : Purpose → List String
  | config => []
  | cache => ["cache"]
  | data => ["logs"]

end Purpose

/-- The name under which directories are kept. -/
def directoryName : String := "ontap"

/-- The system keeps the directories of programs apart by purpose. -/
def separatesPurposes (system : String) : Bool :=
  system == "Linux" || Text.startsWith (String.ofList system.toList.reverse) "DSB"

namespace Host

/-- The path of the directory for a purpose. -/
def directoryPath (h : Host) (purpose : Purpose) : Path :=
  if separatesPurposes h.system then
    let named := h.valueOf purpose.variableName
    let base := if named ≠ "" then Path.ofText named
      else ⟨h.home.root, h.home.names ++ purpose.homeNames⟩
    base.child directoryName
  else ⟨h.home.root, h.home.names ++ ("." ++ directoryName) :: purpose.plainNames⟩

/-- The directory for a purpose, which is made if it is not there. -/
def directoryFor (purpose : Purpose) : Task Path := do
  let path := (← get).directoryPath purpose
  makeDirectories path
  return path

/-- The configuration file in the directory of the settings. -/
def defaultConfigPath : Task Path := return (← directoryFor .config).child "config.yaml"

/-- The configuration file to use: what a flag names, else what the environment names, else the one in
the directory of the settings. -/
def configPath (flag : String) : Task Path := do
  let h ← get
  let named := if flag ≠ "" then flag else h.valueOf "ONTAP_CONFIG"
  if named ≠ "" then
    match h.expandUser (.ofText named) with
    | .ok path => return path
    | .error defect => throw defect
  else defaultConfigPath

/-- The environment asks for an empty cache. -/
def asksForClearCache (h : Host) : Bool := Text.lower (h.valueOf "ONTAP_CLEAR_CACHE") == "true"

end Host

end ApiShell
