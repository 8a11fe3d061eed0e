import ApiShell.Command.Page
import ApiShell.Request.Build

/-!
# The program itself

What may follow the name of the program, and the commands that it has whatever is configured.
-/

namespace ApiShell.Program

open CommandLine (OptionDecl Interface)

/-- The name of the program. -/
def name : String := "ontap"

/-- The line that tells the version of the program. -/
def versionLine : String := s!"{name} {Request.programVersion}"

/-- What the program is for. -/
def purpose : String := "Turn OpenAPI 3.0/3.1 descriptions into CLI commands."

/-- The options of the program. -/
def options : List OptionDecl :=
  [{ identifier := "version", names := ["--version"], kind := .bool
     default := some (.bool false), help := "Show version and exit.", signal := some .version },
   { identifier := "config", names := ["--config", "-c"], kind := .string
     help := "Config file (default: $ONTAP_CONFIG or the XDG config dir)." },
   Command.outputOption, Command.saveOption, Command.extractOption, Command.filterOption,
   { identifier := "verbose", names := ["--verbose", "-v"], kind := .bool
     default := some (.bool false), help := "Enable debug output." },
   { identifier := "dry_run", names := ["--dry-run"], kind := .bool
     default := some (.bool false), help := "Build requests but do not send them." },
   { identifier := "log_level", names := ["--log-level", "-l"], kind := .string
     default := some (.string "info"), help := "Log level: debug, info, warn, error." }]

/-- What may follow the name of the program. -/
def interface : Interface := { options }

/-- The commands that the program always has. -/
inductive Builtin where
  | init
  | refresh
  | version
deriving DecidableEq, Repr

namespace Builtin

/-- All built-in commands. -/
def all : List Builtin := [init, refresh, version]

/-- The name of a built-in command. -/
def name : Builtin → String
  | init => "init"
  | refresh => "refresh"
  | version => "version"

/-- The built-in command of a name. -/
def ofName? (name : String) : Option Builtin := all.find? (·.name == name)

/-- What may follow the name of a built-in command. -/
def interface : Builtin → Interface
  | init =>
    { options :=
        [{ identifier := "force", names := ["--force", "-f"], kind := .bool
           default := some (.bool false), help := "Overwrite an existing config." },
         { identifier := "global_", names := ["--global", "-g"], kind := .bool
           default := some (.bool false)
           help := "Write to the per-user config location, ignoring --config and $ONTAP_CONFIG." }] }
  | refresh =>
    { arguments :=
        [{ identifier := "api_name", shownName := "API", isRequired := false
           help := "API to refresh (default: all)." }] }
  | version => {}

/-- What a built-in command is for. -/
def purpose : Builtin → String
  | init => "Write a starter configuration file."
  | refresh => "Re-fetch and re-cache API specs, ignoring their TTL."
  | version => "Show the ontap version."

end Builtin

end ApiShell.Program
