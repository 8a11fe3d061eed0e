import ApiShell.Config.Directories
import ApiShell.Config.Basic
import ApiShell.Program.EarlyOptions
import ApiShell.Spec.Content

/-!
# What a run may look at

A run looks at files in a few places only: where its own directories are, what the words of its command
line name, and where the configured descriptions are.  These places are known before the run.
-/

namespace ApiShell.Program

/-- The ends of a text behind the characters of a class. -/
def tailsBehind (p : Char → Bool) : List Char → List (List Char)
  | [] => []
  | c :: cs => if p c then cs :: tailsBehind p cs else tailsBehind p cs

/-- What a word may name: itself, or what stands behind an equals sign or an at sign in it. -/
def namesIn (word : String) : List String :=
  word :: (tailsBehind (fun c => c == '=' || c == '@') word.toList).map String.ofList

/-- The path of a name, unless it starts in the home directory of somebody else. -/
def pathOf? (h : Host) (name : String) : Option Host.Path :=
  (h.expandUser (.ofText name)).toOption

/-- The path of the configuration. -/
def configPathOf? (h : Host) (words : List String) : Option Host.Path :=
  let flag := (EarlyOptions.scan words).config.getD ""
  ((Host.configPath flag).run h : Id _).1.toOption

/-- The paths that are known before the configuration is. -/
def namedPaths (h : Host) (words : List String) : List Host.Path :=
  [Purpose.config, .cache, .data].map h.directoryPath ++
    [(h.directoryPath .config).child "config.yaml"] ++
    (configPathOf? h words).toList ++ (words.flatMap namesIn).filterMap (pathOf? h)

/-- The paths of the configured descriptions. -/
def describedPaths (h : Host) (words : List String) : List Host.Path :=
  match (configPathOf? h words).map (Config.load h) with
  | some (.ok c) => (c.apis.filter fun api => !Spec.isUrl api.2.apispec).filterMap fun api =>
      pathOf? h api.2.apispec
  | _ => []

end ApiShell.Program
