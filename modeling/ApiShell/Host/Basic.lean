import ApiShell.Host.FileTree
import ApiShell.Text.Split
import ApiShell.Text.Utf8

/-!
# The host

What a command finds around it: environment variables, a current directory and files.
-/

namespace ApiShell

/-- The surroundings of a command. -/
structure Host where
  environment : List (String × String)
  directory : Host.Place
  files : Host.FileTree
  /-- The name of the operating system. -/
  system : String := "Linux"

namespace Host

/-- The value of an environment variable. -/
def value? (h : Host) (name : String) : Option String :=
  (h.environment.find? (·.1 == name)).map Prod.snd

/-- The value of an environment variable, empty where it is not set. -/
def valueOf (h : Host) (name : String) : String := (h.value? name).getD ""

/-- The home directory of the user whose environment does not tell. -/
def defaultHome : String := "/root"

/-- The home directory of the user. -/
def home (h : Host) : Path :=
  let named := (h.value? "HOME").getD defaultHome
  let trimmed := String.ofList (named.toList.reverse.dropWhile (· == '/')).reverse
  Path.ofText (if trimmed = "" then "/" else trimmed)

/-- Put the home directory in the place of a tilde at the beginning.  The home directories of others
are not known. -/
def expandUser (h : Host) (p : Path) : Except Defect Path :=
  match p.isAbsolute, p.names with
  | false, "~" :: rest => .ok ⟨h.home.root, h.home.names ++ rest⟩
  | false, name :: _ => if name.toList.head? == some '~' then .error .noHome else .ok p
  | _, _ => .ok p

/-- The path has the zero character in it, which no file's path has. -/
def hasZero (p : Path) : Bool := p.names.any fun name => name.toList.contains '\x00'

/-- Where a path starts. -/
def start (h : Host) (p : Path) : Place := if p.isAbsolute then [] else h.directory

/-- What stands at a path. -/
def find (h : Host) (p : Path) : Except FileFault Node := h.files.find (h.start p) p.names

/-- The defect of a path that no file can have. -/
def zeroDefect : Defect := .badValue "embedded null byte"

/-- Whether a file stands at a path.  A path that leads nowhere has none; a name that is too long is
a defect. -/
def isFile (h : Host) (p : Path) : Except Defect Bool :=
  if hasZero p then .ok false
  else match h.find p with
    | .ok (.file _) => .ok true
    | .error .tooLong => .error (.file .tooLong)
    | _ => .ok false

/-- Whether anything stands at a path. -/
def present (h : Host) (p : Path) : Except Defect Bool :=
  if hasZero p then .ok false
  else match h.find p with
    | .ok _ => .ok true
    | .error .tooLong => .error (.file .tooLong)
    | .error _ => .ok false

/-- The content of a file. -/
def read (h : Host) (p : Path) : Except FileFault (List UInt8) := do
  match ← h.find p with
  | .file content => .ok content
  | .directory => .error .directory

/-- The text of a file, unless its bytes are none. -/
def readText (h : Host) (p : Path) : Except FileFault (Option (List Char)) := do
  let content ← h.read p
  return (Text.ofUtf8? content).map Text.plainBreaks

/-- Write a file. -/
def write (h : Host) (p : Path) (content : List UInt8) : Except FileFault Host :=
  (h.files.write (h.start p) p.names content).map fun files => { h with files }

end Host

end ApiShell
