import ApiShell.Fault
import ApiShell.Text.Split

/-!
# File trees

Files and directories under absolute places.  Following a path goes name by name: each name but the
last has to be a directory, and double dots lead back up.  What has to be done to a tree to make another
one of it is a list of changes.
-/

/-!
### Paths

A path is a list of names below the root or below the current directory.  Empty names and single dots
are dropped when a path is read; double dots stay, because what they lead to is known only when the
path is followed.
-/

namespace ApiShell.Host

/-- A path.  `root` is what it starts with: nothing, one slash, or two. -/
structure Path where
  root : String
  names : List String
deriving DecidableEq, Repr

namespace Path

/-- The names of a path that lead somewhere. -/
def namesOf (s : String) : List String :=
  (Text.split '/' s).filter fun name => name ≠ "" ∧ name ≠ "."

/-- Read a path.  Exactly two slashes at the beginning are kept, more count as one. -/
def ofText (s : String) : Path :=
  let root := match s.toList with
    | '/' :: '/' :: '/' :: _ => "/"
    | '/' :: '/' :: _ => "//"
    | '/' :: _ => "/"
    | _ => ""
  ⟨root, namesOf s⟩

/-- The text of a path; the current directory is a dot. -/
def text (p : Path) : String :=
  if p.root = "" ∧ p.names.isEmpty then "." else p.root ++ Text.join "/" p.names

/-- The path starts at the root. -/
def isAbsolute (p : Path) : Bool := p.root ≠ ""

/-- The path of an entry below another one; an absolute path stands for itself. -/
def join (p q : Path) : Path := if q.isAbsolute then q else ⟨p.root, p.names ++ q.names⟩

/-- The path of an entry of a directory. -/
def child (p : Path) (name : String) : Path := p.join (ofText name)

/-- The path without its last name. -/
def parent (p : Path) : Path := ⟨p.root, p.names.dropLast⟩

/-- The last name of a path. -/
def name (p : Path) : String := p.names.getLast?.getD ""

/-- The part of the last name from its last point on.  A point at either end of the name counts for
nothing. -/
def suffix (p : Path) : String :=
  let cs := p.name.toList.reverse
  let ending := cs.takeWhile (· != '.')
  if ending.isEmpty || ending.length + 1 ≥ cs.length then ""
  else String.ofList ('.' :: ending.reverse)

end Path

end ApiShell.Host

/-! ### File trees -/

namespace ApiShell.Host

/-- A place below the root. -/
abbrev Place := List String

/-- What stands at a place. -/
inductive Node where
  | file (content : List UInt8)
  | directory
deriving DecidableEq, Repr

/-- A tree of files.  Every place that is listed has its parents listed as well. -/
structure FileTree where
  nodes : List (Place × Node)
deriving DecidableEq, Repr

namespace FileTree

/-- The tree that has a root only. -/
def empty : FileTree := ⟨[([], .directory)]⟩

/-- What stands at a place. -/
def node? (t : FileTree) (place : Place) : Option Node :=
  (t.nodes.find? (·.1 == place)).map Prod.snd

/-- Put a node at a place. -/
def put (t : FileTree) (place : Place) (node : Node) : FileTree :=
  if t.nodes.any (·.1 == place) then
    ⟨t.nodes.map fun n => if n.1 == place then (place, node) else n⟩
  else ⟨t.nodes ++ [(place, node)]⟩

/-- Take away what stands at a place. -/
def erase (t : FileTree) (place : Place) : FileTree := ⟨t.nodes.filter (·.1 != place)⟩

/-- The names of what stands in a directory. -/
def entries (t : FileTree) (place : Place) : List String :=
  t.nodes.filterMap fun n =>
    if n.1.length = place.length + 1 ∧ n.1.dropLast = place then n.1.getLast? else none

/-- A name is longer than the longest one that a directory can hold. -/
def isTooLong (name : String) : Bool := name.utf8ByteSize > 255

/-- The place that names lead to from a directory.  The last name may be missing in its directory. -/
def follow (t : FileTree) (place : Place) : List String → Except FileFault Place
  | [] => .ok place
  | name :: rest =>
    match t.node? place with
    | none => .error .missing
    | some (.file _) => .error .notDirectory
    | some .directory =>
      if name = ".." then follow t place.dropLast rest
      else if isTooLong name then .error .tooLong
      else follow t (place ++ [name]) rest

/-- What stands where names lead from a directory. -/
def find (t : FileTree) (place : Place) (names : List String) : Except FileFault Node := do
  let place ← t.follow place names
  match t.node? place with
  | some node => .ok node
  | none => .error .missing

/-- Make a directory under the last of the names. -/
def makeDirectory (t : FileTree) (place : Place) (names : List String) :
    Except FileFault FileTree := do
  let target ← t.follow place names
  if names.getLast?.all (· == "..") || (t.node? target).isSome then throw .exists
  return t.put target .directory

/-- Make a directory where there is none yet: how that ends, and the tree that it leaves. -/
def ensureDirectory (t : FileTree) (place : Place) (names : List String) :
    Except FileFault Unit × FileTree :=
  match t.makeDirectory place names with
  | .ok made => (.ok (), made)
  | .error fault =>
    match t.find place names with
    | .ok .directory => (.ok (), t)
    | _ => (.error fault, t)

/-- Make a directory and, where it cannot be made because they are missing, the directories above it
first.  The names are given from the last one back.  Directories that were made stay, also where a
later one cannot be made. -/
def makeUpwards (t : FileTree) (place : Place) : List String → Except FileFault Unit × FileTree
  | [] => t.ensureDirectory place []
  | name :: above =>
    match t.ensureDirectory place (name :: above).reverse with
    | (.error .missing, _) =>
      match makeUpwards t place above with
      | (.ok (), made) => made.ensureDirectory place (name :: above).reverse
      | failed => failed
    | done => done

/-- The tree with a directory and the directories above it. -/
def makeDirectories (t : FileTree) (place : Place) (names : List String) :
    Except FileFault FileTree :=
  match t.makeUpwards place names.reverse with
  | (.ok (), made) => .ok made
  | (.error fault, _) => .error fault

/-- Write a file. -/
def write (t : FileTree) (place : Place) (names : List String) (content : List UInt8) :
    Except FileFault FileTree := do
  let place ← t.follow place names
  match t.node? place with
  | some .directory => .error .directory
  | _ => .ok (t.put place (.file content))

end FileTree

/-- A change of a tree of files. -/
inductive Change where
  | makeDirectory (place : Place)
  | write (place : Place) (content : List UInt8)
  | remove (place : Place)
deriving DecidableEq, Repr

/-- The change that puts a node at a place. -/
def Change.ofNode (place : Place) : Node → Change
  | .directory => .makeDirectory place
  | .file content => .write place content

namespace FileTree

/-- What was put or replaced between two trees. -/
def additions (before after : FileTree) : List Change :=
  (after.nodes.filter fun n => before.node? n.1 ≠ some n.2).map fun n => Change.ofNode n.1 n.2

/-- What was taken away between two trees. -/
def removals (before after : FileTree) : List Change :=
  (before.nodes.filter fun n => (after.node? n.1).isNone).map fun n => .remove n.1

/-- The changes that lead from one tree to another. -/
def changes (before after : FileTree) : List Change :=
  removals before after ++ additions before after

end FileTree

end ApiShell.Host
