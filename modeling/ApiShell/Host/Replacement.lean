import ApiShell.Host.Basic

/-!
# Replacing a file at once

A file gets its new content in one step: the content goes to a temporary file in the same directory,
and that file is then renamed.  Whatever fails on the way, the file has either its old content or its
new one.  What can fail beyond the state of the files themselves is told by a record of hazards.
-/

namespace ApiShell.Host

/-- The operations of a replacement that may fail by themselves, each with its fault. -/
structure Hazards where
  makeParent : Option FileFault := none
  create : Option FileFault := none
  put : Option FileFault := none
  flush : Option FileFault := none
  sync : Option FileFault := none
  close : Option FileFault := none
  /-- Closing the temporary file after another operation has failed. -/
  closeAgain : Option FileFault := none
  rename : Option FileFault := none
  remove : Option FileFault := none
deriving DecidableEq, Repr

/-- No operation fails by itself. -/
def Hazards.none : Hazards := {}

/-- Computations on a host that may end early and keep what they did before. -/
abbrev Task := ExceptT Defect (StateM Host)

namespace Task

/-- End early if an operation fails by itself. -/
def risk (hazard : Option FileFault) : Task Unit :=
  match hazard with
  | some fault => throw (.file fault)
  | .none => pure ()

/-- An operation on files. -/
def change (step : Host → Except FileFault Host) : Task Unit := do
  match step (← get) with
  | .ok host => set host
  | .error fault => throw (.file fault)

end Task

/-- Make a directory and the directories above it. -/
def makeDirectories (path : Path) : Task Unit := do
  let h ← get
  let (result, files) := h.files.makeUpwards (h.start path) path.names.reverse
  set { h with files }
  match result with
  | .ok () => pure ()
  | .error fault => throw (.file fault)

/-- The name of the temporary file that stands in for a file of a name. -/
def temporaryName (name token : String) : String := s!".{name}.{token}.tmp"

/-- Take away a file. -/
def remove (h : Host) (p : Path) : Except FileFault Host := do
  let place ← h.files.follow (h.start p) p.names
  match h.files.node? place with
  | some (.file _) => .ok { h with files := h.files.erase place }
  | some .directory => .error .directory
  | none => .error .missing

/-- Give a file another name.  A file of that name is replaced, a directory is not. -/
def rename (h : Host) (source target : Path) : Except FileFault Host := do
  let content ← h.read source
  if target.names.isEmpty || target.name == ".." then throw .busy
  let h ← h.write target content
  h.remove source

/-- Put the content into the temporary file, which is closed when it is complete. -/
def fill (hazards : Hazards) (temporary : Path) (content : List UInt8) : Task Unit := do
  Task.risk hazards.put
  Task.risk hazards.flush
  Task.change (·.write temporary content)
  Task.risk hazards.sync
  Task.risk hazards.close

/-- Take the temporary file away, if that is possible. -/
def discard (hazards : Hazards) (temporary : Path) : Task Unit := do
  if hazards.remove.isNone then
    modify fun h => match h.remove temporary with
      | .ok h => h
      | .error _ => h

/-- Give the temporary file the name of the file that it stands in for. -/
def settle (hazards : Hazards) (temporary path : Path) : Task Unit := do
  Task.risk hazards.rename
  Task.change (·.rename temporary path)

/-- Replace the content of a file, and make the directories above it.  `token` makes the name of the
temporary file.  When something fails, the temporary file is closed, if it is still open, and taken
away. -/
def replace (hazards : Hazards) (token : String) (path : Path) (content : List UInt8) :
    Task Unit := do
  let parent := path.parent
  if hasZero parent then throw zeroDefect
  Task.risk hazards.makeParent
  makeDirectories parent
  if hasZero path then throw zeroDefect
  Task.risk hazards.create
  let temporary := parent.child (temporaryName path.name token)
  Task.change (·.write temporary [])
  tryCatch (fill hazards temporary content) fun defect => do
    Task.risk hazards.closeAgain
    discard hazards temporary
    throw defect
  tryCatch (settle hazards temporary path) fun defect => do
    discard hazards temporary
    throw defect

end ApiShell.Host
