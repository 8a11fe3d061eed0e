import ApiShell.Cache.Basic
import ApiShell.Host.FileTree
import ApiShell.Program.Reach
import ApiShell.Program.Run
import ApiShell.Time.Stamp
import Std.Time.DateTime.Timestamp

/-!
# The program

The outer layer: it reads the files that a run may look at, runs the program on them, and writes back
what has changed.  There is no way to the network from here, so every request fails to connect.
-/

namespace ApiShell.Main

/-- The text of a place. -/
def placeText (place : Host.Place) : String := "/" ++ Text.join "/" place

/-- The place of a path. -/
def placeOf (h : Host) (p : Host.Path) : Host.Place :=
  p.names.foldl (fun place name => if name = ".." then place.dropLast else place ++ [name])
    (h.start p)

/-- What stands at a place. -/
def readNode (place : Host.Place) : IO (Option Host.Node) := do
  let path := placeText place
  try
    return some (.file (← IO.FS.readBinFile path).toList)
  catch _ =>
    try
      let real ← IO.FS.realPath path
      return if ← real.isDir then some .directory else none
    catch _ => return none

/-- Read what stands on the way to a place, from a place that was reached already. -/
def readWay (tree : Host.FileTree) (reached : Host.Place) : List String → IO Host.FileTree
  | [] => return tree
  | name :: names => do
    let place := reached ++ [name]
    match ← readNode place with
    | some node => readWay (tree.put place node) place names
    | none => return tree

/-- Read what stands on the ways of paths. -/
def readPaths (h : Host) (paths : List Host.Path) : IO Host := do
  let files ← paths.foldlM (fun tree p => readWay tree [] (placeOf h p)) h.files
  return { h with files }

/-- The environment variables. -/
def readEnvironment : IO (List (String × String)) := do
  let bytes ← try IO.FS.readBinFile "/proc/self/environ" catch _ => pure .empty
  let entries := Text.splitAt '\x00' (Text.ofUtf8Lenient bytes.toList)
  return entries.filterMap fun entry => (Text.cutAt? '=' entry).map fun (name, value) =>
    (String.ofList name, String.ofList value)

/-- The surroundings of a run with the files that it may look at. -/
def readHost (words : List String) : IO Host := do
  let directory := (Host.Path.ofText (← IO.currentDir).toString).names
  let h : Host := { environment := ← readEnvironment, directory, files := .empty }
  let h ← readPaths h (Program.namedPaths h words)
  readPaths h (Program.describedPaths h words)

/-- Make a change on the disk. -/
def makeChange : Host.Change → IO Unit
  | .makeDirectory place => IO.FS.createDirAll (placeText place)
  | .write place content => IO.FS.writeBinFile (placeText place) (ByteArray.mk content.toArray)
  | .remove place => IO.FS.removeFile (placeText place)

/-- The clock that shows the present time. -/
def readClock : IO Clock := do
  let micros := (← Std.Time.Timestamp.now).toNanosecondsSinceUnixEpoch.toInt / 1000
  match Time.Moment.ofInstant? (Time.epoch + micros) with
  | some now => return ⟨{ now with offset := some 0 }, 1⟩
  | none => return ⟨⟨⟨1970, 1, 1⟩, 0, 0, 0, 0, some 0⟩, 1⟩

/-- A moment as part of the name of a file. -/
def stampOf (m : Time.Moment) : String :=
  let two := Time.padded 2
  let date := Time.padded 4 m.date.year ++ two m.date.month ++ two m.date.day
  date ++ "-" ++ two m.hour ++ two m.minute ++ two m.second

/-- No server can be reached. -/
def unreachable : Http.Server := fun _ _ => .broken "no way to the network"

/-- The place of the store of a run. -/
def storePlace (h : Host) : Host.Place :=
  placeOf h ((h.directoryPath .cache).child SpecCache.storeName)

/-- Read the store at a place. -/
def readStore (place : Host.Place) : IO Cache.Store := do
  try
    return .ofText (← IO.FS.readFile (placeText (place ++ [Cache.Store.fileName])))
  catch _ => return .empty

/-- Write the store at a place. -/
def writeStore (place : Host.Place) (store : Cache.Store) : IO Unit :=
  IO.FS.writeFile (placeText (place ++ [Cache.Store.fileName])) store.text

/-- The line of a log record. -/
def logLine (r : LogRecord) : String :=
  let level := match r.level with
    | .debug => "DEBUG"
    | .info => "INFO"
    | .warning => "WARNING"
    | .error => "ERROR"
  level ++ " " ++ r.message ++ "\n"

/-- The lines about the usage of a command. -/
def usageText (report : Program.Report) : String :=
  let page := match report.page with
    | some path => "Usage: " ++ Text.join " " path ++ " [OPTIONS] [ARGS]...\n"
    | none => ""
  match report.usageError with
  | some .nothingGiven | none => page
  | some e => page ++ "Error: " ++ e.message ++ "\n"

end ApiShell.Main

open ApiShell in
/-- Run the program. -/
def main (words : List String) : IO UInt32 := do
  let host ← Main.readHost words
  let clock ← Main.readClock
  let place := Main.storePlace host
  let world : Program.World := ⟨host, [(place, ← Main.readStore place)], clock⟩
  let stamp := Main.stampOf clock.now
  let (report, after) := Program.run world
    ⟨words, ⟨Main.unreachable, Main.unreachable⟩, ⟨Http.defaultTimeout, stamp, 0⟩, stamp, stamp⟩
  (host.files.changes after.host.files).forM Main.makeChange
  for (place, store) in after.stores do
    if (after.host.files.node? place).isSome then Main.writeStore place store
  let transcript := report.transcript
  let errors ← IO.getStderr
  errors.putStr (String.join (transcript.logs.map Main.logLine) ++ Main.usageText report ++
    transcript.stderr)
  (← IO.getStdout).putStr transcript.stdout
  return report.exitCode.toUInt32
