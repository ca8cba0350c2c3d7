import ClientMetrics.Command.Run
import ClientMetrics.Text.Moment
import Std.Time.DateTime.Timestamp

/-!
# The program

The program looks at what lies on the way to its file of settings, runs its command on that, and
then makes the folders and files that the run made and writes what the run writes.
-/

namespace ClientMetrics

namespace Program

/-- The path of a place. -/
def pathOf (place : Place) : String := "/" ++ "/".intercalate place

/-- The variables that a run looks at. -/
def environment : IO Environment := do
  let names := "RUST_LOG" :: Parameter.shared.filterMap (·.variableName?)
  names.filterMapM fun name => do return (← IO.getEnv name).map (name, ·)

/-- What lies at a place in a folder. What is there and cannot be read is taken for a folder. -/
def entryAt (place : Place) : IO (Option FileEntry) := do
  try
    return some (.file (← IO.FS.readBinFile (pathOf place)))
  catch
    | .noFileOrDirectory .. => return none
    | _ => return some .folder

/-- Adds what lies at some places, none of which is below a file. -/
def addEntries (t : FileTree) (places : List Place) : IO FileTree :=
  places.foldlM (fun t place => do
    match t.find? place, t.find? place.dropLast with
    | none, some .folder =>
      match ← entryAt place with
      | some e => return t.put place e
      | none => return t
    | _, _ => return t) t

/-- The current folder, and what lies on the way to a file. -/
def treeFor (folder : String) : IO FileTree := do
  let root := toString (← IO.currentDir)
  let here := (root.splitOn "/").filter (· ≠ "")
  let t : FileTree := { root, here }
  let t := ((List.range here.length).map fun n => here.take (n + 1)).foldl
    (fun t place => t.put place .folder) t
  addEntries t (t.placesOn (joinPath folder configFileName))

/-- Makes what is in one tree and not in the other, the oldest first. -/
def make (old new : FileTree) : IO Unit :=
  (new.entries.reverse.filter fun e => !(old.find? e.1).any e.2.same).forM fun
    | (place, .folder) => IO.FS.createDir (pathOf place)
    | (place, .file content) => IO.FS.writeBinFile (pathOf place) content

/-- The present moment. -/
def now : IO String := do
  let nanos := (← Std.Time.Timestamp.now).toNanosecondsSinceUnixEpoch
  return Text.moment (nanos.val.toNat / 1000)

/-- A whole run. -/
def run (args : List String) : IO UInt32 := do
  let env ← environment
  let folder := match Invocation.ofArguments env args with
    | .ok i => i.folder
    | .error _ => ""
  let t ← treeFor folder
  let o := Command.run env t args
  make t o.files
  let time ← now
  o.log.forM fun e => IO.eprintln (e.write (some time))
  IO.print o.output
  return .ofNat o.status

end Program

end ClientMetrics

/-- Runs the program and ends with its status, which is one if a file cannot be made. -/
def main (args : List String) : IO UInt32 := do
  try
    ClientMetrics.Program.run args
  catch e =>
    IO.eprintln ("error: " ++ toString e)
    return 1
