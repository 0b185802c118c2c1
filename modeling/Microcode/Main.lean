import Microcode.Command
import Microcode.Console

/-!
The program. It takes a snapshot of the files that the arguments name, runs the command on it, and
writes back the files that the run changed.
-/
namespace Microcode.Main

/-- The paths that a run may open. -/
def pathsOf (settings : Settings) : List String :=
  [settings.layout, settings.input, settings.output, settings.defines].filterMap id ++
    [Command.logPath settings, Command.listingPath settings]

/-- The part of the disk on the way to a path. -/
def snapshotPath (fs : FileSystem) (path : String) : IO FileSystem := do
  let here ← IO.currentDir
  let names := fs.absoluteNames path
  let mut nodes := fs.nodes
  for n in [1:names.length + 1] do
    let key := FileSystem.key (names.take n)
    let there := here / ("/" ++ key)
    if ← there.isDir then
      nodes := nodes.put key .directory
    else if ← there.pathExists then
      let content ← IO.FS.readBinFile there
      nodes := nodes.put key (.file content.data.toList)
  return { fs with nodes }

def snapshot (arguments : List String) : IO FileSystem := do
  let here ← IO.currentDir
  let mut fs : FileSystem := ⟨[], FileSystem.names here.toString, []⟩
  if let .ok settings := Settings.ofArguments arguments then
    for path in pathsOf settings do
      fs ← snapshotPath fs path
  return fs

def writeBack (before after : FileSystem) : IO Unit := do
  for (key, node) in after.nodes do
    if let .file content := node then
      if before.nodes.lookup key != some node then
        IO.FS.writeBinFile ("/" ++ key) ⟨content.toArray⟩

def secondsText (milliseconds : Nat) : String :=
  let places := String.ofList (Text.paddedDigits 10 3 (milliseconds % 1000))
  s!"{milliseconds / 1000}.{places}0"

/-- Runs the command on the disk; gives the exit code. The log is stamped with the time on the
machine's own clock. -/
def run [Machine] (arguments : List String) : IO UInt32 := do
  let started ← IO.monoMsNow
  let fs ← snapshot arguments
  let finished ← IO.monoMsNow
  let occasion : Occasion :=
    ⟨secondsText started, fun _ => "", secondsText (finished - started)⟩
  let report := Command.run arguments occasion fs
  writeBack fs report.files
  for event in report.events do
    IO.println (Console.eventText event)
  match report.ending with
  | .returned status => return status.toUInt32
  | .stopped code complaint =>
    if code = 0 then IO.println Console.usage
    else
      IO.eprintln Console.usage
      IO.eprintln complaint
    return code.toUInt32

end Microcode.Main

def main (arguments : List String) : IO UInt32 := Microcode.Main.run arguments
