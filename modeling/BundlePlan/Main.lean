import BundlePlan.CommandLine.Session
import BundlePlan.CommandLine.Text

/-! The command itself. The run is computed on a picture of the files that it asks for; the picture
grows until a run asks for nothing that is not in it, and what that run leaves behind is then
carried out. -/
namespace BundlePlan.Main

/-- The locations that a walk along `path` passes through. -/
def passed (cwd : Location) (path : FilePath) : List Location :=
  let step (state : Location × List Location) (part : FilePath.Part) : Location × List Location :=
    let here := match part with
      | .root => []
      | .current => state.1
      | .up => state.1.dropLast
      | .name name => state.1 ++ [name]
    (here, state.2 ++ (List.range (here.length + 1)).map here.take)
  (path.parts.foldl step (cwd, [])).2

def look (disk : Disk) (location : Location) : IO Disk := do
  if location = [] then return disk
  let place := (← IO.currentDir) / ("/" ++ "/".intercalate location)
  if ← place.isDir then return { disk with tree := disk.tree.put location .directory }
  else if ← place.pathExists then
    return { disk with tree := disk.tree.put location (.file (← IO.FS.readBinFile place)) }
  else return disk

def asked (arguments : Arguments) (transcript : Transcript) : List FilePath :=
  [arguments.config] ++ arguments.output.toList ++ arguments.graph.toList ++
    transcript.events.filterMap fun
      | .loadingManifest _ path => some path
      | .entryPointNotFound path => some path
      | _ => none

/-- Runs the command on ever larger pictures. -/
partial def settle (arguments : Arguments) (disk : Disk) (known : List Location) :
    IO (Disk × Except Failure Unit × Transcript) := do
  let (outcome, transcript) := (Session.command arguments).run disk
  let fresh := ((asked arguments transcript).flatMap (passed disk.cwd)).filter (!known.contains ·)
  if fresh.isEmpty then return (disk, outcome, transcript)
  else settle arguments (← fresh.eraseDups.foldlM look disk) (known ++ fresh.eraseDups)

/-- Carries out what a run did to its picture of the files. -/
def carryOut (before after : Disk) : IO Unit := do
  for (location, entry) in after.tree.entries.entries do
    if before.tree.entry? location ≠ some entry then
      let place := "/" ++ "/".intercalate location
      match entry with
      | .directory => IO.FS.createDir place
      | .file content => IO.FS.writeBinFile place content

def run (arguments : Arguments) : IO UInt32 := do
  let cwd := (← IO.currentDir).toString
  let location := (cwd.splitOn "/").filter (· ≠ "")
  let start ← ((List.range (location.length + 1)).map location.take).foldlM look ⟨∅, location⟩
  let (disk, outcome, transcript) ← settle arguments start []
  carryOut disk transcript.disk
  IO.print transcript.output
  IO.eprint transcript.diagnostics
  match outcome with
  | .ok () => return 0
  | .error failure =>
    IO.eprint (Session.failureLine failure)
    return 1

end BundlePlan.Main

open BundlePlan in
def main (words : List String) : IO UInt32 := do
  match Arguments.parse words (← IO.getEnv "EXTENSION_BUNDLER_CONFIG") with
  | .ok arguments => Main.run arguments
  | .error dismissal =>
    if dismissal.exitCode = 0 then IO.print dismissal.message else IO.eprint dismissal.message
    return dismissal.exitCode.toUInt32
