import BundlePlan.FileTree

/-! A file tree as seen from a working directory. -/
namespace BundlePlan

structure Disk where
  tree : FileTree
  cwd : Location

namespace Disk

def workingDirectory (disk : Disk) : FilePath :=
  .ofParts (.root :: disk.cwd.map .name)

def pathExists (disk : Disk) (path : FilePath) : Bool := disk.tree.pathExists disk.cwd path

def readText (disk : Disk) (path : FilePath) : Except FileFailure String :=
  disk.tree.readText disk.cwd path

def writeText (disk : Disk) (path : FilePath) (content : String) : Except FileFailure Disk := do
  return { disk with tree := ← disk.tree.writeText disk.cwd path content }

/-- Makes sure that these directories are there, each inside the next; also a failure may leave
some of them behind. -/
def ensureDirectories (disk : Disk) (directories : List FilePath) :
    Disk × Except FileFailure Unit :=
  let (tree, outcome) := disk.tree.ensureDirectories disk.cwd directories
  ({ disk with tree := tree }, outcome)

end Disk
end BundlePlan
