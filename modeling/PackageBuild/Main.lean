import PackageBuild.CommandLine.Run
import PackageBuild.Url
/-!
# The program

The program runs its command line on a copy of the files that matter: the manifests on the way up
from the working directory, the user's configuration, and all that lies in the directory of the
package and in its build and package directories. What the run changed is then written back, and
what it says goes to the standard streams. No programs are among the copied files, so a build ends
where CMake is looked for.
-/

namespace PackageBuild
namespace Disk

/-- The tree with all that lies at a path of the disk; a link is taken as a link. -/
partial def read (t : FileTree) (path : Path) : IO FileTree := do
  let place := (← IO.currentDir) / path.text
  let parents (t : FileTree) : FileTree :=
    match path.parent? with
    | some parent => (t.makeDirectories parent).2
    | none => t
  if !(← place.pathExists) then return t
  let real ← IO.FS.realPath place
  if real.toString ≠ path.text then return ((parents t).makeLink path ⟨real.toString⟩).2
  if ← place.isDir then
    let mut t := (t.makeDirectories path).2
    for entry in ← place.readDir do
      t ← read t (path.joinText entry.fileName)
    return t
  return ((parents t).writeFile path (← IO.FS.readBinFile place) false).2

/-- The tree with the file at a path of the disk, if there is one. -/
def readFile (t : FileTree) (path : Path) : IO FileTree := do
  if ← ((← IO.currentDir) / path.text).isDir then return t else read t path

/-- Make the disk below a path agree with a tree, given the tree it agrees with so far. -/
def write (before after : FileTree) (path : Path) : IO Unit := do
  let .ok top := after.locate path | return ()
  let cwd ← IO.currentDir
  let place (way : Location) := cwd / (FileTree.pathOf (top ++ way)).text
  for (way, entry) in (before.entriesBelow top).reverse do
    let kept := (after.lookup? (top ++ way)).map Entry.isDirectory = some entry.isDirectory
    if !kept && (← (place way).pathExists) then
      if entry.isDirectory then IO.FS.removeDir (place way) else IO.FS.removeFile (place way)
  for (way, entry) in after.entriesBelow top do
    if before.lookup? (top ++ way) ≠ some entry then
      match entry with
      | .directory => IO.FS.createDirAll (place way)
      | .file content _ => IO.FS.writeBinFile (place way) content
      | .link _ => return ()

end Disk

namespace CommandLine

/-- The environment variables with these names. -/
def readVariables (names : List String) : IO (List (String × String)) :=
  names.filterMapM fun name => return (← IO.getEnv name).map fun value => (name, value)

/-- A directory with all directories above it. -/
def upwards : Nat → Path → List Path
  | 0, _ => []
  | fuel + 1, dir => dir :: (dir.parent?.map (upwards fuel)).getD []

/-- The surroundings with some environment variables, in which no program can be started. -/
def surroundingsOf (cwd : Path) (known : List (String × String)) : Surroundings where
  cwd := cwd
  environment := fun name => known.lookup name
  isUrl := Url.isValid
  runner := fun _ _ tree => { exit := .refused .permissionDenied, tree }

def runOnDisk (words : List String) : IO UInt32 := do
  let cwd : Path := ⟨(← IO.currentDir).toString⟩
  let known ← readVariables ["HOME", "PATH"]
  let s := surroundingsOf cwd known
  let mut t := FileTree.empty
  let mut places : List Path := []
  let mut names : List String := []
  if let .ok (.run _ given) := Request.parse words then
    for dir in upwards (cwd.components.length + 1) cwd do
      t ← Disk.readFile t (dir.joinText Manifest.fileName)
    for file in (given.manifestPath.map cwd.join).toList ++ [s.workspace.configPath] do
      t ← Disk.readFile t file
    if let .ok manifest := s.workspace.manifestPath t given.manifestPath then
      t ← Disk.read t (Recipe.rootOf manifest)
    if let .ok setup := Setup.load s given.manifestPath t then
      let opts := setup.buildOptions s.host given
      places := [setup.recipe.root, (setup.recipe.buildDirs opts).buildDir,
        setup.recipe.packageDirFor opts.packageDir]
      let vars := setup.config.signals.vars
      names := [vars.ciTag, vars.versionOverride, vars.cpuCount]
      for place in places do
        t ← Disk.read t place
  let finished := run (surroundingsOf cwd (known ++ (← readVariables names))) words t
  for place in places do
    Disk.write t finished.world.tree place
  for (stream, text) in finished.written do
    match stream with
    | .output => IO.print text
    | .errors => IO.eprint text
  return finished.exitCode.toUInt32

end CommandLine
end PackageBuild

def main (words : List String) : IO UInt32 := PackageBuild.CommandLine.runOnDisk words
