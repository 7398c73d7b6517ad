import PackageBuild.Invocation
import PackageBuild.World
/-!
# Running CMake

CMake is either configured or looked for in the directories of the search path. It runs twice, to
configure and to build, and the second run only follows a successful first one. What a command does
is up to a runner, which sees the commands before it and may change the files.
-/

namespace PackageBuild

/-- How a command came to an end. -/
inductive Exit where
  /-- It ended with an exit code. -/
  | code (value : Int)
  /-- A signal ended it. -/
  | signal
  /-- It could not be started. -/
  | refused (error : OsError)
deriving DecidableEq, Repr

/-- What running a command did. -/
structure Ran where
  exit : Exit
  /-- The files afterwards. -/
  tree : FileTree
  /-- The lines it wrote to its standard output. -/
  output : List String := []
  took : Duration := .zero

/-- Runs commands: from the commands before, the command and the files to what it did. -/
abbrev Runner := List Command → Command → FileTree → Ran

namespace Toolchain

/-- The first directory of a search path that has an executable file of this name. -/
def lookUp (t : FileTree) (searchPath : List Path) (name : Path) : Option Path :=
  if name.components.length = 1 then
    (searchPath.map fun dir => dir.join name).find? fun path => t.isExecutable path
  else none

/-- The CMake to run: a configured file as it is, or what the search path has under the configured
or the usual name. -/
def findCMake (t : FileTree) (searchPath : List Path) (configured : Option Path) : Option Path :=
  match configured with
  | some path => if t.isFile path then some path else lookUp t searchPath path
  | none => lookUp t searchPath ⟨"cmake"⟩

def isProject (t : FileTree) (dir : Path) : Bool := t.pathExists (dir.joinText "CMakeLists.txt")

def run (runner : Runner) (command : Command) : Action Exit := fun world =>
  let ran := runner world.commands command world.tree
  (.ok ran.exit,
    { tree := ran.tree
      notices := world.notices ++ ran.output.map .output
      commands := world.commands ++ [command]
      elapsed := world.elapsed.add ran.took })

/-- Run the command of a step, which has to succeed. -/
def runStep (runner : Runner) (phase : BuildPhase) (command : Command) : Action Unit := do
  match ← run runner command with
  | .code 0 => return ()
  | .code value => Action.fail (.build ⟨phase, command.display, some value⟩)
  | .signal => Action.fail (.build ⟨phase, command.display, none⟩)
  | .refused error =>
    Action.within ("could not start `" ++ command.program.text ++ "`") (Action.fail (.os error))

def configureCommand (cmake : Path) (i : Invocation) : Command :=
  ⟨cmake, i.configureArgs, some i.dirs.sourceDir⟩

/-- The command of the second step. -/
def buildCommand (cmake : Path) (i : Invocation) : Command :=
  ⟨cmake, i.buildArgs, some i.dirs.sourceDir⟩

def configure (runner : Runner) (cmake : Path) (i : Invocation) : Action Unit := do
  Action.tell (.info ("Configuring " ++ i.descriptor.name ++ " " ++ i.descriptor.version.value))
  Action.makeDirectories i.dirs.buildDir
  i.warnings.forM Action.warn
  runStep runner .configure (configureCommand cmake i)

def compile (runner : Runner) (cmake : Path) (i : Invocation) : Action Unit := do
  let jobs := match i.jobs with
    | some jobs => " with " ++ toString jobs.val ++ " jobs"
    | none => ""
  Action.tell (.info ("Building " ++ i.descriptor.name ++ jobs))
  runStep runner .compile (buildCommand cmake i)

def build (runner : Runner) (cmake : Path) (i : Invocation) : Action Unit := do
  configure runner cmake i
  compile runner cmake i

end Toolchain
end PackageBuild
