import PackageBuild.Command
import PackageBuild.Duration
import PackageBuild.FileTree.Change
import PackageBuild.Notice
/-!
# Actions

Packaging and building change a file tree, tell the user things on the way, run commands, and may
fail at any step. An action is a function from the world before to an outcome and the world after;
what was done before a failure stays done.
-/

namespace PackageBuild

/-- What an action can change. -/
structure World where
  tree : FileTree
  /-- What was told, in order. -/
  notices : List Notice := []
  /-- The commands that were run, in order. -/
  commands : List Command := []
  /-- How long the commands took altogether. -/
  elapsed : Duration := .zero

/-- A sequence of steps that may fail. -/
abbrev Action (α : Type) := ExceptT Failure (StateM World) α

namespace Action

/-- The outcome of an action and the world it leaves behind. -/
def outcome {α : Type} (action : Action α) (world : World) : Except Failure α × World :=
  action.run world

def fail {α : Type} (cause : Cause) : Action α := throw (.of cause)

/-- A value that can be computed or is refused. -/
def ofExcept {α : Type} (result : Except Failure α) : Action α := ExceptT.mk (pure result)

/-- What a function says about the files. -/
def look {α : Type} (f : FileTree → α) : Action α := do return f (← get).tree

def tell (notice : Notice) : Action Unit :=
  modify fun world => { world with notices := world.notices ++ [notice] }

def warn (warning : Warning) : Action Unit := tell (.warning warning)

/-- Change the files, with a context for what the system refuses. -/
def change (context : String) (f : FileTree → FileTree.Changed) : Action Unit := fun world =>
  match f world.tree with
  | (.ok (), tree) => (.ok (), { world with tree })
  | (.error e, tree) => (.error ((Failure.of (.os e)).within context), { world with tree })

/-- An action whose failures are put into a context. -/
def within {α : Type} (context : String) (action : Action α) : Action α := fun world =>
  match action.run world with
  | (.ok a, world) => (.ok a, world)
  | (.error failure, world) => (.error (failure.within context), world)

/-- Make a directory with its missing parents. -/
def makeDirectories (dir : Path) : Action Unit :=
  change ("could not create " ++ dir.text) (·.makeDirectories dir)

/-- Remove a directory with all it holds; it may be missing. -/
def removeDirectory (dir : Path) : Action Unit :=
  change ("could not remove " ++ dir.text) fun tree =>
    match tree.removeDirectory dir with
    | (.error .notFound, tree) => (.ok (), tree)
    | other => other

/-- Copy a file, making the missing parents of its destination. -/
def copyFile (src dst : Path) : Action Unit := do
  if let some parent := dst.parent? then makeDirectories parent
  change ("failed to copy " ++ src.text ++ " to " ++ dst.text) (·.copyContent src dst)

end Action
end PackageBuild
