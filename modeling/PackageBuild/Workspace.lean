import PackageBuild.Configuration
import PackageBuild.Recipe
/-!
# Workspaces

A workspace is where a user stands: a working directory, from which the nearest manifest is found,
and a directory with the user's own configuration.
-/

namespace PackageBuild

structure Workspace where
  cwd : Path
  /-- The directory of the user's configuration. -/
  home : Path
deriving DecidableEq, Repr

namespace Workspace

/-- The manifest in a directory, when there is one. -/
def manifestIn (t : FileTree) (dir : Path) : Option Path :=
  let path := dir.joinText Manifest.fileName
  if t.isFile path then some path else none

/-- The manifest in a directory or in the nearest of its parents, of which at most so many are
tried. -/
def nearest (t : FileTree) : Nat → Path → Option Path
  | 0, _ => none
  | fuel + 1, dir =>
    match manifestIn t dir with
    | some path => some path
    | none =>
      match dir.parent? with
      | some parent => nearest t fuel parent
      | none => none

/-- The manifest nearest to the working directory. -/
def findManifest (w : Workspace) (t : FileTree) : Except RecipeError Path :=
  match nearest t (w.cwd.components.length + 1) w.cwd with
  | some path => .ok path
  | none => .error (.manifestNotFound w.cwd)

/-- The canonical path of the manifest to use: the given one, or the nearest. -/
def manifestPath (w : Workspace) (t : FileTree) (explicit : Option Path) :
    Except Failure Path := do
  let path ← match explicit with
    | some path => .ok (w.cwd.join path)
    | none => (w.findManifest t).mapError fun error => Failure.of (.recipe error)
  if t.isFile path then return t.canonicalOrGiven path
  else throw (.of (.plain ("manifest not found: " ++ path.text)))

def configPath (w : Workspace) : Path := w.home.joinText "config.toml"

/-- The configuration for a recipe in a directory. -/
def configuration (w : Workspace) (t : FileTree) (root : Path) : Except Failure Configuration :=
  Configuration.loadBoth t (some w.configPath) (Configuration.projectPath root)

end Workspace

namespace Recipe

/-- The recipe in the manifest at a path. -/
def load (isUrl : String → Bool) (t : FileTree) (path : Path) : Except Failure Recipe :=
  match t.readText path with
  | .error e => .error ((Failure.of (.os e)).within ("failed to read manifest: " ++ path.text))
  | .ok content => parse isUrl content path

end Recipe
end PackageBuild
