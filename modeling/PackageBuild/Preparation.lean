import PackageBuild.CopyPolicy
import PackageBuild.Invocation
/-!
# Prepared builds

Preparing a build evaluates the recipe and fixes all directories and arguments. Every fault of the
recipe, the settings, the overrides and the signals shows here, before any command runs.
-/

namespace PackageBuild

/-- What a caller asks of a build. -/
structure BuildOptions where
  settings : Settings
  overrides : List OptionOverride := []
  /-- The CMake to run; none looks for it. -/
  cmake : Option Path := none
  generator : Option String := none
  prefixPath : List Path := []
  /-- The build directory; none names it for the build type. -/
  buildDir : Option Path := none
  /-- The package directory; none takes the usual one. -/
  packageDir : Option Path := none
  /-- Whether the outputs are packaged. -/
  package : Bool := true
  copyPolicy : CopyPolicy := .lenient
deriving Repr

/-- A build that is ready to run. -/
structure PreparedBuild where
  /-- The evaluated recipe. -/
  evaluation : Evaluation
  invocation : Invocation
  /-- Where the package goes. -/
  packageDir : Path

namespace Recipe

/-- A path as seen from the directory of the manifest. -/
def resolveDir (recipe : Recipe) (path : Path) : Path :=
  if path.isAbsolute then path else recipe.root.join path

def packageDirFor (recipe : Recipe) (explicit : Option Path) : Path :=
  match explicit with
  | some dir => recipe.resolveDir dir
  | none => recipe.root.joinText "package"

def buildDirs (recipe : Recipe) (opts : BuildOptions) : BuildDirs :=
  let usual := BuildDirs.forSource recipe.root opts.settings.buildType
  { sourceDir := usual.sourceDir
    buildDir := (opts.buildDir.map recipe.resolveDir).getD usual.buildDir
    generator := opts.generator
    prefixPath := opts.prefixPath }

/-- The build of a recipe that options, signals and a resolver ask for. -/
def prepare (recipe : Recipe) (opts : BuildOptions) (signals : Signals)
    (resolver : VersionResolver) : Except RecipeError PreparedBuild := do
  let evaluation ← recipe.evaluate opts.settings signals resolver opts.overrides
  let invocation ← Invocation.ofSignals evaluation.descriptor evaluation.values
    (recipe.buildDirs opts) signals
  return ⟨evaluation, invocation, recipe.packageDirFor opts.packageDir⟩

end Recipe
end PackageBuild
