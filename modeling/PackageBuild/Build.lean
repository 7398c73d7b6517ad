import PackageBuild.Packager
import PackageBuild.Preparation
import PackageBuild.Toolchain
/-!
# Builds

A build evaluates a recipe, configures and compiles it, and packages the outputs. The first failure
ends it, and nothing is packaged after a failed command.
-/

namespace PackageBuild

/-- What a successful build leaves. -/
structure BuildResult where
  /-- The build as it was prepared. -/
  prepared : PreparedBuild
  /-- The package, unless packaging was left out. -/
  layout : Option ArtifactLayout

namespace PreparedBuild

/-- Run CMake for a prepared build. -/
def runNative (prepared : PreparedBuild) (searchPath : List Path) (cmake : Option Path)
    (runner : Runner) : Action Unit := do
  let source := prepared.invocation.dirs.sourceDir
  if !(← Action.look (Toolchain.isProject · source)) then
    Action.fail (.plain ("no CMakeLists.txt found in " ++ source.text))
  match ← Action.look (Toolchain.findCMake · searchPath cmake) with
  | none => Action.fail (.recipe .cmakeNotFound)
  | some program => Toolchain.build runner program prepared.invocation

/-- The packager for the outputs of a prepared build. -/
def packager (prepared : PreparedBuild) (recipe : Recipe) (policy : CopyPolicy) :
    Except Failure Packager :=
  Packager.ofRecipe recipe prepared.invocation.dirs.buildDir prepared.evaluation.values.shared
    policy

/-- Package the outputs of a prepared build. -/
def packageOutputs (prepared : PreparedBuild) (recipe : Recipe) (policy : CopyPolicy) :
    Action ArtifactLayout := do
  let packager ← Action.ofExcept (prepared.packager recipe policy)
  Action.within ("failed to package " ++ recipe.name) (packager.package prepared.packageDir)

end PreparedBuild

namespace Recipe

/-- Prepare a build, warning on the way. -/
def prepareAloud (recipe : Recipe) (opts : BuildOptions) (signals : Signals)
    (resolver : VersionResolver) : Action PreparedBuild := do
  (recipe.evaluationWarnings signals resolver).forM Action.warn
  Action.ofExcept ((recipe.prepare opts signals resolver).mapError fun error =>
    Failure.of (.recipe error))

def build (recipe : Recipe) (opts : BuildOptions) (signals : Signals)
    (resolver : VersionResolver) (searchPath : List Path) (runner : Runner) :
    Action BuildResult := do
  let prepared ← recipe.prepareAloud opts signals resolver
  prepared.runNative searchPath opts.cmake runner
  if opts.package then
    return ⟨prepared, some (← prepared.packageOutputs recipe opts.copyPolicy)⟩
  else return ⟨prepared, none⟩

end Recipe
end PackageBuild
