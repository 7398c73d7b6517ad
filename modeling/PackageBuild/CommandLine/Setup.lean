import PackageBuild.CommandLine.Given
import PackageBuild.Preparation
import PackageBuild.Toolchain
import PackageBuild.Workspace
/-!
# Setups

Every subcommand that is about a package first loads the recipe and the configuration and reads the
signals from the environment. Flags of the command line win over the configuration, and settings
that are not given are those of the host.
-/

namespace PackageBuild
namespace CommandLine

/-- What surrounds a run of the program. -/
structure Surroundings where
  cwd : Path
  environment : String → Option String
  host : Settings := .host
  /-- Which texts are addresses, as the URL library says. -/
  isUrl : String → Bool
  runner : Runner

namespace Surroundings

/-- The working directory and the directory of the user's configuration, which lies in the home
directory. -/
def workspace (s : Surroundings) : Workspace where
  cwd := s.cwd
  home :=
    match s.environment "HOME" with
    | some home => if home = "" then ⟨".gantry"⟩ else Path.joinText ⟨home⟩ ".gantry"
    | none => ⟨".gantry"⟩

/-- The directories in which programs are looked for. -/
def searchPath (s : Surroundings) : List Path :=
  match s.environment "PATH" with
  | some directories => (Text.pieces ':' directories).map Path.mk
  | none => []

end Surroundings

/-- The settings that are given, and those of the host for the rest. The usual compiler goes with
the operating system that is given. -/
def Given.settings (g : Given) (host : Settings) : Settings where
  os := g.os.getD host.os
  compiler := g.compiler.getD ((g.os.map Os.defaultCompiler).getD host.compiler)
  buildType := g.buildType.getD host.buildType
  arch := g.arch.getD host.arch

/-- A recipe with the configuration and the signals it is used with. -/
structure Setup where
  recipe : Recipe
  config : Configuration
  signals : Signals

namespace Setup

def load (s : Surroundings) (manifestPath : Option Path) (t : FileTree) : Except Failure Setup := do
  let path ← s.workspace.manifestPath t manifestPath
  let recipe ← Recipe.load s.isUrl t path
  let config ← s.workspace.configuration t recipe.root
  return ⟨recipe, config, Signals.capture config.signals.vars s.environment⟩

/-- What a build is asked for by flags, and by the configuration where there is no flag. -/
def buildOptions (setup : Setup) (host : Settings) (g : Given) : BuildOptions :=
  let build := setup.config.build
  { settings := g.settings host
    overrides := g.overrides
    cmake := build.cmake
    generator := build.generator
    prefixPath := build.prefixPath
    buildDir := g.buildDir.or build.buildDir
    packageDir := g.packageDir.or build.packageDir
    package := !g.noPackage
    copyPolicy := if g.strict then .strict else setup.config.copyPolicy }

end Setup
end CommandLine
end PackageBuild
