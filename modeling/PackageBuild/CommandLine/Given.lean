import PackageBuild.BuildOption
import PackageBuild.CommandLine.Shell
import PackageBuild.CommandLine.UsageError
import PackageBuild.Settings
/-!
# Given arguments

What was given for each argument. A value is read as soon as its argument is taken; an argument can
be given once, except for overrides, which add up.
-/

namespace PackageBuild
namespace CommandLine

/-- What was given for the arguments. -/
structure Given where
  verbose : Bool := false
  manifestPath : Option Path := none
  os : Option Os := none
  compiler : Option String := none
  buildType : Option BuildType := none
  arch : Option String := none
  /-- Overrides of options, in order. -/
  overrides : List OptionOverride := []
  json : Bool := false
  buildDir : Option Path := none
  packageDir : Option Path := none
  noPackage : Bool := false
  strict : Bool := false
  shell : Option Shell := none
deriving DecidableEq, Repr

namespace Given

/-- A value for an argument that is given at most once. -/
def once {α : Type} (a : Argument) (known : Option α) (read : Except UsageError α) :
    Except UsageError (Option α) :=
  match known with
  | some _ => .error (.repeated a)
  | none => read.map some

/-- A flag that is given at most once. -/
def flagOnce (a : Argument) (known : Bool) : Except UsageError Bool :=
  if known then .error (.repeated a) else .ok true

/-- A path as a value; it must not be empty. -/
def readPath (a : Argument) (value : String) : Except UsageError Path :=
  if value = "" then .error (.missingValue a) else .ok ⟨value⟩

/-- A value that another module reads. -/
def readAs {α : Type} (a : Argument) (parse : String → Except RecipeError α) (value : String) :
    Except UsageError α :=
  (parse value).mapError fun error => .invalidValue a value (some error.message)

def readShell (value : String) : Except UsageError Shell :=
  match Shell.ofWord? value with
  | some shell => .ok shell
  | none => .error (if value = "" then .missingValue .shell else .invalidValue .shell value none)

def addFlag (a : Argument) (g : Given) : Except UsageError Given :=
  match a with
  | .verbose => return { g with verbose := ← flagOnce a g.verbose }
  | .json => return { g with json := ← flagOnce a g.json }
  | .noPackage => return { g with noPackage := ← flagOnce a g.noPackage }
  | .strict => return { g with strict := ← flagOnce a g.strict }
  | _ => .ok g

/-- What is given after an argument with its value. -/
def addValue (a : Argument) (value : String) (g : Given) : Except UsageError Given :=
  match a with
  | .manifestPath => return { g with manifestPath := ← once a g.manifestPath (readPath a value) }
  | .os => return { g with os := ← once a g.os (readAs a Os.parse value) }
  | .compiler => return { g with compiler := ← once a g.compiler (.ok value) }
  | .buildType =>
    return { g with buildType := ← once a g.buildType (readAs a BuildType.parse value) }
  | .arch => return { g with arch := ← once a g.arch (.ok value) }
  | .option =>
    return { g with overrides := g.overrides ++ [← readAs a OptionOverride.parse value] }
  | .buildDir => return { g with buildDir := ← once a g.buildDir (readPath a value) }
  | .packageDir => return { g with packageDir := ← once a g.packageDir (readPath a value) }
  | .shell => return { g with shell := ← once a g.shell (readShell value) }
  | _ => .ok g

/-- Whether none of the arguments before a subcommand is given. -/
def isNothing (g : Given) : Bool := !g.verbose && g.manifestPath.isNone

/-- What is given for a subcommand together with what is given before it. -/
def after (g outer : Given) : Given :=
  { g with
    verbose := outer.verbose || g.verbose
    manifestPath := g.manifestPath.or outer.manifestPath }

end Given
end CommandLine
end PackageBuild
