import PackageBuild.Evaluation
/-!
# Invocations of CMake

An invocation is everything needed to configure and build once. It turns the options of a package
into cache variables and the core count into the job flag of the native tool, and writes out the
arguments of both steps.
-/

namespace PackageBuild

/-- The directories of a build and how CMake is to generate it. -/
structure BuildDirs where
  sourceDir : Path
  buildDir : Path
  /-- The generator; none leaves the choice to CMake. -/
  generator : Option String := none
  prefixPath : List Path := []
deriving DecidableEq, Repr

namespace BuildDirs

/-- A build tree named for the build type, below the source tree. -/
def forSource (sourceDir : Path) (buildType : BuildType) : BuildDirs where
  sourceDir := sourceDir
  buildDir := (sourceDir.joinText "build").joinText buildType.display

def toValue (d : BuildDirs) : Document.Value :=
  .table [("source_dir", .text d.sourceDir.text), ("build_dir", .text d.buildDir.text),
    ("generator", Document.Value.optionalText d.generator),
    ("prefix_path", Document.Value.texts (d.prefixPath.map Path.text))]

end BuildDirs

/-- The tool that a generator drives, by the flag it takes for the number of jobs. -/
inductive NativeTool where
  /-- Make, Ninja and their like. -/
  | make
  /-- The build engine of Visual Studio. -/
  | msBuild
  | xcode
  /-- A make without such a flag. -/
  | nmake
deriving DecidableEq, Repr

namespace NativeTool

def ofGenerator : Option String → NativeTool
  | none => .make
  | some generator =>
    if "Visual Studio".toList.isPrefixOf generator.toList then .msBuild
    else if generator = "Xcode" then .xcode
    else if "NMake Makefiles".toList.isPrefixOf generator.toList &&
        !"JOM".toList.isSuffixOf generator.toList then .nmake
    else .make

/-- The arguments that ask a tool for a number of jobs. -/
def jobArgs (jobs : CoreCount) : NativeTool → List String
  | .make => ["-j", toString jobs.val]
  | .msBuild => ["/m:" ++ toString jobs.val]
  | .xcode => ["-jobs", toString jobs.val]
  | .nmake => []

end NativeTool

/-- Everything needed to configure and build once. -/
structure Invocation where
  descriptor : PackageDescriptor
  options : OptionValues
  dirs : BuildDirs
  /-- The number of jobs the native tool is told. -/
  jobs : Option CoreCount

namespace Invocation

/-- The cache variable that keeps a package's own tests out of the build. -/
def testsVariable : String := "PACKAGE_TESTS"

def tool (i : Invocation) : NativeTool := .ofGenerator i.dirs.generator

/-- The invocation with the core count of the signals, unless the native tool cannot take it. -/
def ofSignals (descriptor : PackageDescriptor) (options : OptionValues) (dirs : BuildDirs)
    (signals : Signals) : Except RecipeError Invocation := do
  let jobs ← signals.coreCount
  if jobs.isSome && NativeTool.ofGenerator dirs.generator = .nmake then
    throw (.jobsUnsupported (dirs.generator.getD ""))
  return ⟨descriptor, options, dirs, jobs⟩

/-- Whether the number of jobs is left to CMake. -/
def isParallel (i : Invocation) : Bool := i.jobs.isNone

def buildTypeName (i : Invocation) : String := i.descriptor.settings.buildType.display

/-- How CMake is told a value. -/
def cacheValue : OptionValue → String
  | .bool true => "ON"
  | .bool false => "OFF"
  | .text value => value

/-- The cache variable of an option, except for the one that is always set. -/
def cacheKey? (option : String) : Option String :=
  if option = OptionValues.sharedName then some "BUILD_SHARED_LIBS"
  else if option = OptionSchema.fpicName then some "CMAKE_POSITION_INDEPENDENT_CODE"
  else if option = testsVariable then none
  else some option

/-- The cache variables that carry the options, by name of the option. -/
def optionVariables (i : Invocation) : List (String × String) :=
  i.options.toList.filterMap fun (option, value) =>
    (cacheKey? option).map fun key => (key, cacheValue value)

/-- The cache variable that says where dependencies are installed, if that is anywhere. -/
def prefixVariables (i : Invocation) : List (String × String) :=
  if i.dirs.prefixPath.isEmpty then []
  else [("CMAKE_PREFIX_PATH", Text.join ";" (i.dirs.prefixPath.map Path.text))]

/-- The cache variables that every invocation has. -/
def fixedVariables (i : Invocation) : List (String × String) :=
  [(testsVariable, "Off"), ("CMAKE_BUILD_TYPE", i.buildTypeName)]

/-- The cache variables in the order in which they are passed. -/
def cacheVariables (i : Invocation) : List (String × String) :=
  i.fixedVariables ++ i.optionVariables ++ i.prefixVariables

/-- What is worth telling whenever the cache variables are written out. -/
def warnings (i : Invocation) : List Warning :=
  (i.options.toList.filter fun (option, _) => (cacheKey? option).isNone).map fun (option, _) =>
    .optionIgnored option

/-- The argument that defines a cache variable. -/
def definition (setting : String × String) : String :=
  "-D" ++ setting.1 ++ "=" ++ setting.2

/-- The arguments that choose a generator. -/
def generatorArgs (i : Invocation) : List String :=
  match i.dirs.generator with
  | some generator => ["-G", generator]
  | none => []

/-- The arguments of the first step. -/
def configureArgs (i : Invocation) : List String :=
  ["-S", i.dirs.sourceDir.text, "-B", i.dirs.buildDir.text] ++ i.generatorArgs ++
    i.cacheVariables.map definition

/-- The arguments of the second step. -/
def buildArgs (i : Invocation) : List String :=
  ["--build", i.dirs.buildDir.text, "--config", i.buildTypeName] ++
    match i.jobs with
    | some jobs => "--" :: i.tool.jobArgs jobs
    | none => ["--parallel"]

def toValue (i : Invocation) : Document.Value :=
  .table [("descriptor", i.descriptor.toValue), ("options", i.options.toValue),
    ("dirs", i.dirs.toValue), ("parallel", .bool i.isParallel),
    ("jobs", match i.jobs with
      | some jobs => .int jobs.val
      | none => .null)]

end Invocation
end PackageBuild
