import PackageBuild.Path
/-!
# Failures

Everything that can go wrong is a cause of some kind, wrapped in the contexts it passed through on
its way out. Causes of a known kind carry a code and, where one exists, a piece of advice. The
wording of every message is in this module.
-/

namespace PackageBuild

/-- What the operating system refuses. -/
inductive OsError where
  | notFound
  | permissionDenied
  | busy
  | alreadyExists
  /-- A directory was needed. -/
  | notDirectory
  /-- A directory is in the way. -/
  | isDirectory
  | invalidArgument
  | notEmpty
  /-- Links lead to links without end. -/
  | tooManyLinks
  /-- The file starts with nothing the system can run. -/
  | notExecutable
  /-- Only regular files can be copied. -/
  | notRegular
  /-- The bytes are no text. -/
  | notText
deriving DecidableEq, Repr

namespace OsError

def message : OsError → String
  | .notFound => "No such file or directory (os error 2)"
  | .permissionDenied => "Permission denied (os error 13)"
  | .busy => "Device or resource busy (os error 16)"
  | .alreadyExists => "File exists (os error 17)"
  | .notDirectory => "Not a directory (os error 20)"
  | .isDirectory => "Is a directory (os error 21)"
  | .invalidArgument => "Invalid argument (os error 22)"
  | .notEmpty => "Directory not empty (os error 39)"
  | .tooManyLinks => "Too many levels of symbolic links (os error 40)"
  | .notExecutable => "Exec format error (os error 8)"
  | .notRegular => "the source path is neither a regular file nor a symlink to a regular file"
  | .notText => "stream did not contain valid UTF-8"

end OsError

/-- A fault of the recipe, the settings, the overrides or the signals, found before anything is
built. -/
inductive RecipeError where
  /-- Two requirements name the same library. -/
  | duplicateRequirement (name first second : String)
  | invalidRequirement (spec reason : String)
  | unknownOption (name : String) (available : Option String)
  | invalidOptionValue (name value : String) (allowed : Option String)
  /-- An override is not of the form `name=value`. -/
  | malformedOverride (text : String)
  | invalidSetting (setting value : String) (expected : Option String)
  | invalidUrl (text : String)
  /-- A tag and an override name different versions. -/
  | conflictingVersionSignals (tag override : String)
  /-- The core count is no positive integer. -/
  | invalidCoreCount (text : String)
  /-- The generator's tool cannot be told a number of jobs. -/
  | jobsUnsupported (generator : String)
  | cmakeNotFound
  | manifestNotFound (directory : Path)
deriving DecidableEq, Repr

namespace RecipeError

def message : RecipeError → String
  | .duplicateRequirement name first second =>
    "duplicate requirement `" ++ name ++ "` (" ++ first ++ " and " ++ second ++ ")"
  | .invalidRequirement spec reason => "invalid requirement `" ++ spec ++ "`: " ++ reason
  | .unknownOption name _ => "unknown option `" ++ name ++ "`"
  | .invalidOptionValue name value _ =>
    "invalid value `" ++ value ++ "` for option `" ++ name ++ "`"
  | .malformedOverride text => "malformed option override `" ++ text ++ "`"
  | .invalidSetting setting value _ => "invalid setting `" ++ setting ++ "`: `" ++ value ++ "`"
  | .invalidUrl text => "invalid package url `" ++ text ++ "`"
  | .conflictingVersionSignals tag override =>
    "conflicting version signals: tag `" ++ tag ++ "` and override `" ++ override ++ "`"
  | .invalidCoreCount text => "invalid core count `" ++ text ++ "`"
  | .jobsUnsupported generator => "generator `" ++ generator ++ "` has no job-count flag"
  | .cmakeNotFound => "CMake not found"
  | .manifestNotFound directory =>
    "could not find `Gantry.toml` in `" ++ directory.text ++ "` or any parent directory"

def code : RecipeError → String
  | .duplicateRequirement .. => "gantry::recipe::duplicate_requirement"
  | .invalidRequirement .. => "gantry::recipe::invalid_requirement"
  | .unknownOption .. => "gantry::recipe::unknown_option"
  | .invalidOptionValue .. => "gantry::recipe::invalid_option_value"
  | .malformedOverride .. => "gantry::recipe::malformed_override"
  | .invalidSetting .. => "gantry::recipe::invalid_setting"
  | .invalidUrl .. => "gantry::recipe::invalid_url"
  | .conflictingVersionSignals .. => "gantry::version::conflicting_signals"
  | .invalidCoreCount .. => "gantry::build::invalid_core_count"
  | .jobsUnsupported .. => "gantry::build::jobs_unsupported"
  | .cmakeNotFound => "gantry::build::cmake_not_found"
  | .manifestNotFound .. => "gantry::recipe::manifest_not_found"

/-- The advice that goes with a recipe error. -/
def help : RecipeError → Option String
  | .duplicateRequirement name _ _ =>
    some ("Keep a single entry for `" ++ name ++ "` in `requires`")
  | .invalidRequirement .. =>
    some "Requirements are written as `name/version` or `name/version@user/channel`"
  | .unknownOption _ available => available
  | .invalidOptionValue _ _ allowed => allowed
  | .malformedOverride _ => some "Option overrides are written as `name=value`"
  | .invalidSetting _ _ expected => expected
  | .invalidUrl _ => none
  | .conflictingVersionSignals .. =>
    some "Unset one of the version signals, or set `version.reject_conflicting = false`"
  | .invalidCoreCount _ => some "The core-count signal must be a positive integer"
  | .jobsUnsupported _ =>
    some "Unset the core-count signal, or use a generator such as Ninja or `NMake Makefiles JOM`"
  | .cmakeNotFound =>
    some ("Install CMake and ensure it's in your PATH, or set `build.cmake` in " ++
      ".gantry/config.toml")
  | .manifestNotFound _ =>
    some "Run gantry inside a package directory, or pass --manifest-path"

end RecipeError

/-- The two steps of a native build. -/
inductive BuildPhase where
  /-- The build tree is generated. -/
  | configure
  /-- The libraries are compiled. -/
  | compile
deriving DecidableEq, Repr

/-- A command of the native build that did not succeed. -/
structure BuildError where
  phase : BuildPhase
  command : String
  /-- The exit code; none when a signal ended the command. -/
  code : Option Int
deriving DecidableEq, Repr

namespace BuildError

def message (e : BuildError) : String :=
  let step := match e.phase with
    | .configure => "configure"
    | .compile => "build"
  let code := match e.code with
    | some code => toString code
    | none => "none (terminated by signal)"
  "cmake " ++ step ++ " failed with exit code: " ++ code

/-- The code of a build error in reports. -/
def reportCode (e : BuildError) : String :=
  match e.phase with
  | .configure => "gantry::build::configure_failed"
  | .compile => "gantry::build::build_failed"

end BuildError

/-- A source directory that strict packaging needs is missing. -/
structure MissingSource where
  /-- What the directory would have held. -/
  category : String
  directory : Path
deriving DecidableEq, Repr

namespace MissingSource

def message (e : MissingSource) : String :=
  "missing " ++ e.category ++ " directory: " ++ e.directory.text

end MissingSource

/-- What is wrong with a file name pattern, and at which character. -/
structure PatternError where
  /-- How many characters come before the fault. -/
  position : Nat
  reason : String
deriving DecidableEq, Repr

namespace PatternError

def message (e : PatternError) : String :=
  "Pattern syntax error near position " ++ toString e.position ++ ": " ++ e.reason

end PatternError

/-- The innermost reason of a failure. -/
inductive Cause where
  /-- A fault of the recipe or of what it is combined with. -/
  | recipe (error : RecipeError)
  | build (error : BuildError)
  | package (error : MissingSource)
  /-- The operating system refused something. -/
  | os (error : OsError)
  /-- A directory could not be walked. -/
  | walk (directory : Path) (error : OsError)
  | pattern (error : PatternError)
  /-- A file is no TOML document of the wanted shape; no reason is given for bad syntax. -/
  | toml (reason : Option String)
  /-- Anything else, in its own words. -/
  | plain (message : String)
deriving DecidableEq, Repr

namespace Cause

/-- The text of a cause, without what lies below it. -/
def text : Cause → String
  | .recipe error => error.message
  | .build error => error.message
  | .package error => error.message
  | .os error => error.message
  | .walk directory error =>
    "IO error for operation on " ++ directory.text ++ ": " ++ error.message
  | .pattern error => error.message
  | .toml none => "TOML parse error"
  | .toml (some reason) => "TOML parse error: " ++ reason
  | .plain message => message

/-- A cause and what lies below it, the outermost first. -/
def chain : Cause → List Cause
  | .walk directory error => [.walk directory error, .os error]
  | cause => [cause]

/-- Whether a cause is of one of the three kinds that reports know. -/
def isTyped : Cause → Bool
  | .recipe _ | .build _ | .package _ => true
  | _ => false

/-- The code of a cause of a known kind. -/
def code : Cause → Option String
  | .recipe error => some error.code
  | .build error => some error.reportCode
  | .package _ => some "gantry::package::missing_source"
  | _ => none

/-- The advice that goes with a cause. -/
def help : Cause → Option String
  | .recipe error => error.help
  | .build _ => some "Run `gantry build --verbose` to see the full cmake command"
  | .package _ => some "Build the package first, or package with the lenient policy"
  | _ => none

/-- The command line that failed, for a failed build. -/
def command : Cause → Option String
  | .build error => some error.command
  | _ => none

end Cause

/-- A cause with the contexts around it, the outermost first. -/
structure Failure where
  /-- The contexts, the outermost first. -/
  contexts : List String
  cause : Cause
deriving DecidableEq, Repr

namespace Failure

def of (cause : Cause) : Failure := ⟨[], cause⟩

/-- A failure seen from one context further out. -/
def within (context : String) (failure : Failure) : Failure :=
  { failure with contexts := context :: failure.contexts }

/-- The contexts of a failure, each in its own words, and what they are around. -/
def chain (failure : Failure) : List Cause :=
  failure.contexts.map .plain ++ failure.cause.chain

/-- The texts of a failure from the outermost context to the innermost reason. -/
def texts (failure : Failure) : List String := failure.chain.map Cause.text

instance : Coe RecipeError Failure := ⟨fun error => of (.recipe error)⟩

@[simp]
theorem chain_within (context : String) (failure : Failure) :
    (failure.within context).chain = .plain context :: failure.chain := rfl

@[simp]
theorem texts_within (context : String) (failure : Failure) :
    (failure.within context).texts = context :: failure.texts := rfl

@[simp]
theorem cause_within (context : String) (failure : Failure) :
    (failure.within context).cause = failure.cause := rfl

end Failure
end PackageBuild
