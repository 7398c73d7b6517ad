import PackageBuild.CopyPolicy
import PackageBuild.Document.Toml
import PackageBuild.FileTree.Access
import PackageBuild.Version
/-!
# Configuration files

A user's configuration file holds defaults and the one beside the recipe overrides them field by
field. A file may be absent, but one that is there has to be readable.
-/

namespace PackageBuild

open Document

structure BuildConfig where
  cmake : Option Path := none
  generator : Option String := none
  /-- Where dependencies are installed. -/
  prefixPath : List Path := []
  buildDir : Option Path := none
  packageDir : Option Path := none
deriving DecidableEq, Repr

/-- The section on the names of the signals' variables. -/
structure SignalsConfig where
  ciTag : Option String := none
  versionOverride : Option String := none
  cpuCount : Option String := none
deriving DecidableEq, Repr

structure VersionConfig where
  /-- Whether the tag or the manifest goes first. -/
  policy : Option VersionPolicy := none
  /-- Whether a tag and an override that disagree are refused. -/
  rejectConflicting : Option Bool := none
deriving DecidableEq, Repr

structure PackageConfig where
  /-- What to do when a source directory is missing. -/
  policy : Option CopyPolicy := none
deriving DecidableEq, Repr

/-- The contents of a configuration file. -/
structure Configuration where
  build : BuildConfig := {}
  signals : SignalsConfig := {}
  version : VersionConfig := {}
  package : PackageConfig := {}
deriving DecidableEq, Repr

namespace BuildConfig

def toValue (c : BuildConfig) : Value :=
  .table [("cmake", Value.optionalText (c.cmake.map Path.text)),
    ("generator", Value.optionalText c.generator),
    ("prefix_path", Value.texts (c.prefixPath.map Path.text)),
    ("build_dir", Value.optionalText (c.buildDir.map Path.text)),
    ("package_dir", Value.optionalText (c.packageDir.map Path.text))]

def decodePath (value : Value) : Decoded Path := Path.mk <$> Decode.pathText value

def reader : RecordReader BuildConfig BuildConfig where
  name := "BuildConfig"
  fields := ["cmake", "generator", "prefix_path", "build_dir", "package_dir"]
  strict := false
  start := {}
  visit key value draft := do
    match key with
    | "cmake" => return { draft with cmake := ← Decode.optional decodePath value }
    | "generator" => return { draft with generator := ← Decode.optional Decode.text value }
    | "prefix_path" => return { draft with prefixPath := ← Decode.list decodePath value }
    | "build_dir" => return { draft with buildDir := ← Decode.optional decodePath value }
    | _ => return { draft with packageDir := ← Decode.optional decodePath value }
  finish := .ok

/-- The section with the fields of another one that are set. -/
def merge (base upper : BuildConfig) : BuildConfig where
  cmake := upper.cmake.or base.cmake
  generator := upper.generator.or base.generator
  prefixPath := if upper.prefixPath.isEmpty then base.prefixPath else upper.prefixPath
  buildDir := upper.buildDir.or base.buildDir
  packageDir := upper.packageDir.or base.packageDir

end BuildConfig

namespace SignalsConfig

def toValue (c : SignalsConfig) : Value :=
  .table [("ci_tag", Value.optionalText c.ciTag),
    ("version_override", Value.optionalText c.versionOverride),
    ("cpu_count", Value.optionalText c.cpuCount)]

def reader : RecordReader SignalsConfig SignalsConfig where
  name := "SignalsConfig"
  fields := ["ci_tag", "version_override", "cpu_count"]
  strict := false
  start := {}
  visit key value draft := do
    match key with
    | "ci_tag" => return { draft with ciTag := ← Decode.optional Decode.text value }
    | "version_override" =>
      return { draft with versionOverride := ← Decode.optional Decode.text value }
    | _ => return { draft with cpuCount := ← Decode.optional Decode.text value }
  finish := .ok

/-- The section with the fields of another one that are set. -/
def merge (base upper : SignalsConfig) : SignalsConfig where
  ciTag := upper.ciTag.or base.ciTag
  versionOverride := upper.versionOverride.or base.versionOverride
  cpuCount := upper.cpuCount.or base.cpuCount

/-- The names of the signals' variables; those that are not set keep their default. -/
def vars (c : SignalsConfig) : SignalVars :=
  let usual : SignalVars := {}
  ⟨c.ciTag.getD usual.ciTag, c.versionOverride.getD usual.versionOverride,
    c.cpuCount.getD usual.cpuCount⟩

end SignalsConfig

namespace VersionConfig

def toValue (c : VersionConfig) : Value :=
  .table [("policy", Value.optionalText (c.policy.map VersionPolicy.display)),
    ("reject_conflicting", match c.rejectConflicting with
      | some value => .bool value
      | none => .null)]

/-- A version policy in a document. -/
def decodePolicy (format : Format) (value : Value) : Decoded VersionPolicy := do
  let name ← Decode.name format (VersionPolicy.all.map VersionPolicy.display) value
  return (VersionPolicy.ofName? name).getD .tagOverFallback

def reader (format : Format) : RecordReader VersionConfig VersionConfig where
  name := "VersionConfig"
  fields := ["policy", "reject_conflicting"]
  strict := false
  start := {}
  visit key value draft := do
    match key with
    | "policy" => return { draft with policy := ← Decode.optional (decodePolicy format) value }
    | _ => return { draft with rejectConflicting := ← Decode.optional Decode.bool value }
  finish := .ok

/-- The section with the fields of another one that are set. -/
def merge (base upper : VersionConfig) : VersionConfig where
  policy := upper.policy.or base.policy
  rejectConflicting := upper.rejectConflicting.or base.rejectConflicting

end VersionConfig

namespace PackageConfig

def toValue (c : PackageConfig) : Value :=
  .table [("policy", Value.optionalText (c.policy.map CopyPolicy.display))]

def decodePolicy (format : Format) (value : Value) : Decoded CopyPolicy := do
  let name ← Decode.name format (CopyPolicy.all.map CopyPolicy.display) value
  return (CopyPolicy.ofName? name).getD .lenient

def reader (format : Format) : RecordReader PackageConfig PackageConfig where
  name := "PackageConfig"
  fields := ["policy"]
  strict := false
  start := {}
  visit _ value draft := do
    return { draft with policy := ← Decode.optional (decodePolicy format) value }
  finish := .ok

/-- The section with the fields of another one that are set. -/
def merge (base upper : PackageConfig) : PackageConfig where
  policy := upper.policy.or base.policy

end PackageConfig

namespace Configuration

def toValue (c : Configuration) : Value :=
  .table [("build", c.build.toValue), ("signals", c.signals.toValue),
    ("version", c.version.toValue), ("package", c.package.toValue)]

def reader (format : Format) : RecordReader Configuration Configuration where
  name := "Config"
  fields := ["build", "signals", "version", "package"]
  strict := false
  start := {}
  visit key value draft := do
    match key with
    | "build" => return { draft with build := ← BuildConfig.reader.read format value }
    | "signals" => return { draft with signals := ← SignalsConfig.reader.read format value }
    | "version" =>
      return { draft with version := ← (VersionConfig.reader format).read format value }
    | _ =>
      return { draft with package := ← (PackageConfig.reader format).read format value }
  finish := .ok

def parse (content : String) : Except Cause Configuration :=
  match readToml? content with
  | none => .error (.toml none)
  | some value =>
    ((reader .toml).read .toml value).mapError fun error => .toml (some error.message)

/-- A configuration with the fields of another one that are set. -/
def merge (base upper : Configuration) : Configuration where
  build := base.build.merge upper.build
  signals := base.signals.merge upper.signals
  version := base.version.merge upper.version
  package := base.package.merge upper.package

/-- The configuration in the file at a path, or the empty one when nothing is there. -/
def load (t : FileTree) (path : Path) : Except Failure Configuration :=
  if t.pathExists path then
    match t.readText path with
    | .error e =>
      .error ((Failure.of (.os e)).within ("failed to read config file: " ++ path.text))
    | .ok content =>
      (parse content).mapError fun cause =>
        (Failure.of cause).within ("failed to parse config file: " ++ path.text)
  else .ok {}

/-- The configuration of a user overridden by that of a project. -/
def loadBoth (t : FileTree) (user : Option Path) (project : Path) :
    Except Failure Configuration := do
  let base ← match user with
    | some path => load t path
    | none => .ok {}
  return (({} : Configuration).merge base).merge (← load t project)

def resolver (c : Configuration) : VersionResolver :=
  ⟨c.version.policy.getD .tagOverFallback, c.version.rejectConflicting.getD false⟩

/-- What packaging does when a source directory is missing. -/
def copyPolicy (c : Configuration) : CopyPolicy := c.package.policy.getD .lenient

/-- The configuration file beside a recipe. -/
def projectPath (root : Path) : Path := (root.joinText ".gantry").joinText "config.toml"

end Configuration
end PackageBuild
