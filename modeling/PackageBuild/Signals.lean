import PackageBuild.Failure
import PackageBuild.Text.Blank
import PackageBuild.Text.Digit
import PackageBuild.Document.Decode
/-!
# Environment signals

Three environment variables, whose names can be configured, may carry a version tag, a version
override and a core count. They are looked up once; a blank value counts as absent.
-/

namespace PackageBuild

/-- The names of the variables that carry the signals. -/
structure SignalVars where
  /-- Carries the tag of a continuous integration run. -/
  ciTag : String := "CIRCLE_TAG"
  /-- Carries the version override. -/
  versionOverride : String := "CURRENT_VERSION"
  /-- Carries the core count. -/
  cpuCount : String := "CONAN_CPU_COUNT"
deriving DecidableEq, Repr

namespace SignalVars

open Document

def toValue (vars : SignalVars) : Value :=
  .table [("ci_tag", .text vars.ciTag), ("version_override", .text vars.versionOverride),
    ("cpu_count", .text vars.cpuCount)]

/-- How the names are read from a document; those that are absent keep their default. -/
def reader : RecordReader SignalVars SignalVars where
  name := "SignalVars"
  fields := ["ci_tag", "version_override", "cpu_count"]
  strict := true
  start := {}
  visit key value draft :=
    match key with
    | "ci_tag" => do return { draft with ciTag := ← Decode.text value }
    | "version_override" => do return { draft with versionOverride := ← Decode.text value }
    | _ => do return { draft with cpuCount := ← Decode.text value }
  finish := .ok

def decode (format : Format) : Value → Decoded SignalVars := reader.read format

end SignalVars

/-- A number of cores that a native tool can be told. -/
structure CoreCount where
  val : Nat
  pos : 0 < val
  lt : val < 4294967296
deriving DecidableEq, Repr

namespace CoreCount

/-- The digits of an unsigned number after an optional plus sign. -/
def digits : List Char → List Char
  | '+' :: rest => rest
  | cs => cs

/-- The core count that a text without blanks around it stands for. -/
def ofChars? (cs : List Char) : Option CoreCount :=
  let ds := digits cs
  if ds.isEmpty || !ds.all Char.isDigit then none
  else if h : 0 < Text.natOfDigits ds ∧ Text.natOfDigits ds < 4294967296 then
    some ⟨Text.natOfDigits ds, h.1, h.2⟩
  else none

def parse (text : String) : Except RecipeError CoreCount :=
  match ofChars? (Text.trimmed text.toList) with
  | some count => .ok count
  | none => .error (.invalidCoreCount text)

end CoreCount

/-- The values of the signals. -/
structure Signals where
  ciTag : Option String := none
  /-- A version that overrides every other. -/
  versionOverride : Option String := none
  cpuCount : Option String := none
deriving DecidableEq, Repr

namespace Signals

/-- The signals found by looking up their variables. -/
def capture (vars : SignalVars) (lookup : String → Option String) : Signals :=
  let get (name : String) : Option String := (lookup name).filter fun value => !Text.blank value
  ⟨get vars.ciTag, get vars.versionOverride, get vars.cpuCount⟩

/-- The core count, when it is signalled. -/
def coreCount (signals : Signals) : Except RecipeError (Option CoreCount) :=
  match signals.cpuCount with
  | none => .ok none
  | some text => some <$> CoreCount.parse text

end Signals
end PackageBuild
