import PackageBuild.Path
import PackageBuild.Document.Decode
/-!
# What consumers are told

The section of a manifest that says how other packages link against this one: either with a fixed
list of libraries or with whatever libraries are found in the package.
-/

namespace PackageBuild

/-- How consumers learn which libraries to link. -/
inductive LibsPolicy where
  /-- The libraries are listed. -/
  | fixed (names : List String)
  /-- The libraries are those found in the package. -/
  | discover
deriving DecidableEq, Repr

namespace LibsPolicy

open Document

def toValue : LibsPolicy → Value
  | .fixed names => Value.texts names
  | .discover => .text "discover"

def textOf? : Value → Option String
  | .text value => some value
  | _ => none

/-- The policy a document value stands for: a list of names, or one keyword. -/
def decode (value : Value) : Decoded LibsPolicy :=
  match value with
  | .text "discover" => .ok .discover
  | .text keyword =>
    .error (.refused ("invalid libs policy '" ++ keyword ++
      "'; expected a list of names or \"discover\""))
  | .list items =>
    match items.mapM textOf? with
    | some names => .ok (.fixed names)
    | none => .error (.noVariant "RawLibs")
  | _ => .error (.noVariant "RawLibs")

end LibsPolicy

structure ConsumerConfig where
  libs : LibsPolicy := .discover
  /-- The library directories, relative to the package directory. -/
  libDirs : List Path := [⟨"lib"⟩]
  /-- The include directories, relative to the package directory. -/
  includeDirs : List Path := [⟨"include"⟩]
deriving DecidableEq, Repr

namespace ConsumerConfig

open Document

def toValue (c : ConsumerConfig) : Value :=
  .table [("libs", c.libs.toValue), ("libdirs", Value.texts (c.libDirs.map Path.text)),
    ("includedirs", Value.texts (c.includeDirs.map Path.text))]

def decodePaths : Value → Decoded (List Path) :=
  Decode.list fun value => Path.mk <$> Decode.pathText value

/-- How a consumer configuration is read from a document; absent fields keep their default. -/
def reader : RecordReader ConsumerConfig ConsumerConfig where
  name := "ConsumerConfig"
  fields := ["libs", "libdirs", "includedirs"]
  strict := true
  start := {}
  visit key value draft := do
    match key with
    | "libs" => return { draft with libs := ← LibsPolicy.decode value }
    | "libdirs" => return { draft with libDirs := ← decodePaths value }
    | _ => return { draft with includeDirs := ← decodePaths value }
  finish := .ok

def decode (format : Format) : Value → Decoded ConsumerConfig := reader.read format

end ConsumerConfig
end PackageBuild
