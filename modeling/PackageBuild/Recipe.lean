import PackageBuild.BuildOption
import PackageBuild.Document.Toml
import PackageBuild.Manifest.Consumer
import PackageBuild.Manifest.Layout
import PackageBuild.Manifest.Metadata
/-!
# Recipes

A manifest is what a `Gantry.toml` says. A recipe is a manifest that makes sense: its name, version
and address are acceptable, the defaults of its options are among their values, and no library is
required twice. Which texts are addresses is for a URL library to say, so the test for them is
passed in.
-/

namespace PackageBuild

/-- The contents of a manifest file. -/
structure Manifest where
  package : PackageMetadata
  /-- The declared options, if there is such a section. -/
  options : Option (Std.ExtTreeMap String OptionDecl) := none
  /-- Where outputs are found. -/
  layout : LayoutConfig := {}
  /-- What consumers are told. -/
  consumer : ConsumerConfig := {}

namespace Manifest

open Document

def fileName : String := "Gantry.toml"

structure Draft where
  package : Option PackageMetadata := none
  options : Option (Std.ExtTreeMap String OptionDecl) := none
  layout : LayoutConfig := {}
  consumer : ConsumerConfig := {}

def reader (format : Format) : RecordReader Draft Manifest where
  name := "RawManifest"
  fields := ["package", "options", "layout", "consumer"]
  strict := true
  start := {}
  visit key value draft := do
    match key with
    | "package" => return { draft with package := ← PackageMetadata.decode format value }
    | "options" =>
      let entries ← Decode.entries (OptionDecl.decode format) value
      return { draft with options := some (Std.ExtTreeMap.ofList entries) }
    | "layout" => return { draft with layout := ← LayoutConfig.decode format value }
    | _ => return { draft with consumer := ← ConsumerConfig.decode format value }
  finish draft :=
    match draft.package with
    | some package => .ok ⟨package, draft.options, draft.layout, draft.consumer⟩
    | none => .error "package"

def decode (format : Format) : Value → Decoded Manifest := (reader format).read format

def parse (content : String) : Except Cause Manifest :=
  match readToml? content with
  | none => .error (.toml none)
  | some value => (decode .toml value).mapError fun error => .toml (some error.message)

/-- The first fault of the metadata, if there is one. -/
def metadataFault? (isUrl : String → Bool) (package : PackageMetadata) : Option RecipeError :=
  if !PackageMetadata.isName package.name then
    some (.invalidSetting "package.name" package.name (some "letters, digits, `_`, `-` or `.`"))
  else if Text.blank package.version then
    some (.invalidSetting "package.version" package.version (some "a non-empty fallback version"))
  else match package.url with
    | some url => if isUrl url then none else some (.invalidUrl url)
    | none => none

end Manifest

/-- A manifest that makes sense, and where it lies. -/
structure Recipe where
  package : PackageMetadata
  /-- The options as declared, before they are fitted to a system. -/
  options : OptionSchema
  requires : Requirements
  layout : LayoutConfig
  consumer : ConsumerConfig
  /-- The directory of the manifest. -/
  root : Path

namespace Recipe

/-- The recipe that a manifest in a directory makes, or its first fault. -/
def ofManifest (isUrl : String → Bool) (manifest : Manifest) (root : Path) :
    Except RecipeError Recipe := do
  if let some fault := Manifest.metadataFault? isUrl manifest.package then throw fault
  let options ← match manifest.options with
    | some decls => OptionSchema.ofDecls decls
    | none => .ok .standard
  let requires ← Requirements.ofList manifest.package.requires
  return ⟨manifest.package, options, requires, manifest.layout, manifest.consumer, root⟩

/-- The directory a manifest path lies in. -/
def rootOf (path : Path) : Path := path.parent?.getD ⟨"."⟩

def parse (isUrl : String → Bool) (content : String) (path : Path) : Except Failure Recipe :=
  match Manifest.parse content with
  | .error cause => .error ((Failure.of cause).within ("failed to parse " ++ path.text))
  | .ok manifest =>
    (ofManifest isUrl manifest (rootOf path)).mapError fun error => .of (.recipe error)

def name (recipe : Recipe) : String := recipe.package.name

end Recipe
end PackageBuild
