import PackageBuild.Recipe
import PackageBuild.Version
/-!
# Evaluated recipes

Evaluating a recipe for some settings settles everything that does not need a build: the version,
the options that exist on the target system, and their values.
-/

namespace PackageBuild

/-- The identity of a package that is being built. -/
structure PackageDescriptor where
  name : String
  version : ResolvedVersion
  license : Option String
  author : Option String
  url : Option String
  description : Option String
  topics : Std.ExtTreeSet String
  settings : Settings

namespace PackageDescriptor

open Document

/-- The identity that metadata, a version and settings make. -/
def ofMetadata (m : PackageMetadata) (version : ResolvedVersion) (settings : Settings) :
    PackageDescriptor :=
  ⟨m.name, version, m.license, m.author, m.url, m.description, m.topics, settings⟩

def toValue (d : PackageDescriptor) : Value :=
  .table [("name", .text d.name), ("version", d.version.toValue),
    ("license", Value.optionalText d.license), ("author", Value.optionalText d.author),
    ("url", Value.optionalText d.url), ("description", Value.optionalText d.description),
    ("topics", Value.texts d.topics.toList), ("settings", d.settings.toValue)]

end PackageDescriptor

/-- A recipe evaluated for some settings. -/
structure Evaluation where
  descriptor : PackageDescriptor
  /-- The options that exist on the target system. -/
  options : OptionSchema
  values : OptionValues
  requires : List Requirement

namespace Evaluation

open Document

def toValue (e : Evaluation) : Value :=
  .table [("descriptor", e.descriptor.toValue), ("options", e.options.toValue),
    ("values", e.values.toValue), ("requires", Value.texts (e.requires.map Requirement.display))]

end Evaluation

namespace Recipe

/-- The recipe evaluated for settings, signals and overrides. -/
def evaluate (recipe : Recipe) (settings : Settings) (signals : Signals)
    (resolver : VersionResolver) (overrides : List OptionOverride) :
    Except RecipeError Evaluation := do
  let version ← resolver.resolve signals recipe.package.version
  let options := recipe.options.normalize settings.os
  let values ← options.resolve overrides
  return ⟨.ofMetadata recipe.package version settings, options, values, recipe.requires.toList⟩

/-- What is worth telling while a recipe is evaluated. -/
def evaluationWarnings (recipe : Recipe) (signals : Signals) (resolver : VersionResolver) :
    List Warning :=
  resolver.warnings signals recipe.package.version

end Recipe
end PackageBuild
