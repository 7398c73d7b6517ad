import PackageBuild.Signals
import PackageBuild.Warning
/-!
# Package versions

The version of a package comes from an override, from a tag without its leading `v`, or from the
manifest. A policy decides between the tag and the manifest, and a resolver may refuse a tag and an
override that disagree.
-/

namespace PackageBuild

/-- How the version of the manifest and the version of a tag relate. -/
inductive VersionPolicy where
  /-- The tag goes before the manifest. -/
  | tagOverFallback
  /-- The manifest goes before the tag. -/
  | fallbackOverTag
deriving DecidableEq, Repr

namespace VersionPolicy

def display : VersionPolicy → String
  | .tagOverFallback => "tag-over-fallback"
  | .fallbackOverTag => "fallback-over-tag"

def all : List VersionPolicy := [.tagOverFallback, .fallbackOverTag]

/-- The policy with exactly this name. -/
def ofName? (name : String) : Option VersionPolicy := all.find? fun policy => policy.display = name

def parse (name : String) : Except String VersionPolicy :=
  match ofName? name with
  | some policy => .ok policy
  | none =>
    .error ("invalid version policy '" ++ name ++
      "'; expected 'tag-over-fallback' or 'fallback-over-tag'")

end VersionPolicy

inductive VersionSource where
  | override
  | tag
  | fallback
deriving DecidableEq, Repr

namespace VersionSource

def display : VersionSource → String
  | .override => "override"
  | .tag => "tag"
  | .fallback => "fallback"

end VersionSource

structure ResolvedVersion where
  value : String
  source : VersionSource
deriving DecidableEq, Repr

namespace ResolvedVersion

def toValue (v : ResolvedVersion) : Document.Value :=
  .table [("value", .text v.value), ("source", .text v.source.display)]

end ResolvedVersion

/-- A tag without one leading `v`. -/
def strippedTag (tag : String) : String :=
  match tag.toList with
  | 'v' :: rest => String.ofList rest
  | _ => tag

/-- The version in a tag, unless nothing follows its prefix. -/
def tagVersion (tag : String) : Option String :=
  let version := strippedTag tag
  if version = "" then none else some version

/-- What is worth telling about a tag alone: that it says no version. -/
def tagWarnings (tag : String) : List Warning :=
  if (tagVersion tag).isNone then [.emptyTag tag] else []

/-- How versions are chosen. -/
structure VersionResolver where
  /-- Whether the tag or the manifest goes first. -/
  policy : VersionPolicy := .tagOverFallback
  /-- Whether a tag and an override that disagree are refused. -/
  rejectConflicting : Bool := false
deriving DecidableEq, Repr

namespace VersionResolver

/-- The version of a package whose manifest says `fallback`. -/
def resolve (resolver : VersionResolver) (signals : Signals) (fallback : String) :
    Except RecipeError ResolvedVersion :=
  match signals.versionOverride, signals.ciTag.bind tagVersion with
  | some override, some tag =>
    if resolver.rejectConflicting && tag != override then
      .error (.conflictingVersionSignals tag override)
    else .ok ⟨override, .override⟩
  | some override, none => .ok ⟨override, .override⟩
  | none, some tag =>
    match resolver.policy with
    | .tagOverFallback => .ok ⟨tag, .tag⟩
    | .fallbackOverTag => .ok ⟨fallback, .fallback⟩
  | none, none => .ok ⟨fallback, .fallback⟩

/-- What is worth telling while a version is chosen. -/
def warnings (resolver : VersionResolver) (signals : Signals) (fallback : String) :
    List Warning :=
  match signals.ciTag with
  | none => []
  | some tag =>
    match tagVersion tag with
    | none => tagWarnings tag
    | some version =>
      if signals.versionOverride = none ∧ resolver.policy = .fallbackOverTag then
        [.tagReplaced fallback version]
      else []

end VersionResolver
end PackageBuild
