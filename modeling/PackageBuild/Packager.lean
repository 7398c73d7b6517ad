import PackageBuild.ArtifactLayout
import PackageBuild.CopyPolicy
import PackageBuild.Glob
import PackageBuild.Recipe
import PackageBuild.World
/-!
# Packaging

A packager copies the files that its rules select into a package directory. Headers keep their way
from the source directory, libraries are put side by side. All destinations are cleared first, so a
package never mixes two builds, and the walk through a source directory stays out of the package
directory itself. Files are copied while the walk goes on, so it meets copies that were made in a
directory before it gets there.
-/

namespace PackageBuild

/-- One kind of files to copy. -/
structure CopyRule where
  /-- The kind, as messages call it. -/
  category : String
  /-- The directory to search. -/
  src : Path
  /-- Where the files go, relative to the package directory. -/
  dst : Path
  /-- The patterns of file names; one of them has to match. -/
  patterns : List Glob
  /-- Whether files keep their way from the source directory. -/
  keepPath : Bool
deriving DecidableEq, Repr

namespace CopyRule

/-- The rule for headers, which keep their way from the source directory. -/
def headers (src : Path) (patterns : List Glob) : CopyRule :=
  ⟨"headers", src, ⟨"include"⟩, patterns, true⟩

/-- The rule for libraries, which are put side by side. -/
def libraries (src : Path) (patterns : List Glob) : CopyRule :=
  ⟨"libraries", src, ⟨"lib"⟩, patterns, false⟩

/-- The patterns that some texts stand for; the first malformed one is refused. -/
def compile (patterns : List String) : Except Failure (List Glob) :=
  patterns.mapM fun text =>
    (Glob.parse text).mapError fun error =>
      (Failure.of (.pattern error)).within ("invalid file pattern: " ++ text)

/-- Whether a rule selects files of this name. -/
def selects (rule : CopyRule) (name : String) : Bool := rule.patterns.any (·.isMatch name)

/-- Whether a rule selects a file met on a walk. -/
def takes (rule : CopyRule) (found : Found) : Bool := found.path.fileName?.any rule.selects

/-- Where a rule puts a file met on a walk, relative to the package directory. -/
def target (rule : CopyRule) (found : Found) : Path :=
  if rule.keepPath then rule.dst.join (Path.under rule.src found.path)
  else rule.dst.joinText (found.path.fileName?.getD "")

end CopyRule

/-- Rules for the contents of a package. -/
structure Packager where
  rules : List CopyRule
  policy : CopyPolicy
deriving DecidableEq, Repr

namespace Packager

/-- The patterns for the headers of a recipe. -/
def headerPatterns (layout : LayoutConfig) : List String :=
  layout.headerExtensions.map fun extension =>
    "*." ++ String.ofList (extension.toList.dropWhile (· == '.'))

/-- The patterns for the libraries of a recipe. -/
def libraryPatterns (layout : LayoutConfig) (shared : Bool) : List String :=
  layout.libraryPatterns ++ if shared then layout.sharedLibraryPatterns else []

/-- The packager of a recipe: headers from its include tree, libraries from a build directory. -/
def ofRecipe (recipe : Recipe) (buildDir : Path) (shared : Bool) (policy : CopyPolicy) :
    Except Failure Packager := do
  let headers ← CopyRule.compile (headerPatterns recipe.layout)
  let libraries ← CopyRule.compile (libraryPatterns recipe.layout shared)
  return ⟨[.headers (recipe.root.join recipe.layout.includeDir) headers,
    .libraries buildDir libraries], policy⟩

/-- What becomes of a missing source directory: a report, or a refusal. -/
def missingSource (policy : CopyPolicy) (rule : CopyRule) : Action Unit :=
  match policy with
  | .strict => Action.fail (.package ⟨rule.category, rule.src⟩)
  | .lenient => Action.warn (.nothingCopied rule.category rule.src)

/-- The rules whose source directory is there. -/
def presentRules (policy : CopyPolicy) : List CopyRule → Action (List CopyRule)
  | [] => return []
  | rule :: rest => do
    if ← Action.look (·.isDir rule.src) then
      return rule :: (← presentRules policy rest)
    else
      missingSource policy rule
      presentRules policy rest

/-- Without the paths that are followed by one with the same components. -/
def dropRepeated : List Path → List Path
  | p :: q :: rest => if p.same q then dropRepeated (q :: rest) else p :: dropRepeated (q :: rest)
  | paths => paths

/-- Without the paths that follow one with the same components. -/
def keepFirst : List Path → List Path
  | [] => []
  | p :: rest =>
    match keepFirst rest with
    | q :: more => if p.same q then p :: more else p :: q :: more
    | [] => [p]

/-- The destinations of a packager, in increasing order, each once. -/
def destinations (packager : Packager) : List Path :=
  dropRepeated ((packager.rules.map CopyRule.dst).mergeSort Path.le)

/-- Copies made so far, each destination with the latest source. -/
abbrev Copies := List (Path × Path)

/-- Note a copy in place of an earlier one to the same destination. -/
def noteCopy (dst src : Path) : Copies → Copies
  | [] => [(dst, src)]
  | entry :: rest =>
    if entry.1.same dst then (entry.1, src) :: rest else entry :: noteCopy dst src rest

/-- Copy one file that a rule selects, warning when it replaces an earlier one. -/
def copyOne (rule : CopyRule) (packageDir : Path) (copies : Copies) (found : Found) :
    Action Copies := do
  let dst := rule.target found
  if let some (_, earlier) := copies.find? (·.1.same dst) then
    Action.warn (.overwrites found.path earlier dst)
  Action.copyFile found.path (packageDir.join dst)
  return noteCopy dst found.path copies

/-- Copy what a walk meets if it is a file that the rule selects. -/
def copyMet (rule : CopyRule) (packageDir : Path) (copies : Copies) (found : Found) :
    Action Copies :=
  if found.entry.isFile && rule.takes found then copyOne rule packageDir copies found
  else return copies

/-- Copy all that a rule selects below a directory at some way from the source, outside of a
location, down to some depth. -/
def copyBelow (rule : CopyRule) (packageDir : Path) (guard : Option Location) (top : Location) :
    Nat → Location → Copies → Action Copies
  | 0, _, copies => return copies
  | depth + 1, way, copies => do
    let children ← Action.look (·.childrenMet guard (top ++ way))
    children.foldlM (fun copies child => do
      let way := way ++ [child.1]
      let copies ← copyMet rule packageDir copies ⟨rule.src.descend way, way, child.2⟩
      copyBelow rule packageDir guard top depth way copies) copies

/-- Copy all that a rule selects outside of a location. A copy lies no deeper below the source than
its original if it lies there at all, so the walk goes as deep as there are entries. -/
def copyRule (rule : CopyRule) (packageDir : Path) (guard : Option Location) :
    Action (List Path) := do
  let tree ← Action.look id
  match tree.find rule.src with
  | .error e => Action.fail (.walk rule.src e)
  | .ok (top, entry) =>
    let alone := tree.metAtStart rule.src top entry guard
    let copies ← alone.foldlM (copyMet rule packageDir) []
    let depth := if guard = some top then 0 else tree.entries.size
    let copies ← copyBelow rule packageDir guard top depth [] copies
    return copies.map (·.1)

/-- Copy for one rule after the other, sorting what was copied into headers and libraries. -/
def copyRules (packageDir : Path) (guard : Option Location) :
    List CopyRule → Action (List Path × List Path)
  | [] => return ([], [])
  | rule :: rest => do
    let copied ← copyRule rule packageDir guard
    let (headers, libraries) ← copyRules packageDir guard rest
    return if rule.keepPath then (copied ++ headers, libraries) else (headers, copied ++ libraries)

/-- The paths in increasing order, each once. -/
def arranged (paths : List Path) : List Path := keepFirst (paths.mergeSort Path.le)

/-- Replace the contents of a package directory by what the rules select. A missing source is
refused before anything is removed. -/
def package (packager : Packager) (packageDir : Path) : Action ArtifactLayout := do
  let present ← presentRules packager.policy packager.rules
  packager.destinations.forM fun dst => Action.removeDirectory (packageDir.join dst)
  Action.makeDirectories packageDir
  let guard ← Action.look fun tree => (tree.find packageDir).toOption.map (·.1)
  let (headers, libraries) ← copyRules packageDir guard present
  return ⟨packageDir, arranged headers, arranged libraries⟩

end Packager
end PackageBuild
