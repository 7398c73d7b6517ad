import PackageBuild.Proofs.FileTree.Contents
import PackageBuild.Proofs.FileTree.Walking
import PackageBuild.Proofs.Packager.Rules
/-!
# What rules pick and where they put it

A rule picks the regular files below its source directory whose names it selects and which can be
reached without entering the package directory. What it picks goes below one directory of the
package, either with its whole way from the source or under its name alone.
-/

namespace PackageBuild

namespace Packager

/-- The name of the directory for headers. -/
def includeName : Name := ⟨"include", by decide⟩

/-- The name of the directory for libraries. -/
def libName : Name := ⟨"lib", by decide⟩

theorem includeName_ne_libName : includeName ≠ libName := by decide

end Packager

namespace CopyRule

/-- Whether a rule puts what it picks below the directory with this name. -/
def Fills (rule : CopyRule) (dir : Name) : Prop := rule.dst = (⟨""⟩ : Path).descend [dir]

theorem fills_headers (src : Path) (patterns : List Glob) :
    (CopyRule.headers src patterns).Fills Packager.includeName := rfl

theorem fills_libraries (src : Path) (patterns : List Glob) :
    (CopyRule.libraries src patterns).Fills Packager.libName := rfl

/-- Where a rule puts a file with this way from the source, as seen from its own directory in the
package. -/
def goal (rule : CopyRule) (way : Location) : Location :=
  if rule.keepPath then way else way.drop (way.length - 1)

theorem goal_concat (rule : CopyRule) (front : Location) (name : Name) :
    rule.goal (front ++ [name]) = (if rule.keepPath then front else []) ++ [name] := by
  rw [goal]
  split <;> simp

/-- A file that a rule picks in a tree, by its way from the source directory, on a walk that stays
out of a guarded location. -/
structure Picks (rule : CopyRule) (t : FileTree) (guard : Option Location) (top way : Location)
    (e : Entry) : Prop where
  /-- The source directory is found. -/
  source : t.find rule.src = .ok (top, .directory)
  /-- The file lies below it. -/
  found : t.lookup? (top ++ way) = some e
  /-- It is a regular file. -/
  regular : e.isFile = true
  /-- Its name matches one of the patterns. -/
  selected : ∃ front name, way = front ++ [name] ∧ rule.selects name.text = true
  /-- The walk gets there. -/
  reached : FileTree.reaches top guard (top ++ way) = true

theorem takes_descend (rule : CopyRule) (front way : Location) (name : Name) (e : Entry) :
    rule.takes ⟨rule.src.descend (front ++ [name]), way, e⟩ = rule.selects name.text := by
  rw [takes, Path.fileName?_descend, Option.any_some]

theorem target_descend {rule : CopyRule} {dir : Name} (fills : rule.Fills dir)
    (front way : Location) (name : Name) (e : Entry) :
    rule.target ⟨rule.src.descend (front ++ [name]), way, e⟩ =
      (⟨""⟩ : Path).descend (dir :: rule.goal (front ++ [name])) := by
  rw [target, goal_concat, fills]
  split
  · rw [Path.under_descend, Path.join_descend_empty _ (by simp), ← Path.descend_append]
    rfl
  · rw [Path.fileName?_descend, Option.getD_some]
    rfl

end CopyRule

namespace CopyRule

open FileTree

variable {rule : CopyRule} {t : FileTree} {top : Location}

/-- The files that a rule takes on its walk are those it picks. -/
theorem mem_taken_iff (guard : Option Location) (source : t.find rule.src = .ok (top, .directory)) :
    ∃ files, t.filesMet rule.src guard = .ok files ∧ ∀ found, found ∈ files.filter rule.takes ↔
      ∃ way e, found = ⟨rule.src.descend way, way, e⟩ ∧ rule.Picks t guard top way e := by
  obtain ⟨files, met, member_iff⟩ := mem_filesMet_iff guard source
  refine ⟨files, met, fun found => ?_⟩
  rw [List.mem_filter, member_iff]
  constructor
  · rintro ⟨⟨way, e, rfl, some_way, there, file, reached⟩, taken⟩
    obtain ⟨front, name, rfl⟩ : ∃ front name, way = front ++ [name] :=
      ⟨_, _, (List.dropLast_concat_getLast some_way).symm⟩
    rw [takes_descend] at taken
    exact ⟨_, e, rfl, source, there, file, ⟨front, name, rfl, taken⟩, reached⟩
  · rintro ⟨way, e, rfl, -, there, file, ⟨front, name, rfl, selected⟩, reached⟩
    refine ⟨⟨_, e, rfl, by simp, there, file, reached⟩, ?_⟩
    rw [takes_descend, selected]

/-- A walk that stays out of the package gets into a directory in there only from a source in
there. -/
theorem prefix_of_reaches {l way : Location} {dir : Name}
    (reached : reaches top (some l) (top ++ way) = true) (below : l ++ [dir] <+: top ++ way) :
    l ++ [dir] <+: top := by
  rcases List.prefix_or_prefix_of_prefix below (List.prefix_append top way) with under | above
  · exact under
  · rcases List.prefix_concat_iff.mp above with rfl | above
    · exact List.prefix_rfl
    · exact absurd ⟨above, (List.prefix_append l [dir]).trans below⟩ (reaches_iff.mp reached)

/-- What a rule picks in a directory of the package comes from a source in there. -/
theorem Picks.source_below {l way : Location} {e : Entry} {dir : Name}
    (picked : rule.Picks t (some l) top way e) (below : l ++ [dir] <+: top ++ way) :
    l ++ [dir] <+: top := prefix_of_reaches picked.reached below

theorem length_goal_le (rule : CopyRule) (way : Location) :
    (rule.goal way).length ≤ way.length := by
  rw [goal]
  split
  · exact Nat.le_refl _
  · exact (List.drop_sublist _ way).length_le

/-- Whatever a rule takes has a path in the package that goes down from the directory of the rule,
and not farther than that of what was met below the source. -/
theorem exists_components_target {dir : Name} (fills : rule.Fills dir) {found : Found}
    (met : found.path = rule.src.descend found.way) (taken : rule.takes found = true)
    (packageDir : Path) :
    ∃ names, (found.way ≠ [] → names.length ≤ found.way.length) ∧
      (packageDir.join (rule.target found)).components =
        (packageDir.descend (dir :: names)).components := by
  obtain ⟨path, way, e⟩ := found
  obtain rfl : path = rule.src.descend way := met
  rcases List.eq_nil_or_concat way with rfl | ⟨front, name, rfl⟩
  · rw [Path.descend_nil] at taken ⊢
    by_cases keeps : rule.keepPath = true
    · have alone := Path.under_descend rule.src []
      rw [Path.descend_nil, Path.descend_nil] at alone
      refine ⟨[], fun _ => Nat.zero_le _, ?_⟩
      rw [target, if_pos keeps, fills, alone, Path.components_join_name_slash]
    · cases last : rule.src.fileName? with
      | none => simp [takes, last] at taken
      | some text =>
          obtain ⟨name, rfl⟩ := Path.exists_name_of_fileName? last
          have below : ((⟨""⟩ : Path).descend [dir]).joinText name.text =
            (⟨""⟩ : Path).descend [dir, name] := rfl
          refine ⟨[name], fun some_way => absurd rfl some_way, ?_⟩
          rw [target, if_neg keeps, fills, last, Option.getD_some, below,
            Path.join_descend_empty _ (List.cons_ne_nil _ _)]
  · rw [List.concat_eq_append] at taken ⊢
    refine ⟨_, fun _ => rule.length_goal_le (front ++ [name]), ?_⟩
    rw [target_descend fills, Path.join_descend_empty _ (List.cons_ne_nil _ _)]

theorem isPrefix_land_target {dir : Name} (fills : rule.Fills dir) {found : Found}
    (met : found.path = rule.src.descend found.way) (taken : rule.takes found = true)
    (packageDir : Path) (here : Location) :
    packageDir.land here ++ [dir] <+: (packageDir.join (rule.target found)).land here := by
  obtain ⟨names, -, components⟩ := exists_components_target fills met taken packageDir
  rw [Path.land_congr components, Path.land_descend]
  exact ⟨names, by simp⟩

end CopyRule
end PackageBuild
