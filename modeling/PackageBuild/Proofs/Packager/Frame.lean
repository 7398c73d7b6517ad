import PackageBuild.Proofs.Packager.Steps
import PackageBuild.Proofs.Packager.Targets
/-!
# What packaging leaves alone

Packaging removes and writes at or below the directories for headers and libraries of the package
only. Whatever it returns, everything else that was there before is still there afterwards.
-/

namespace PackageBuild

open FileTree

namespace Action

/-- Whether a tree without links, seen from a location, keeps its entries at the locations to
spare. -/
def Protects (here : Location) (spared : Location → Prop) (t t' : FileTree) : Prop :=
  t.LinkFree → t.here = here → Spares spared t t'

variable {here : Location} {spared : Location → Prop}

theorem protects_refl (t : FileTree) : Protects here spared t t := fun _ _ => .refl t

theorem protects_trans (t t' t'' : FileTree) (first : Protects here spared t t')
    (second : Protects here spared t' t'') : Protects here spared t t'' := by
  intro free same
  have spares := first free same
  exact spares.trans (second (spares.free free) (spares.here.trans same))

theorem closed_protects : Closed fun _ => Keeps (Protects here spared) :=
  closed_keeps protects_refl protects_trans

theorem keeps_makeDirectories (p : Path) :
    Keeps (Protects here spared) (makeDirectories p) :=
  keeps_change _ fun _ free _ => (makeDirectories_made free p).grows.spares

theorem keeps_removeDirectory {p : Path} (proper : p.land here ≠ [])
    (apart : ∀ k, spared k → ¬p.land here <+: k) :
    Keeps (Protects here spared) (removeDirectory p) := by
  refine keeps_change _ fun t free same => ?_
  obtain rfl := same
  have spares := (removeDirectory_spares free proper).weaken apart
  split
  · rename_i t' missing
    rwa [missing] at spares
  · exact spares

theorem keeps_copyFile {src dst : Path} (apart : ∀ k, spared k → k ≠ dst.land here) :
    Keeps (Protects here spared) (copyFile src dst) := by
  apply closed_protects.of_copyFile fun parent _ => keeps_makeDirectories parent
  refine keeps_change _ fun t free same => ?_
  obtain rfl := same
  exact (copyContent_spares free src dst).weaken apart

end Action

namespace Packager

open PackageBuild.Action

/-- The directories that the packager of a recipe clears. -/
theorem destinations_ofRecipe (headerSource librarySource : Path) (headers libraries : List Glob)
    (policy : CopyPolicy) :
    Packager.destinations ⟨[.headers headerSource headers, .libraries librarySource libraries],
        policy⟩ =
      [(⟨""⟩ : Path).descend [includeName], (⟨""⟩ : Path).descend [libName]] := by
  have sorted : ([⟨"include"⟩, ⟨"lib"⟩] : List Path).Pairwise fun p q => Path.le p q := by
    decide +kernel
  have closed : dropRepeated (([⟨"include"⟩, ⟨"lib"⟩] : List Path).mergeSort Path.le) =
      [⟨"include"⟩, ⟨"lib"⟩] := by
    rw [List.mergeSort_of_pairwise sorted]
    decide +kernel
  exact closed

/-- Removing the two directories of a package. -/
def clear (packageDir : Path) : Action Unit := do
  removeDirectory (packageDir.descend [includeName])
  removeDirectory (packageDir.descend [libName])

/-- The destinations of the packager of a recipe are cleared one after the other. -/
theorem forM_destinations (headerSource librarySource : Path) (headers libraries : List Glob)
    (policy : CopyPolicy) (packageDir : Path) :
    (Packager.destinations ⟨[.headers headerSource headers, .libraries librarySource libraries],
        policy⟩).forM (fun dst => removeDirectory (packageDir.join dst)) = clear packageDir := by
  rw [destinations_ofRecipe, List.forM, List.forM, List.forM, bind_pure_unit,
    Path.join_descend_empty packageDir (List.cons_ne_nil _ _),
    Path.join_descend_empty packageDir (List.cons_ne_nil _ _), clear]

/-- Packaging keeps what the removals of the two directories of the package, the making of the
package directory and the copies into these directories keep. -/
theorem keeps_package_of {R : FileTree → FileTree → Prop} (refl : ∀ t, R t t)
    (trans : ∀ t t' t'', R t t' → R t' t'' → R t t'') {recipe : Recipe} {buildDir : Path}
    {shared : Bool} {policy : CopyPolicy} {packager : Packager}
    (made : ofRecipe recipe buildDir shared policy = .ok packager) {packageDir : Path}
    (removed : ∀ dir ∈ [includeName, libName], Keeps R (removeDirectory (packageDir.descend [dir])))
    (directory : Keeps R (Action.makeDirectories packageDir))
    (copied : ∀ dir ∈ [includeName, libName], ∀ rule : CopyRule, rule.Fills dir →
      ∀ found : Found, found.path = rule.src.descend found.way → rule.takes found = true →
        Keeps R (copyFile found.path (packageDir.join (rule.target found)))) :
    Keeps R (packager.package packageDir) := by
  obtain ⟨headers, libraries, -, -, rfl⟩ := ofRecipe_eq_ok made
  apply (closed_keeps refl trans).of_package
  · intro rule _
    cases policy with
    | strict => exact keeps_fail refl _
    | lenient => exact (closed_keeps refl trans).of_warn _
  · intro dst member
    rw [destinations_ofRecipe] at member
    rcases List.mem_pair.mp member with rfl | rfl
    · rw [Path.join_descend_empty packageDir (List.cons_ne_nil _ _)]
      exact removed includeName List.mem_cons_self
    · rw [Path.join_descend_empty packageDir (List.cons_ne_nil _ _)]
      exact removed libName (List.mem_cons_of_mem _ List.mem_cons_self)
  · exact directory
  · exact fun rule _ e => keeps_fail refl _
  · intro rule member
    rcases List.mem_pair.mp member with rfl | rfl
    · exact copied includeName List.mem_cons_self _ (CopyRule.fills_headers _ _)
    · exact copied libName (List.mem_cons_of_mem _ List.mem_cons_self) _
        (CopyRule.fills_libraries _ _)

/-! ## What packaging spares -/

variable {here : Location} {spared : Location → Prop} {packageDir : Path}

theorem keeps_copyFile_of_fills {rule : CopyRule} {dir : Name} (fills : rule.Fills dir)
    (apart : ∀ k, spared k → ¬packageDir.land here ++ [dir] <+: k) {found : Found}
    (met : found.path = rule.src.descend found.way) (taken : rule.takes found = true) :
    Keeps (Protects here spared) (copyFile found.path (packageDir.join (rule.target found))) := by
  apply keeps_copyFile
  rintro k outside rfl
  exact apart _ outside (CopyRule.isPrefix_land_target fills met taken packageDir here)

theorem keeps_copyRules (guard : Option Location) {rules : List CopyRule}
    (apart : ∀ rule ∈ rules, ∃ dir, rule.Fills dir ∧
      ∀ k, spared k → ¬packageDir.land here ++ [dir] <+: k) :
    Keeps (Protects here spared) (copyRules packageDir guard rules) := by
  refine closed_protects.of_copyRules guard rules (fun _ _ _ => keeps_fail protects_refl _)
    fun rule member found met taken => ?_
  obtain ⟨dir, fills, outside⟩ := apart rule member
  exact keeps_copyFile_of_fills fills outside met taken

/-- Packaging spares all that is not at or below the two directories of the package, whatever it
returns. -/
theorem keeps_package {recipe : Recipe} {buildDir : Path} {shared : Bool} {policy : CopyPolicy}
    {packager : Packager} (made : ofRecipe recipe buildDir shared policy = .ok packager)
    (packageDir : Path)
    (apart : ∀ k, spared k → ¬packageDir.land here ++ [includeName] <+: k ∧
      ¬packageDir.land here ++ [libName] <+: k) :
    Keeps (Protects here spared) (packager.package packageDir) := by
  have outside : ∀ dir ∈ [includeName, libName], ∀ k, spared k →
      ¬packageDir.land here ++ [dir] <+: k := by
    rintro dir member k spares
    rcases List.mem_pair.mp member with rfl | rfl
    · exact (apart k spares).1
    · exact (apart k spares).2
  apply keeps_package_of protects_refl protects_trans made
  · intro dir member
    apply keeps_removeDirectory
    · rw [Path.land_descend]
      simp
    · rw [Path.land_descend]
      exact outside dir member
  · exact keeps_makeDirectories packageDir
  · intro dir member rule fills found met taken
    exact keeps_copyFile_of_fills fills (outside dir member) met taken

end Packager
end PackageBuild
