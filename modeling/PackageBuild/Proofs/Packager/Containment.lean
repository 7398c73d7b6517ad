import PackageBuild.Proofs.Packager.Output
/-!
# Where packaging writes

Whatever packaging returns, it has changed nothing outside of the two directories of the package,
except that it may have made the package directory and its missing ancestors. Every step keeps
this: removals and copies act at or below the two directories, and all directories that are made
for a copy are in them or on the way to the package.
-/

namespace PackageBuild

open FileTree

namespace Packager

open PackageBuild.Action

/-- Whatever packaging returns, everything outside of the two directories of the package is as it
was, except that the package directory and missing ancestors of it may have been made. -/
theorem package_writes_inside {recipe : Recipe} {buildDir : Path} {shared : Bool}
    {policy : CopyPolicy} {packager : Packager}
    (made : ofRecipe recipe buildDir shared policy = .ok packager) (packageDir : Path)
    (world : World) (free : world.tree.LinkFree) :
    let after := ((packager.package packageDir).outcome world).2.tree
    after.here = world.tree.here ∧ after.LinkFree ∧
      ∀ k, Outside (packageDir.land world.tree.here) k →
        after.lookup? k = world.tree.lookup? k ∨
          world.tree.lookup? k = none ∧ after.lookup? k = some .directory ∧
            packageDir.Passes world.tree.here k := by
  have inside : ∀ dir ∈ [includeName, libName], ∀ k,
      packageDir.land world.tree.here ++ [dir] <+: k →
        ¬Outside (packageDir.land world.tree.here) k := by
    rintro dir member k below outside
    rcases List.mem_pair.mp member with rfl | rfl
    · exact outside.1 below
    · exact outside.2 below
  have confines : Keeps (Confines world.tree.here
      (fun k => ¬Outside (packageDir.land world.tree.here) k)
      (packageDir.Passes world.tree.here)) (packager.package packageDir) := by
    apply keeps_package_of confines_refl confines_trans made
    · intro dir member
      apply confines_removeDirectory
      · rw [Path.land_descend]
        simp
      · rw [Path.land_descend]
        exact inside dir member
    · exact confines_makeDirectories fun k => Or.inr
    · intro dir member rule fills found met taken
      exact confines_copyFile_of_takes fills met taken fun names _ =>
        inside dir member _ ⟨names, by simp⟩
  have confined := confines world free rfl
  refine ⟨confined.here, confined.free free, fun k outside => ?_⟩
  exact confined.elsewhere k (not_not.mpr outside)

/-- A directory that the small project does not have. -/
def smallShelf : Location := smallPlace ++ [⟨"dist", by decide⟩]

/-- The small project is packaged into a directory two levels below its own that are both missing.
The older package stays, and at the upper level there is nothing or a new directory. -/
theorem small_project_written_inside :
    ∃ recipe prepared packager,
      Recipe.FromSmall "" recipe ∧
      recipe.prepare { Recipe.plainOptions with packageDir := some ⟨"dist/v1"⟩ } {} {} =
        .ok prepared ∧
      prepared.packager recipe .strict = .ok packager ∧ smallProject.LinkFree ∧
      smallProject.lookup? smallShelf = none ∧
      (let after := ((packager.package prepared.packageDir).outcome { tree := smallProject }).2.tree
       after.lookup? smallOldHeader = some (.file "old".toUTF8 false) ∧
       (after.lookup? smallShelf = none ∨ after.lookup? smallShelf = some .directory ∧
         prepared.packageDir.Passes smallProject.here smallShelf)) := by
  obtain ⟨recipe, prepared, read, ready, fit⟩ := Recipe.exists_of_prepareSmall? ""
    { Recipe.plainOptions with packageDir := some ⟨"dist/v1"⟩ } (fun recipe prepared =>
      match prepared.packager recipe .strict with
      | .error _ => false
      | .ok _ => prepared.packageDir == ⟨"/pkg/dist/v1"⟩) (by decide +kernel)
  cases made : prepared.packager recipe .strict with
  | error failure => simp [made] at fit
  | ok packager =>
      simp only [made, beq_iff_eq] at fit
      have absent : smallProject.lookup? smallShelf = none := by decide +kernel
      have old : smallProject.lookup? smallOldHeader = some (.file "old".toUTF8 false) := by
        decide +kernel
      obtain ⟨-, -, elsewhere⟩ := package_writes_inside made prepared.packageDir
        { tree := smallProject } smallProject_linkFree
      refine ⟨recipe, prepared, packager, read, ready, made, smallProject_linkFree, absent, ?_, ?_⟩
      · rcases elsewhere smallOldHeader (by rw [fit]; decide +kernel) with same | ⟨missing, -⟩
        · exact same.trans old
        · exact absurd (old.symm.trans missing) (by simp)
      · rcases elsewhere smallShelf (by rw [fit]; decide +kernel) with same | ⟨-, new⟩
        · exact Or.inl (same.trans absent)
        · exact Or.inr new

end Packager
end PackageBuild
