import PackageBuild.Proofs.Packager.Clearing
/-!
# What clearing a package directory leaves

A directory of the package is removed only if the path of the package leads there at that moment. A
path that steps up from a directory that is missing leads nowhere, and then nothing is removed and
nothing is refused. So files can be left over in a package directory that has been cleared.
-/

namespace PackageBuild

open FileTree

namespace FileTree

variable {t t' : FileTree} {p : Path} {l k top : Location} {name : Name}

theorem holdsFile_removeAt_iff (proper : top ≠ []) :
    (t.removeAt top).HoldsFile k ↔ t.HoldsFile k ∧ ¬top <+: k := by
  rw [HoldsFile, HoldsFile, lookup?_removeAt proper]
  split
  · rename_i below
    simp [below]
  · rename_i outside
    simp [outside]

theorem holdsFile_removeBelow_iff (directory : t.lookup? top = some .directory) :
    (t.removeBelow top).HoldsFile k ↔ t.HoldsFile k ∧ ¬top <+: k := by
  by_cases same : k = top
  · rw [same, HoldsFile, HoldsFile, lookup?_removeBelow_self, directory]
    simp
  · rw [HoldsFile, HoldsFile, lookup?_removeBelow]
    by_cases below : top <+: k
    · simp [below, same]
    · simp [below]

/-- What holds a file is not below a place where there is nothing. -/
theorem HoldsFile.not_below (held : t.HoldsFile k) (absent : t.lookup? top = none) :
    ¬top <+: k := by
  rintro below
  obtain ⟨content, executable, found⟩ := held
  by_cases same : top = k
  · rw [same, found] at absent
    exact absurd absent (by simp)
  · rw [lookup?_eq_none_below (by simp [absent]) below same] at found
    exact absurd found (by simp)

/-- What a removal of a directory of the package leaves of a tree, when it is not refused. -/
structure Removed (p : Path) (l : Location) (name : Name) (t t' : FileTree) : Prop where
  /-- Relative paths start where they did. -/
  here : t'.here = t.here
  /-- There are no links. -/
  free : t'.LinkFree
  /-- The files in the directory are gone if the path of the package led there. -/
  holdsFile_iff : ∀ k, t'.HoldsFile k ↔ t.HoldsFile k ∧ (t.Opens p l → ¬l ++ [name] <+: k)
  /-- The path of the package leads there now exactly if it does so without the directory. -/
  opens_iff : t'.Opens p l ↔ (t.removeAt (l ++ [name])).Opens p l

theorem removed_of_missing (free : t.LinkFree) (missing : t.lookup? (l ++ [name]) = none) :
    Removed p l name t t where
  here := rfl
  free := free
  holdsFile_iff _ := ⟨fun held => ⟨held, fun _ => held.not_below missing⟩, And.left⟩
  opens_iff := by rw [removeAt_of_lookup?_eq_none missing]

theorem removed_of_not_opens (free : t.LinkFree) (closed : ¬t.Opens p l) :
    Removed p l name t t where
  here := rfl
  free := free
  holdsFile_iff _ := ⟨fun held => ⟨held, fun opens => absurd opens closed⟩, And.left⟩
  opens_iff := iff_of_false closed fun opens => closed (opens_of_removeAt (by simp) opens)

theorem removed_of_directory (free : t.LinkFree) (opens : t.Opens p l)
    (directory : t.lookup? (l ++ [name]) = some .directory) {result : Except OsError Unit}
    (removal : t.removeDirectory (p.descend [name]) = (result, t')) :
    Removed p l name t t' := by
  have proper : l ++ [name] ≠ [] := by simp
  rw [removeDirectory, locateName_descend_singleton free opens] at removal
  simp only [directory] at removal
  cases fault : (t.removeBelow (l ++ [name])).removalFault (p.descend [name]) with
  | none =>
      rw [fault] at removal
      obtain ⟨-, rfl⟩ := Prod.mk.inj removal
      refine ⟨rfl, (spares_removeAt proper).free free, fun k => ?_, Iff.rfl⟩
      rw [holdsFile_removeAt_iff proper, imp_iff_right opens]
  | some e =>
      rw [fault] at removal
      obtain ⟨-, rfl⟩ := Prod.mk.inj removal
      have emptied : (t.removeBelow (l ++ [name])).LinkFree := spares_removeBelow.free free
      have closed : ¬(t.removeBelow (l ++ [name])).Opens p l := by
        intro opens'
        rw [removalFault_descend emptied opens'
          ((lookup?_removeBelow_self t _).trans directory)] at fault
        exact absurd fault (by simp)
      refine ⟨rfl, emptied, fun k => ?_, iff_of_false closed fun opens' => ?_⟩
      · rw [holdsFile_removeBelow_iff directory, imp_iff_right opens]
      · exact closed (removeBelow_opens proper opens')

theorem removed_of_removeDirectory (free : t.LinkFree) {result : Except OsError Unit}
    (removal : t.removeDirectory (p.descend [name]) = (result, t'))
    (done : result = .ok () ∨ result = .error .notFound) :
    Removed p (p.land t.here) name t t' := by
  by_cases opens : t.Opens p (p.land t.here)
  · cases there : t.lookup? (p.land t.here ++ [name]) with
    | none =>
        rw [removeDirectory_descend_of_missing free opens there] at removal
        obtain ⟨-, rfl⟩ := Prod.mk.inj removal
        exact removed_of_missing free there
    | some e =>
        rcases free.directory_or_file there with rfl | regular
        · exact removed_of_directory free opens there removal
        · obtain ⟨content, executable, rfl⟩ := Entry.exists_eq_file regular
          rw [removeDirectory_descend_of_file free opens there] at removal
          obtain ⟨rfl, -⟩ := Prod.mk.inj removal
          exact absurd done (by simp)
  · rw [removeDirectory, locateName_eq_locate free] at removal
    cases located : t.locate (p.descend [name]) with
    | error e =>
        rw [located] at removal
        obtain ⟨-, rfl⟩ := Prod.mk.inj removal
        exact removed_of_not_opens free opens
    | ok k => exact absurd (opens_of_locate_descend_singleton free located) opens

/-- A file that clearing the package directory at a path leaves, whether it is in there or not. -/
structure LeftOver (t : FileTree) (p : Path) (l k : Location) : Prop where
  /-- There is a file. -/
  held : t.HoldsFile k
  /-- It is not among the headers of the package, if the path leads there. -/
  not_header : t.Opens p l → ¬l ++ [Packager.includeName] <+: k
  /-- It is not among the libraries of the package, if the path leads there when the headers are
  gone. -/
  not_library : (t.removeAt (l ++ [Packager.includeName])).Opens p l →
    ¬l ++ [Packager.libName] <+: k

/-- Nothing is left over in the directories of a package to which the path leads even when the
headers are gone. -/
theorem LeftOver.outside (left : LeftOver t p l k)
    (standing : (t.removeAt (l ++ [Packager.includeName])).Opens p l) : Outside l k :=
  ⟨left.not_header (opens_of_removeAt (by simp) standing), left.not_library standing⟩

/-- Nothing is left over in the directories of a package whose path never steps up. -/
theorem LeftOver.outside_of_straight (left : LeftOver t p (p.land t.here) k)
    (straight : p.Straight) : Outside (p.land t.here) k := by
  by_contra inside
  obtain ⟨content, executable, found⟩ := left.held
  have directory := directory_of_not_outside inside found
  have stays : (t.removeAt (p.land t.here ++ [Packager.includeName])).lookup? (p.land t.here) =
      some .directory := by
    rw [lookup?_removeAt (by simp), if_neg (outside_self _).1, directory]
  exact inside (left.outside (opens_of_straight straight stays))

end FileTree

namespace Action

theorem removed_of_outcome {world world' : World} {p : Path} {name : Name}
    (free : world.tree.LinkFree)
    (removed : (removeDirectory (p.descend [name])).outcome world = (.ok (), world')) :
    Removed p (p.land world.tree.here) name world.tree world'.tree := by
  have changed := outcome_change_eq_ok removed
  split at changed
  · rename_i t' missing
    obtain ⟨-, rfl⟩ := Prod.mk.inj changed
    exact removed_of_removeDirectory free missing (Or.inr rfl)
  · exact removed_of_removeDirectory free changed (Or.inl rfl)

end Action

namespace Packager

/-- What clearing a package directory leaves, when it is not refused. -/
theorem holdsFile_clear_iff {world world' : World} {packageDir : Path}
    (free : world.tree.LinkFree)
    (cleared : (clear packageDir).outcome world = (.ok (), world')) :
    world'.tree.here = world.tree.here ∧ world'.tree.LinkFree ∧
      ∀ k, world'.tree.HoldsFile k ↔
        LeftOver world.tree packageDir (packageDir.land world.tree.here) k := by
  obtain ⟨⟨⟩, middle, first, second⟩ := Action.outcome_bind_eq_ok_iff.mp cleared
  have headers := Action.removed_of_outcome free first
  have libraries := Action.removed_of_outcome headers.free second
  rw [headers.here] at libraries
  refine ⟨libraries.here.trans headers.here, libraries.free, fun k => ?_⟩
  rw [libraries.holdsFile_iff, headers.holdsFile_iff, headers.opens_iff]
  constructor
  · rintro ⟨⟨held, not_header⟩, not_library⟩
    exact ⟨held, not_header, not_library⟩
  · rintro ⟨held, not_header, not_library⟩
    exact ⟨⟨held, not_header⟩, not_library⟩

end Packager
end PackageBuild
