import PackageBuild.Proofs.Packager.Frame
/-!
# Clearing a package directory

Before anything is copied, the two directories of the package are removed. When the path of the
package directory still opens without them, this succeeds exactly if neither is a file.
-/

namespace PackageBuild

open FileTree

namespace FileTree

variable {t : FileTree} {l k : Location} {p : Path}

/-- The tree without the two directories of the package in a directory. -/
def cleared (t : FileTree) (l : Location) : FileTree :=
  (t.removeAt (l ++ [Packager.includeName])).removeAt (l ++ [Packager.libName])

/-- Whether a location is not at or below one of the two directories of a package. -/
def Outside (l k : Location) : Prop :=
  ¬l ++ [Packager.includeName] <+: k ∧ ¬l ++ [Packager.libName] <+: k

instance (l k : Location) : Decidable (Outside l k) := inferInstanceAs (Decidable (_ ∧ _))

theorem outside_self (l : Location) : Outside l l :=
  ⟨fun below => absurd below.length_le (by simp), fun below => absurd below.length_le (by simp)⟩

theorem not_outside_include (l q : Location) : ¬Outside l (l ++ [Packager.includeName] ++ q) :=
  fun outside => outside.1 (List.prefix_append _ q)

theorem not_outside_lib (l q : Location) : ¬Outside l (l ++ [Packager.libName] ++ q) :=
  fun outside => outside.2 (List.prefix_append _ q)

theorem directory_of_not_outside {e : Entry} (inside : ¬Outside l k)
    (found : t.lookup? k = some e) : t.lookup? l = some .directory := by
  have above : l <+: k := by
    by_contra apart
    exact inside ⟨fun below => apart ((List.prefix_append l _).trans below),
      fun below => apart ((List.prefix_append l _).trans below)⟩
  refine lookup?_above found above ?_
  rintro rfl
  exact inside (outside_self l)

/-- What is in one directory is not in another of a different name. -/
theorem not_prefix_of_ne {dir other : Name} (different : dir ≠ other) (l q : Location) :
    ¬l ++ [dir] <+: l ++ [other] ++ q := by
  rw [List.append_assoc, List.prefix_append_right_inj, List.singleton_append,
    List.cons_prefix_cons]
  exact fun same => different same.1

theorem lookup?_cleared_of_outside (outside : Outside l k) :
    (t.cleared l).lookup? k = t.lookup? k := by
  rw [cleared, lookup?_removeAt (by simp), if_neg outside.2, lookup?_removeAt (by simp),
    if_neg outside.1]

theorem lookup?_cleared_of_not_outside (inside : ¬Outside l k) :
    (t.cleared l).lookup? k = none := by
  rw [cleared, lookup?_removeAt (by simp), lookup?_removeAt (by simp)]
  split
  · rfl
  · rename_i not_lib
    rw [if_pos]
    by_contra not_include
    exact inside ⟨not_include, not_lib⟩

theorem cleared_spares : Spares (Outside l) t (t.cleared l) := by
  have headers : Spares (Outside l) t (t.removeAt (l ++ [Packager.includeName])) :=
    (spares_removeAt (by simp)).weaken fun _ outside => outside.1
  exact headers.trans ((spares_removeAt (by simp)).weaken fun _ outside => outside.2)

theorem lookup?_of_cleared {e : Entry} (found : (t.cleared l).lookup? k = some e) :
    t.lookup? k = some e := by
  by_cases outside : Outside l k
  · rwa [lookup?_cleared_of_outside outside] at found
  · rw [lookup?_cleared_of_not_outside outside] at found
    exact absurd found (by simp)

theorem cleared_of_not_directory (absent : t.lookup? l ≠ some .directory) : t.cleared l = t := by
  have nothing (name : Name) : t.lookup? (l ++ [name]) = none :=
    lookup?_eq_none_below absent (List.prefix_append l [name]) (by simp)
  rw [cleared, removeAt_of_lookup?_eq_none (nothing _), removeAt_of_lookup?_eq_none (nothing _)]

end FileTree

namespace Action

variable {l : Location} {p : Path} {name : Name}

theorem tree_outcome_removeDirectory (world : World) (p : Path) :
    ((removeDirectory p).outcome world).2.tree = (world.tree.removeDirectory p).2 := by
  rw [removeDirectory, outcome_change]
  dsimp only
  split
  · rename_i missing
    rw [missing]
  · rfl

/-- A directory of the package is removed unless it is a file. -/
theorem outcome_removeDirectory_descend (world : World) (free : world.tree.LinkFree)
    (opens : (world.tree.removeAt (l ++ [name])).Opens p l)
    (no_file : ¬world.tree.HoldsFile (l ++ [name])) :
    (removeDirectory (p.descend [name])).outcome world =
      (.ok (), { world with tree := world.tree.removeAt (l ++ [name]) }) := by
  rw [removeDirectory, outcome_change]
  cases there : world.tree.lookup? (l ++ [name]) with
  | none =>
      have opens' := opens_of_removeAt (by simp) opens
      rw [removeDirectory_descend_of_missing free opens' there, removeAt_of_lookup?_eq_none there]
      rfl
  | some e =>
      rcases free.directory_or_file there with rfl | regular
      · rw [removeDirectory_descend free opens there]
        rfl
      · exact absurd (holdsFile_of_isFile there regular) no_file

theorem outcome_removeDirectory_descend_of_file (world : World) (free : world.tree.LinkFree)
    (opens : world.tree.Opens p l) (file : world.tree.HoldsFile (l ++ [name])) :
    ∃ failure, (removeDirectory (p.descend [name])).outcome world = (.error failure, world) := by
  obtain ⟨content, executable, file⟩ := file
  rw [removeDirectory, outcome_change, removeDirectory_descend_of_file free opens file]
  exact ⟨_, rfl⟩

end Action

namespace Packager

open PackageBuild.Action

variable {world : World} {l : Location} {packageDir : Path}

theorem removeAt_include_opens {t : FileTree} (standing : (t.cleared l).Opens packageDir l) :
    (t.removeAt (l ++ [includeName])).Opens packageDir l :=
  opens_of_removeAt (by simp) standing

theorem opens_of_cleared {t : FileTree} (standing : (t.cleared l).Opens packageDir l) :
    t.Opens packageDir l :=
  opens_of_removeAt (by simp) (removeAt_include_opens standing)

theorem holdsFile_lib_removeAt_include {t : FileTree} :
    (t.removeAt (l ++ [includeName])).HoldsFile (l ++ [libName]) ↔
      t.HoldsFile (l ++ [libName]) := by
  have apart : ¬l ++ [includeName] <+: l ++ [libName] := by
    simpa using not_prefix_of_ne includeName_ne_libName l []
  rw [HoldsFile, HoldsFile, lookup?_removeAt (by simp), if_neg apart]

/-- A file in place of one of the two directories is refused. When it is not in place of the first
one, the headers are gone by then. -/
theorem outcome_clear_of_file (free : world.tree.LinkFree)
    (standing : (world.tree.cleared l).Opens packageDir l)
    (file : world.tree.HoldsFile (l ++ [includeName]) ∨ world.tree.HoldsFile (l ++ [libName])) :
    ∃ failure, (clear packageDir).outcome world = (.error failure, { world with
      tree := if world.tree.HoldsFile (l ++ [includeName]) then world.tree
        else world.tree.removeAt (l ++ [includeName]) }) := by
  have opens := removeAt_include_opens standing
  by_cases include_file : world.tree.HoldsFile (l ++ [includeName])
  · obtain ⟨failure, refused⟩ :=
      outcome_removeDirectory_descend_of_file world free (opens_of_cleared standing) include_file
    exact ⟨failure, by rw [clear, outcome_bind_error refused, if_pos include_file]⟩
  · have lib_file := file.resolve_left include_file
    have proper : l ++ [includeName] ≠ [] := by simp
    have first := outcome_removeDirectory_descend world free opens include_file
    obtain ⟨failure, refused⟩ := outcome_removeDirectory_descend_of_file
      { world with tree := world.tree.removeAt (l ++ [includeName]) }
      ((spares_removeAt proper).free free) opens (holdsFile_lib_removeAt_include.mpr lib_file)
    exact ⟨failure, by rw [clear, outcome_bind_ok first, refused, if_neg include_file]⟩

/-- Otherwise both are gone. -/
theorem outcome_clear (free : world.tree.LinkFree)
    (standing : (world.tree.cleared l).Opens packageDir l)
    (no_include_file : ¬world.tree.HoldsFile (l ++ [includeName]))
    (no_lib_file : ¬world.tree.HoldsFile (l ++ [libName])) :
    (clear packageDir).outcome world =
      (.ok (), { world with tree := world.tree.cleared l }) := by
  have opens := removeAt_include_opens standing
  have proper : l ++ [includeName] ≠ [] := by simp
  have first := outcome_removeDirectory_descend world free opens no_include_file
  have second := outcome_removeDirectory_descend
    { world with tree := world.tree.removeAt (l ++ [includeName]) }
    ((spares_removeAt proper).free free) standing
    (fun file => no_lib_file (holdsFile_lib_removeAt_include.mp file))
  rw [clear, outcome_bind_ok first, second]
  rfl

/-- The path of a package directory that never steps up opens without its two directories. -/
theorem cleared_opens_of_straight {t : FileTree} (straight : packageDir.Straight)
    (directory : t.lookup? (packageDir.land t.here) = some .directory) :
    (t.cleared (packageDir.land t.here)).Opens packageDir (packageDir.land t.here) := by
  have there : (t.cleared (packageDir.land t.here)).lookup? (packageDir.land t.here) =
      some .directory := by
    rw [lookup?_cleared_of_outside (outside_self _), directory]
  exact opens_of_straight straight there

theorem removeDirectory_descend_of_not_directory {t : FileTree} (free : t.LinkFree)
    (absent : t.lookup? (packageDir.land t.here) ≠ some .directory) (name : Name) :
    (t.removeDirectory (packageDir.descend [name])).2 = t := by
  rw [FileTree.removeDirectory, locateName_eq_locate free]
  split
  · rfl
  · rename_i l located
    exact absurd (opens_of_locate_descend_singleton free located).2 absent

/-- A successful clearing of a package directory whose path never steps up leaves all but its two
directories. -/
theorem tree_of_outcome_clear {world' : World} (free : world.tree.LinkFree)
    (straight : packageDir.Straight)
    (outcome : (clear packageDir).outcome world = (.ok (), world')) :
    world'.tree = world.tree.cleared (packageDir.land world.tree.here) := by
  by_cases directory : world.tree.lookup? (packageDir.land world.tree.here) = some .directory
  · have standing := cleared_opens_of_straight straight directory
    by_cases file : world.tree.HoldsFile (packageDir.land world.tree.here ++ [includeName]) ∨
        world.tree.HoldsFile (packageDir.land world.tree.here ++ [libName])
    · obtain ⟨failure, refused⟩ := outcome_clear_of_file free standing file
      exact absurd (outcome.symm.trans refused) (by simp)
    · obtain ⟨no_include_file, no_lib_file⟩ := not_or.mp file
      have gone := outcome_clear free standing no_include_file no_lib_file
      obtain ⟨-, rfl⟩ := Prod.mk.inj (outcome.symm.trans gone)
      rfl
  · obtain ⟨⟨⟩, middle, first, second⟩ := outcome_bind_eq_ok_iff.mp outcome
    have kept_first := tree_outcome_removeDirectory world (packageDir.descend [includeName])
    rw [first, removeDirectory_descend_of_not_directory free directory] at kept_first
    dsimp only at kept_first
    have kept_second := tree_outcome_removeDirectory middle (packageDir.descend [libName])
    rw [second, kept_first, removeDirectory_descend_of_not_directory free directory] at kept_second
    rw [cleared_of_not_directory directory]
    exact kept_second

/-! ## Packaging into a directory that stands -/

theorem guard_of_opens {t : FileTree} (free : t.LinkFree) (opens : t.Opens packageDir l) :
    (t.find packageDir).toOption.map (·.1) = if packageDir.text = "" then none else some l := by
  by_cases empty : packageDir.text = ""
  · rw [if_pos empty, find, locate, linkLimit, locateFrom, if_pos empty]
    rfl
  · rw [if_neg empty, (find_directory_iff_opens free empty).mpr opens]
    rfl

theorem guard_of_absolute {t : FileTree} (free : t.LinkFree)
    (absolute : packageDir.isAbsolute = true) (opens : t.Opens packageDir l) :
    (t.find packageDir).toOption.map (·.1) = some l := by
  have some_text : packageDir.text ≠ "" := by
    intro empty
    rw [Path.isAbsolute, empty] at absolute
    exact absurd absolute (by decide)
  rw [guard_of_opens free opens, if_neg some_text]

/-- Packaging into a directory that stays open copies into the cleared tree, once nothing is missing
and no file is in the way. -/
theorem outcome_package_of_standing (headerSource librarySource : Path)
    (headers libraries : List Glob) (policy : CopyPolicy) (free : world.tree.LinkFree)
    (standing : (world.tree.cleared l).Opens packageDir l)
    (proceeds : Proceeds policy [.headers headerSource headers, .libraries librarySource libraries]
      world.tree)
    (no_include_file : ¬world.tree.HoldsFile (l ++ [includeName]))
    (no_lib_file : ¬world.tree.HoldsFile (l ++ [libName])) :
    ∃ ready : World, ready.tree = world.tree.cleared l ∧
      (Packager.package ⟨[.headers headerSource headers, .libraries librarySource libraries],
          policy⟩ packageDir).outcome world =
        (copyRules packageDir ((world.tree.find packageDir).toOption.map (·.1))
              ([CopyRule.headers headerSource headers,
                CopyRule.libraries librarySource libraries].filter
                  fun rule => world.tree.isDir rule.src) >>= fun lists =>
            pure (⟨packageDir, arranged lists.1, arranged lists.2⟩ : ArtifactLayout)).outcome
          ready := by
  obtain ⟨after, same, -, first⟩ := outcome_presentRules proceeds
  rw [← same] at free standing no_include_file no_lib_file
  have second := outcome_clear free standing no_include_file no_lib_file
  have free' : (after.tree.cleared l).LinkFree := cleared_spares.free free
  have third : (Action.makeDirectories packageDir).outcome
      { after with tree := after.tree.cleared l } =
        (.ok (), { after with tree := after.tree.cleared l }) := by
    rw [Action.makeDirectories, outcome_change, makeDirectories_of_opens free' standing]
    rfl
  have guard : ((after.tree.cleared l).find packageDir).toOption.map (·.1) =
      (world.tree.find packageDir).toOption.map (·.1) := by
    rw [guard_of_opens free' standing, ← same, guard_of_opens free (opens_of_cleared standing)]
  refine ⟨{ after with tree := after.tree.cleared l }, by rw [same], ?_⟩
  rw [package, outcome_bind_ok first]
  dsimp only
  rw [forM_destinations, outcome_bind_ok second, outcome_bind_ok third,
    outcome_bind_ok (outcome_look _), guard]

end Packager
end PackageBuild
