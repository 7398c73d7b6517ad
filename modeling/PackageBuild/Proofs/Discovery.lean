import PackageBuild.ConsumerInfo
import PackageBuild.Proofs.Preparation
import PackageBuild.Proofs.Path.Joining
import PackageBuild.Proofs.Scanning
/-!
# Discovered libraries

The names to link are those of the library files that lie directly in a declared directory and are
seen from the package through a declared directory of the same components. A relative directory is
seen under its own components but for a dot at its head, so one that is declared with such a dot
is not recognised.
-/

namespace PackageBuild

namespace FileTree

/-- Whether a regular file of this name lies directly in the directory at a path. -/
def HasFile (t : FileTree) (dir : Path) (name : Name) : Prop :=
  ∃ l, t.find dir = .ok (l, .directory) ∧ t.HoldsFile (l ++ [name])

end FileTree

namespace ArtifactLayout

open FileTree

variable {t : FileTree} {root : Path}

theorem exists_filesIn_direct (t : FileTree) (root dir : Path) :
    ∃ paths, filesIn t root true dir = .ok paths ∧ ∀ p, p ∈ paths ↔
      ∃ name, t.HasFile (root.join dir) name ∧ p = root.under ((root.join dir).descend [name]) := by
  by_cases there : t.isDir (root.join dir) = true
  · obtain ⟨l, found⟩ := isDir_iff.mp there
    obtain ⟨ways, listed, -, mem_ways⟩ := exists_ways found true
    refine ⟨_, listed, fun p => ?_⟩
    rw [List.mem_map]
    constructor
    · rintro ⟨way, gone, rfl⟩
      obtain ⟨-, short, held⟩ := (mem_ways way).mp gone
      obtain ⟨name, rfl⟩ := List.length_eq_one_iff.mp (short rfl)
      exact ⟨name, ⟨l, found, held⟩, rfl⟩
    · rintro ⟨name, ⟨k, found', held⟩, rfl⟩
      obtain ⟨rfl, -⟩ := Prod.mk.inj (Except.ok.inj (found.symm.trans found'))
      exact ⟨[name], (mem_ways [name]).mpr ⟨List.cons_ne_nil name [], fun _ => rfl, held⟩, rfl⟩
  · refine ⟨[], if_neg there, fun p => ?_⟩
    simp only [List.not_mem_nil, false_iff]
    rintro ⟨name, ⟨l, found, -⟩, -⟩
    exact there (isDir_iff.mpr ⟨l, found⟩)

theorem exists_filesIn (t : FileTree) (root dir : Path) :
    ∃ paths, filesIn t root false dir = .ok paths := by
  by_cases there : t.isDir (root.join dir) = true
  · obtain ⟨l, found⟩ := isDir_iff.mp there
    obtain ⟨ways, listed, -⟩ := exists_ways found false
    exact ⟨_, listed⟩
  · exact ⟨[], if_neg there⟩

theorem exists_mapM {list : Path → Except Failure (List Path)} {holds : Path → Path → Prop}
    (each : ∀ dir, ∃ paths, list dir = .ok paths ∧ ∀ p, p ∈ paths ↔ holds dir p)
    (dirs : List Path) :
    ∃ lists, dirs.mapM list = .ok lists ∧ ∀ p, p ∈ lists.flatten ↔ ∃ dir ∈ dirs, holds dir p := by
  induction dirs with
  | nil => exact ⟨[], rfl, by simp⟩
  | cons dir dirs induction =>
      obtain ⟨paths, first, mem_first⟩ := each dir
      obtain ⟨lists, rest, mem_rest⟩ := induction
      refine ⟨paths :: lists, ?_, fun p => ?_⟩
      · rw [List.mapM_cons, first, rest]
        rfl
      · rw [List.flatten_cons, List.mem_append, mem_first, mem_rest, List.exists_mem_cons_iff]

/-- A package can always be scanned, and its libraries are the files directly in the library
directories. -/
theorem exists_scan (t : FileTree) (root : Path) (includeDirs libDirs : List Path) :
    ∃ layout, scan t root includeDirs libDirs = .ok layout ∧
      ∀ p, p ∈ layout.libraries ↔ ∃ dir ∈ libDirs, ∃ name, t.HasFile (root.join dir) name ∧
        p = root.under ((root.join dir).descend [name]) := by
  have all_listed : ∀ dir, ∃ paths, filesIn t root false dir = .ok paths ∧
      ∀ p, p ∈ paths ↔ ∃ paths, filesIn t root false dir = .ok paths ∧ p ∈ paths := by
    intro dir
    obtain ⟨paths, listed⟩ := exists_filesIn t root dir
    exact ⟨paths, listed, by simp [listed]⟩
  obtain ⟨headers, headers_listed, -⟩ := exists_mapM all_listed includeDirs
  obtain ⟨libraries, libraries_listed, mem_libraries⟩ :=
    exists_mapM (exists_filesIn_direct t root) libDirs
  refine ⟨⟨root, headers.flatten.mergeSort Path.le, libraries.flatten.mergeSort Path.le⟩, ?_,
    fun p => ?_⟩
  · rw [scan, headers_listed, libraries_listed]
    rfl
  · rw [List.mem_mergeSort, mem_libraries]

end ArtifactLayout

namespace ConsumerInfo

open FileTree

/-! ## Names -/

/-- Keeping the first of equal names keeps all of them. -/
theorem mem_foldl_known (names known : List String) (name : String) :
    name ∈ names.foldl (fun known name => if known.contains name then known else known ++ [name])
        known ↔ name ∈ known ∨ name ∈ names := by
  induction names generalizing known with
  | nil => simp
  | cons first names induction =>
      rw [List.foldl_cons, induction]
      by_cases listed : first ∈ known
      · rw [if_pos (List.contains_iff_mem.mpr listed), List.mem_cons]
        constructor
        · exact Or.imp_right Or.inr
        · rintro (earlier | rfl | later)
          · exact Or.inl earlier
          · exact Or.inl listed
          · exact Or.inr later
      · rw [if_neg (fun contains => listed (List.contains_iff_mem.mp contains)), List.mem_append,
          List.mem_singleton, List.mem_cons, or_assoc]

/-- A library lies in a declared directory and ends in a name exactly if it has the components of
the directory and that name. -/
theorem liesIn_iff {libDirs : List Path} {library : Path} {text : String} :
    liesIn libDirs library = true ∧ library.fileName? = some text ↔
      ∃ dir ∈ libDirs, ∃ name : Name, text = name.text ∧
        library.components = dir.components ++ [.normal name] := by
  constructor
  · rintro ⟨lies, ends⟩
    rw [liesIn, Option.any_eq_true] at lies
    obtain ⟨parent, is_parent, declared⟩ := lies
    obtain ⟨dir, member, same⟩ := List.any_eq_true.mp declared
    rw [Path.same, beq_iff_eq, Path.components_parent? is_parent] at same
    rw [Path.fileName?] at ends
    split at ends
    · rename_i name last
      refine ⟨dir, member, name, (Option.some.inj ends).symm, ?_⟩
      obtain ⟨front, whole⟩ := List.getLast?_eq_some_iff.mp last
      rw [same, whole, List.dropLast_concat]
    · exact absurd ends (by simp)
  · rintro ⟨dir, member, name, rfl, whole⟩
    obtain ⟨parent, is_parent, same⟩ := Path.exists_parent? whole
    constructor
    · rw [liesIn, is_parent, Option.any_some, List.any_eq_true]
      exact ⟨dir, member, by rw [Path.same, same, beq_self_eq_true]⟩
    · rw [Path.fileName?, whole, List.getLast?_concat]

theorem mem_discover_iff {libraries libDirs : List Path} {link : String} :
    link ∈ discover libraries libDirs ↔ ∃ library ∈ libraries, ∃ dir ∈ libDirs, ∃ name : Name,
      library.components = dir.components ++ [.normal name] ∧
        Library.linkName? name.text = some link := by
  rw [discover, mem_foldl_known]
  simp only [List.not_mem_nil, false_or, List.mem_filterMap, List.mem_mergeSort, List.mem_filter,
    Option.bind_eq_some_iff]
  constructor
  · rintro ⟨library, ⟨member, lies⟩, text, ends, linked⟩
    obtain ⟨dir, declared, name, rfl, whole⟩ := liesIn_iff.mp ⟨lies, ends⟩
    exact ⟨library, member, dir, declared, name, whole, linked⟩
  · rintro ⟨library, member, dir, declared, name, whole, linked⟩
    obtain ⟨lies, ends⟩ := liesIn_iff.mpr ⟨dir, declared, name, rfl, whole⟩
    exact ⟨library, ⟨member, lies⟩, name.text, ends, linked⟩

/-! ## Directories seen from the package -/

/-- Whether a file of a declared directory is seen from the package as a file of some declared
directory. -/
def SeenIn (root : Path) (libDirs : List Path) (dir : Path) (name : Name) : Prop :=
  ∃ other ∈ libDirs,
    (root.under ((root.join dir).descend [name])).components = other.components ++ [.normal name]

open PackageBuild.Path (components_join_of_relative)

variable {root dir : Path} {libDirs : List Path} {name : Name}

/-- The files of a directory below the package are seen through the declared directories with the
components that lead there. -/
theorem seenIn_iff_of_below {more : List Component}
    (below : (root.join dir).components = root.components ++ more) :
    SeenIn root libDirs dir name ↔ ∃ other ∈ libDirs, other.components = more := by
  have file_below : ((root.join dir).descend [name]).components =
      root.components ++ (more ++ [.normal name]) := by
    rw [Path.components_descend, below, List.append_assoc, List.map_singleton]
  rw [SeenIn, Path.components_under file_below]
  simp only [List.append_cancel_right_eq, eq_comm]

theorem seenIn_iff_of_relative (relative : dir.isAbsolute = false) :
    SeenIn root libDirs dir name ↔ ∃ other ∈ libDirs,
      other.components = if root.text = "" then dir.components else dir.inner :=
  seenIn_iff_of_below (components_join_of_relative root relative)

/-- A directory that is spelled as the package sees it: a relative one without a dot at its head,
which does not matter at an empty path, or an absolute one that is looked for from a relative
path. -/
def Plain (root dir : Path) : Prop :=
  if dir.isAbsolute = true then root.isAbsolute = false
  else root.text = "" ∨ dir.components.head? ≠ some .current

instance : Decidable (Plain root dir) := inferInstanceAs (Decidable (ite _ _ _))

theorem Plain.seenIn (plain : Plain root dir) (declared : dir ∈ libDirs) :
    SeenIn root libDirs dir name := by
  rw [Plain] at plain
  split at plain
  · rename_i absolute
    refine ⟨dir, declared, ?_⟩
    have components : ((root.join dir).descend [name]).components =
        dir.components ++ [.normal name] := by
      rw [Path.join, if_pos absolute, Path.components_descend, List.map_singleton]
    have starts := Path.head?_components_iff.mpr absolute
    have file_absolute : ((root.join dir).descend [name]).isAbsolute = true := by
      rw [← Path.head?_components_iff, components, List.head?_append, starts]
      rfl
    rw [Path.components_under_of_relative plain file_absolute, components]
  · rename_i relative
    refine (seenIn_iff_of_relative (eq_false_of_ne_true relative)).mpr
      ⟨dir, declared, ?_⟩
    rcases plain with empty | no_dot
    · rw [if_pos empty]
    · rw [Path.inner_of_ne_current no_dot, ite_self]

/-! ## Discovered names -/

variable {config : ConsumerConfig}

/-- The scan of a package succeeds whatever is there, and the published names are those of the
library files that lie directly in a declared directory and are seen from the package in one. -/
theorem exists_scan_libs (discovers : config.libs = .discover) (t : FileTree) (root : Path) :
    ∃ layout, ArtifactLayout.scan t root config.includeDirs config.libDirs = .ok layout ∧
      ∀ link, link ∈ (publish config layout).libs ↔
        ∃ dir ∈ config.libDirs, ∃ name, t.HasFile (root.join dir) name ∧
          Library.linkName? name.text = some link ∧ SeenIn root config.libDirs dir name := by
  obtain ⟨layout, scanned, mem_libraries⟩ :=
    ArtifactLayout.exists_scan t root config.includeDirs config.libDirs
  refine ⟨layout, scanned, fun link => ?_⟩
  rw [publish, discovers, mem_discover_iff]
  constructor
  · rintro ⟨library, listed, other, declared, name, whole, linked⟩
    obtain ⟨dir, searched, found, has, rfl⟩ := (mem_libraries library).mp listed
    obtain rfl : name = found := Path.last_under (by rw [whole, List.getLast?_concat])
    exact ⟨dir, searched, name, has, linked, other, declared, whole⟩
  · rintro ⟨dir, searched, name, has, linked, other, declared, whole⟩
    exact ⟨_, (mem_libraries _).mpr ⟨dir, searched, name, has, rfl⟩, other, declared, name,
      whole, linked⟩

/-- The published names are those of the library files that lie directly in a declared directory and
are seen from the package in one. A directory below the package is seen in those with the components
that lead there, which for a relative one are its own but for a dot at its head. With plainly
spelled directories only, all library files count. -/
theorem mem_libs_iff (discovers : config.libs = .discover) (t : FileTree) (root : Path) :
    ∃ layout, ArtifactLayout.scan t root config.includeDirs config.libDirs = .ok layout ∧
      (∀ link, link ∈ (publish config layout).libs ↔
        ∃ dir ∈ config.libDirs, ∃ name, t.HasFile (root.join dir) name ∧
          Library.linkName? name.text = some link ∧ SeenIn root config.libDirs dir name) ∧
      (∀ dir name more, (root.join dir).components = root.components ++ more →
        (SeenIn root config.libDirs dir name ↔
          ∃ other ∈ config.libDirs, other.components = more)) ∧
      (∀ dir, dir.isAbsolute = false → (root.join dir).components =
        root.components ++ if root.text = "" then dir.components else dir.inner) ∧
      ((∀ dir ∈ config.libDirs, Plain root dir) →
        ∀ link, link ∈ (publish config layout).libs ↔
          ∃ dir ∈ config.libDirs, ∃ name, t.HasFile (root.join dir) name ∧
            Library.linkName? name.text = some link) := by
  obtain ⟨layout, scanned, mem_libs⟩ := exists_scan_libs discovers t root
  refine ⟨layout, scanned, mem_libs, fun dir name more => seenIn_iff_of_below,
    fun dir => components_join_of_relative root, fun plain link => ?_⟩
  rw [mem_libs]
  constructor
  · rintro ⟨dir, searched, name, has, linked, -⟩
    exact ⟨dir, searched, name, has, linked⟩
  · rintro ⟨dir, searched, name, has, linked⟩
    exact ⟨dir, searched, name, has, linked, (plain dir searched).seenIn searched⟩

/-- The package of the small project, with one library. -/
def smallPackage : FileTree :=
  .ofEntries [
    (Path.land [] ⟨"/pkg"⟩, .directory),
    (Path.land [] ⟨"/pkg/package"⟩, .directory),
    (Path.land [] ⟨"/pkg/package/lib"⟩, .directory),
    (Path.land [] ⟨"/pkg/package/lib/libmini.a"⟩, .file "lib".toUTF8 false)]

theorem smallPackage_hasFile (dir : Path) (spelled : dir ∈ [⟨"lib"⟩, (⟨"./lib"⟩ : Path)]) :
    smallPackage.HasFile ((⟨"/pkg/package"⟩ : Path).join dir) ⟨"libmini.a", by decide⟩ := by
  have found : smallPackage.find ((⟨"/pkg/package"⟩ : Path).join dir) =
      .ok (Path.land [] ⟨"/pkg/package/lib"⟩, .directory) := by
    revert dir
    decide +kernel
  exact ⟨_, found, by decide +kernel⟩

/-- The library of the small package is found in the default directory. -/
theorem small_package_discovered :
    ∃ recipe prepared layout,
      Recipe.FromSmall "" recipe ∧
      recipe.prepare Recipe.plainOptions {} {} = .ok prepared ∧
      recipe.consumer.libs = .discover ∧
      ArtifactLayout.scan smallPackage prepared.packageDir recipe.consumer.includeDirs
        recipe.consumer.libDirs = .ok layout ∧
      "mini" ∈ (publish recipe.consumer layout).libs := by
  obtain ⟨recipe, prepared, read, ready, fit⟩ := Recipe.exists_of_prepareSmall? ""
    Recipe.plainOptions (fun recipe prepared => decide (recipe.consumer = {} ∧
      prepared.packageDir = ⟨"/pkg/package"⟩)) (by decide +kernel)
  obtain ⟨consumer, package_dir⟩ := of_decide_eq_true fit
  have discovers : recipe.consumer.libs = .discover := by rw [consumer]
  obtain ⟨layout, scanned, -, -, -, all⟩ :=
    mem_libs_iff discovers smallPackage prepared.packageDir
  refine ⟨recipe, prepared, layout, read, ready, discovers, scanned, ?_⟩
  rw [consumer, package_dir] at all
  rw [consumer, all (by decide +kernel)]
  exact ⟨⟨"lib"⟩, by decide, _, smallPackage_hasFile _ (by decide), by decide +kernel⟩

/-- The library of the small package is not found when the default directory is declared with a dot
at its head. -/
theorem small_package_missed :
    ∃ recipe prepared layout,
      Recipe.FromSmall "[consumer]\nlibdirs = [\"./lib\"]" recipe ∧
      recipe.prepare Recipe.plainOptions {} {} = .ok prepared ∧
      recipe.consumer.libs = .discover ∧
      ArtifactLayout.scan smallPackage prepared.packageDir recipe.consumer.includeDirs
        recipe.consumer.libDirs = .ok layout ∧
      ¬∀ link, link ∈ (publish recipe.consumer layout).libs ↔
        ∃ dir ∈ recipe.consumer.libDirs, ∃ name,
          smallPackage.HasFile (prepared.packageDir.join dir) name ∧
            Library.linkName? name.text = some link := by
  obtain ⟨recipe, prepared, read, ready, fit⟩ := Recipe.exists_of_prepareSmall?
    "[consumer]\nlibdirs = [\"./lib\"]" Recipe.plainOptions (fun recipe prepared =>
      decide (recipe.consumer = { libDirs := [⟨"./lib"⟩] } ∧
        prepared.packageDir = ⟨"/pkg/package"⟩)) (by decide +kernel)
  obtain ⟨consumer, package_dir⟩ := of_decide_eq_true fit
  have discovers : recipe.consumer.libs = .discover := by rw [consumer]
  obtain ⟨layout, scanned, mem_libs⟩ :=
    exists_scan_libs discovers smallPackage prepared.packageDir
  refine ⟨recipe, prepared, layout, read, ready, discovers, scanned, fun claimed => ?_⟩
  have listed : "mini" ∈ (publish recipe.consumer layout).libs := by
    rw [claimed, consumer, package_dir]
    exact ⟨⟨"./lib"⟩, by decide, _, smallPackage_hasFile _ (by decide), by decide +kernel⟩
  obtain ⟨dir, searched, name, -, -, seen⟩ := (mem_libs "mini").mp listed
  rw [consumer] at searched seen
  obtain rfl := List.mem_singleton.mp searched
  rw [package_dir, seenIn_iff_of_relative (by decide)] at seen
  exact absurd seen (by decide +kernel)

end ConsumerInfo
end PackageBuild
