import Mathlib.Data.List.Nodup
import PackageBuild.Proofs.Fingerprint
import PackageBuild.Proofs.Path.Names
import PackageBuild.Proofs.Scanning
/-!
# Directories that overlap

A scan searches one declared directory after the other and sorts what it has found, so it lists a
file once for each directory that contains it. No file is listed twice, or counted twice in the
fingerprint, exactly if no two of the searches meet in a file.
-/

namespace PackageBuild

/-! ## Counting -/

theorem countP_eq_of_nodup {α β : Type} [DecidableEq β] {f : α → β} {items : List α}
    (nodup : (items.map f).Nodup) (b : β) :
    items.countP (fun a => f a = b) = if ∃ a ∈ items, f a = b then 1 else 0 := by
  have count : items.countP (fun a => f a = b) = (items.map f).count b := by
    rw [List.count_eq_countP, List.countP_map]
    rfl
  rw [count, nodup.count]
  simp only [List.mem_map]

theorem countP_le_one_iff {α : Type} {such : α → Bool} {items : List α} :
    items.countP such ≤ 1 ↔ items.Pairwise fun a b => such a = true → ¬such b = true := by
  induction items with
  | nil => simp
  | cons a items induction =>
      rw [List.countP_cons, List.pairwise_cons, ← induction]
      by_cases first : such a = true
      · have none_left : items.countP such = 0 ↔ ∀ b ∈ items, ¬such b = true :=
          List.countP_eq_zero
        simp only [first, if_true, true_imp_iff]
        constructor
        · intro one
          have zero : items.countP such = 0 := by omega
          exact ⟨none_left.mp zero, by omega⟩
        · rintro ⟨others, -⟩
          rw [none_left.mpr others]
      · simp [first]

theorem pairwise_forall_iff {α β : Type} {related : β → α → α → Prop} {items : List α} :
    items.Pairwise (fun a b => ∀ x, related x a b) ↔ ∀ x, items.Pairwise (related x) := by
  simp only [List.pairwise_iff_forall_sublist]
  exact ⟨fun all x a b sub => all sub x, fun all a b sub x => all x sub⟩

namespace ArtifactLayout

open FileTree

/-- A directory of a package that is searched for files: all the way down, or only for those that
lie directly in it. -/
structure Search where
  direct : Bool
  dir : Path

/-- Whether a search meets a regular file. -/
def Search.Meets (t : FileTree) (root : Path) (search : Search) (file : Location) : Prop :=
  t.HoldsFile file ∧ ∃ l, t.find (root.join search.dir) = .ok (l, .directory) ∧ l <+: file ∧
    (search.direct = true → file.length = l.length + 1)

instance (t : FileTree) (root : Path) (search : Search) (file : Location) :
    Decidable (search.Meets t root file) :=
  decidable_of_iff (t.HoldsFile file ∧ (t.find (root.join search.dir)).toOption.any (fun place =>
      place.2.isDirectory && place.1.isPrefixOf file &&
        (!search.direct || file.length == place.1.length + 1)) = true) <| by
    refine and_congr_right fun _ => ?_
    cases t.find (root.join search.dir) with
    | error fault => simp [Except.toOption]
    | ok place =>
        obtain ⟨l, entry⟩ := place
        cases entry <;> simp [Except.toOption, Entry.isDirectory, or_iff_not_imp_left]

variable {t : FileTree} {root : Path} {search : Search} {searches searches' : List Search}
  {paths paths' : List Path} {l file : Location}

theorem meets_iff (free : t.LinkFree)
    (found : t.find (root.join search.dir) = .ok (l, .directory)) :
    search.Meets t root file ↔ ∃ way, file = l ++ way ∧ way ≠ [] ∧
      (search.direct = true → way.length = 1) ∧ t.HoldsFile file := by
  constructor
  · rintro ⟨held, l', found', ⟨way, rfl⟩, short⟩
    obtain ⟨rfl, -⟩ := Prod.mk.inj (Except.ok.inj (found.symm.trans found'))
    refine ⟨way, rfl, ?_, fun asked => by simpa using short asked, held⟩
    rintro rfl
    obtain ⟨content, executable, there⟩ := held
    rw [List.append_nil, ((find_eq_ok_iff free).mp found).2.2] at there
    cases there
  · rintro ⟨way, rfl, -, short, held⟩
    exact ⟨held, l, found, List.prefix_append l way, fun asked => by simp [short asked]⟩

/-- Whether no two of some searches meet the same file. -/
def Apart (t : FileTree) (root : Path) (searches : List Search) : Prop :=
  searches.Pairwise fun search other =>
    ∀ file, search.Meets t root file → ¬other.Meets t root file

/-- Whether all searches start from directories below the package. -/
def Inward (searches : List Search) : Prop := ∀ search ∈ searches, ∃ names, search.dir.Through names

/-- Whether paths list the files that some searches meet: each path leads from the package through
names to a file, and each file is listed as often as it is met. -/
structure Lists (t : FileTree) (root : Path) (searches : List Search) (paths : List Path) :
    Prop where
  /-- Every path goes through names and leads to a file; from the empty path it may start with a
  dot. -/
  leads : ∀ p ∈ paths, ∃ names, p.Through names ∧ (root.text ≠ "" → p.components = p.inner) ∧
    ∃ content executable,
      t.find (root.join p) = .ok (root.land t.here ++ names, .file content executable)
  /-- As many paths go through some names as searches meet the file that they lead to. -/
  counted : ∀ names, paths.countP (fun p => p.Through names) =
    searches.countP fun search => search.Meets t root (root.land t.here ++ names)

namespace Lists

theorem nil : Lists t root [] [] := ⟨by simp, fun _ => rfl⟩

theorem append (first : Lists t root searches paths) (rest : Lists t root searches' paths') :
    Lists t root (searches ++ searches') (paths ++ paths') where
  leads p member := (List.mem_append.mp member).elim (first.leads p) (rest.leads p)
  counted names := by rw [List.countP_append, List.countP_append, first.counted, rest.counted]

theorem perm (listed : Lists t root searches paths) (same : paths'.Perm paths) :
    Lists t root searches paths' where
  leads p member := listed.leads p (same.mem_iff.mp member)
  counted names := by rw [same.countP_eq, listed.counted]

end Lists

/-! ## One search -/

theorem exists_filesIn_lists (free : t.LinkFree) (root : Path) {search : Search}
    {names : List Name} (through : search.dir.Through names) :
    ∃ paths, filesIn t root search.direct search.dir = .ok paths ∧
      Lists t root [search] paths := by
  by_cases there : t.isDir (root.join search.dir) = true
  · obtain ⟨l, found⟩ := isDir_iff.mp there
    obtain ⟨ways, listed, nodup, mem_ways⟩ := exists_ways found search.direct
    have place : l = root.land t.here ++ names := by
      rw [eq_land_of_find free found, through.land_join]
    have seen {way : Location} (member : way ∈ ways) :
        let p := root.under ((root.join search.dir).descend way)
        p.Through (names ++ way) ∧ (root.text ≠ "" → p.components = p.inner) ∧
          ∃ name, p.EndsIn name := by
      obtain ⟨front, name, rfl⟩ := (List.eq_nil_or_concat' way).resolve_left
        ((mem_ways way).mp member).1
      obtain ⟨seen_through, ends, components⟩ := Path.through_under through front name
      exact ⟨seen_through, components, name, ends⟩
    refine ⟨_, listed, ⟨fun p member => ?_, fun all => ?_⟩⟩
    · obtain ⟨way, gone, rfl⟩ := List.mem_map.mp member
      obtain ⟨seen_through, components, name, ends⟩ := seen gone
      obtain ⟨-, -, content, executable, holds⟩ := (mem_ways way).mp gone
      rw [place, List.append_assoc] at holds
      exact ⟨_, seen_through, components, content, executable,
        find_join_of_through free (opens_of_find_join free through found) seen_through ends holds⟩
    · have distinct : (ways.map (names ++ ·)).Nodup :=
        nodup.map (List.append_right_injective names)
      have met : (∃ way ∈ ways, names ++ way = all) ↔
          search.Meets t root (root.land t.here ++ all) := by
        simp only [meets_iff free found, mem_ways, place, List.append_assoc,
          List.append_cancel_left_eq]
        constructor
        · rintro ⟨way, ⟨some_way, short, held⟩, rfl⟩
          exact ⟨way, rfl, some_way, short, held⟩
        · rintro ⟨way, rfl, some_way, short, held⟩
          exact ⟨way, ⟨some_way, short, held⟩, rfl⟩
      calc (ways.map fun way => root.under ((root.join search.dir).descend way)).countP
            (fun p => p.Through all)
          = ways.countP fun way => names ++ way = all := by
            rw [List.countP_map]
            refine List.countP_congr fun way gone => ?_
            have seen_through := (seen gone).1
            simp only [Function.comp_apply, decide_eq_true_eq]
            exact ⟨seen_through.unique, fun same => same ▸ seen_through⟩
        _ = if ∃ way ∈ ways, names ++ way = all then 1 else 0 := countP_eq_of_nodup distinct all
        _ = [search].countP fun search => search.Meets t root (root.land t.here ++ all) := by
            simp [met]
  · refine ⟨[], by rw [filesIn, if_neg there], by simp, fun all => ?_⟩
    have missed : ¬search.Meets t root (root.land t.here ++ all) := by
      rintro ⟨-, l, found, -⟩
      exact there (isDir_iff.mpr ⟨l, found⟩)
    simp [missed]

/-! ## One search after the other -/

theorem exists_mapM_lists (free : t.LinkFree) (root : Path) (direct : Bool) {dirs : List Path}
    (inward : Inward (dirs.map (⟨direct, ·⟩))) :
    ∃ lists, dirs.mapM (filesIn t root direct) = .ok lists ∧
      Lists t root (dirs.map (⟨direct, ·⟩)) lists.flatten := by
  induction dirs with
  | nil => exact ⟨[], rfl, .nil⟩
  | cons dir dirs induction =>
      obtain ⟨⟨names, through⟩, others⟩ := List.forall_mem_cons.mp inward
      obtain ⟨paths, first, listed⟩ := exists_filesIn_lists free root through
      obtain ⟨lists, rest, listed_rest⟩ := induction others
      refine ⟨paths :: lists, ?_, listed.append listed_rest⟩
      rw [List.mapM_cons, first, rest]
      rfl

/-! ## Nothing twice -/

theorem Search.Meets.exists_names (free : t.LinkFree) {names : List Name}
    (through : search.dir.Through names) (met : search.Meets t root file) :
    ∃ all, file = root.land t.here ++ all := by
  obtain ⟨-, l, found, ⟨way, rfl⟩, -⟩ := met
  exact ⟨names ++ way, by
    rw [eq_land_of_find free found, through.land_join, List.append_assoc]⟩

theorem apart_iff (free : t.LinkFree) (inward : Inward searches) :
    Apart t root searches ↔ ∀ names, searches.countP (fun search =>
      search.Meets t root (root.land t.here ++ names)) ≤ 1 := by
  simp only [countP_le_one_iff, decide_eq_true_eq, ← pairwise_forall_iff]
  refine List.Pairwise.iff_of_mem fun {search other} member _ => ?_
  obtain ⟨names, through⟩ := inward search member
  constructor
  · exact fun apart names => apart _
  · intro apart file met
    obtain ⟨all, rfl⟩ := met.exists_names free through
    exact apart all met

/-- No file is listed twice exactly if no two searches meet in one. -/
theorem Lists.nodup_iff (listed : Lists t root searches paths) (free : t.LinkFree)
    (inward : Inward searches) : (paths.map Path.inner).Nodup ↔ Apart t root searches := by
  have count (names : List Name) : (paths.map Path.inner).count (names.map .normal) =
      paths.countP fun p => p.Through names := by
    rw [List.count_eq_countP, List.countP_map]
    refine List.countP_congr fun p _ => ?_
    simp only [Function.comp_apply, beq_iff_eq, decide_eq_true_eq]
    rfl
  rw [apart_iff free inward, List.nodup_iff_count_le_one]
  simp only [← listed.counted, ← count]
  refine ⟨fun once names => once _, fun once cs => ?_⟩
  by_cases member : cs ∈ paths.map Path.inner
  · obtain ⟨p, listed_path, rfl⟩ := List.mem_map.mp member
    obtain ⟨names, through, -⟩ := listed.leads p listed_path
    rw [through]
    exact once names
  · rw [List.count_eq_zero_of_not_mem member]
    exact Nat.zero_le 1

theorem pairwise_precedes_iff (sorted : paths.Pairwise fun p q => p.le q = true) :
    paths.Pairwise Path.Precedes ↔ (paths.map Path.components).Nodup := by
  rw [List.Nodup, List.pairwise_map]
  constructor
  · intro increasing
    apply increasing.imp
    intro p q earlier same
    have differ := earlier.2
    rw [Path.same, same, beq_self_eq_true] at differ
    cases differ
  · intro nodup
    apply (sorted.and nodup).imp
    intro p q ordered
    exact ⟨ordered.1, eq_false_of_ne_true fun same => ordered.2 (beq_iff_eq.mp same)⟩

theorem Lists.precedes_of_apart (listed : Lists t root searches paths) (free : t.LinkFree)
    (inward : Inward searches) (sorted : paths.Pairwise fun p q => p.le q = true)
    (apart : Apart t root searches) : paths.Pairwise Path.Precedes := by
  have nodup := (listed.nodup_iff free inward).mpr apart
  have inner : paths.map Path.inner =
      (paths.map Path.components).map (·.dropWhile (· = .current)) := by
    rw [List.map_map]
    rfl
  rw [inner] at nodup
  exact (pairwise_precedes_iff sorted).mpr nodup.of_map

theorem Lists.precedes_iff (listed : Lists t root searches paths) (free : t.LinkFree)
    (inward : Inward searches) (sorted : paths.Pairwise fun p q => p.le q = true)
    (some_text : root.text ≠ "") : paths.Pairwise Path.Precedes ↔ Apart t root searches := by
  have inner : paths.map Path.components = paths.map Path.inner := by
    refine List.map_congr_left fun p member => ?_
    obtain ⟨names, -, components, -⟩ := listed.leads p member
    exact components some_text
  rw [pairwise_precedes_iff sorted, inner, listed.nodup_iff free inward]

/-! ## The whole scan -/

/-- The searches of a scan for headers. -/
def headerSearches (includeDirs : List Path) : List Search := includeDirs.map (⟨false, ·⟩)

/-- The searches of a scan for libraries. -/
def librarySearches (libDirs : List Path) : List Search := libDirs.map (⟨true, ·⟩)

variable {includeDirs libDirs : List Path}

theorem inward_of_straight
    (inward : ∀ dir ∈ includeDirs ++ libDirs, dir.isAbsolute = false ∧ dir.Straight) :
    Inward (headerSearches includeDirs) ∧ Inward (librarySearches libDirs) := by
  have through {dirs : List Path} (direct : Bool) (part : dirs ⊆ includeDirs ++ libDirs) :
      Inward (dirs.map (⟨direct, ·⟩)) := by
    intro search member
    obtain ⟨dir, declared, rfl⟩ := List.mem_map.mp member
    obtain ⟨relative, straight⟩ := inward dir (part declared)
    exact Path.exists_through relative straight
  exact ⟨through false (List.subset_append_left _ _), through true (List.subset_append_right _ _)⟩

/-- Scanning always succeeds and lists, in order, what its searches meet. -/
theorem exists_scan_lists (free : t.LinkFree) (root : Path)
    (inward_headers : Inward (headerSearches includeDirs))
    (inward_libraries : Inward (librarySearches libDirs)) :
    ∃ layout, scan t root includeDirs libDirs = .ok layout ∧ layout.root = root ∧
      Lists t root (headerSearches includeDirs) layout.headers ∧
      Lists t root (librarySearches libDirs) layout.libraries ∧
      layout.headers.Pairwise (fun p q => p.le q = true) ∧
      layout.libraries.Pairwise fun p q => p.le q = true := by
  obtain ⟨headers, found_headers, lists_headers⟩ := exists_mapM_lists free root false inward_headers
  obtain ⟨libraries, found_libraries, lists_libraries⟩ :=
    exists_mapM_lists free root true inward_libraries
  exact ⟨_, by rw [scan, found_headers, found_libraries]; rfl, rfl,
    lists_headers.perm (List.mergeSort_perm _ _), lists_libraries.perm (List.mergeSort_perm _ _),
    Path.pairwise_le_mergeSort _, Path.pairwise_le_mergeSort _⟩

/-- Scanning a package lists the files below its include directories and those directly in its
library directories, each as often as the search of a directory meets it, sorted and by a path from
the package, and the fingerprint takes in every listed path in turn. So no file is listed or counted
twice exactly if no two searches meet in one; and the headers, or the libraries, are strictly
increasing exactly if no two of their searches meet in one, where from the empty path only the `if`
holds. -/
theorem scan_once_iff_apart (free : t.LinkFree) (root : Path)
    (inward : ∀ dir ∈ includeDirs ++ libDirs, dir.isAbsolute = false ∧ dir.Straight) :
    ∃ layout digest, scan t root includeDirs libDirs = .ok layout ∧ layout.root = root ∧
      Lists t root (headerSearches includeDirs) layout.headers ∧
      Lists t root (librarySearches libDirs) layout.libraries ∧
      layout.headers.Pairwise (fun p q => p.le q = true) ∧
      layout.libraries.Pairwise (fun p q => p.le q = true) ∧
      layout.treeDigest t = .ok digest ∧ layout.fingerprint t = .ok digest.hex ∧
      digest.entries.map (·.1) = layout.listed.map Path.text ∧
      ((layout.listed.map Path.inner).Nodup ↔
        Apart t root (headerSearches includeDirs ++ librarySearches libDirs)) ∧
      (Apart t root (headerSearches includeDirs) → layout.headers.Pairwise Path.Precedes) ∧
      (Apart t root (librarySearches libDirs) → layout.libraries.Pairwise Path.Precedes) ∧
      (root.text ≠ "" →
        (layout.headers.Pairwise Path.Precedes ↔ Apart t root (headerSearches includeDirs)) ∧
        (layout.libraries.Pairwise Path.Precedes ↔ Apart t root (librarySearches libDirs))) := by
  obtain ⟨inward_headers, inward_libraries⟩ := inward_of_straight inward
  obtain ⟨layout, scanned, root_eq, headers, libraries, sorted_headers, sorted_libraries⟩ :=
    exists_scan_lists free root inward_headers inward_libraries
  have all := headers.append libraries
  have readable : ∀ file ∈ layout.listed,
      ∃ bytes, t.readBytes (layout.root.join file) = .ok bytes := by
    intro file member
    obtain ⟨_, -, -, content, executable, found⟩ := all.leads file member
    exact ⟨content, by rw [root_eq, readBytes, found]⟩
  obtain ⟨digest, digested, entries⟩ := exists_treeDigest readable
  refine ⟨layout, digest, scanned, root_eq, headers, libraries, sorted_headers, sorted_libraries,
    digested, fingerprint_eq_ok_iff.mpr ⟨digest, digested, rfl⟩, entries, ?_, ?_, ?_, ?_⟩
  · exact all.nodup_iff free (List.forall_mem_append.mpr ⟨inward_headers, inward_libraries⟩)
  · exact headers.precedes_of_apart free inward_headers sorted_headers
  · exact libraries.precedes_of_apart free inward_libraries sorted_libraries
  · exact fun some_text => ⟨headers.precedes_iff free inward_headers sorted_headers some_text,
      libraries.precedes_iff free inward_libraries sorted_libraries some_text⟩

/-- A small package with a header in a nested directory, and a library. -/
def smallNested : FileTree :=
  .ofEntries [
    (Path.land [] ⟨"/pkg"⟩, .directory),
    (Path.land [] ⟨"/pkg/include"⟩, .directory),
    (Path.land [] ⟨"/pkg/include/sub"⟩, .directory),
    (Path.land [] ⟨"/pkg/include/sub/x.h"⟩, .file "x".toUTF8 false),
    (Path.land [] ⟨"/pkg/lib"⟩, .directory),
    (Path.land [] ⟨"/pkg/lib/libmini.a"⟩, .file "lib".toUTF8 false)]

/-- The names through which the header is listed. -/
def smallHeader : List Name := [Packager.includeName, ⟨"sub", by decide⟩, ⟨"x.h", by decide⟩]

/-- With one include directory and one library directory, all searches of the small package are
apart, and its header is listed once. -/
theorem small_nested_once :
    smallNested.LinkFree ∧
    (∀ dir ∈ [(⟨"include"⟩ : Path)] ++ [⟨"./lib"⟩], dir.isAbsolute = false ∧ dir.Straight) ∧
    ∃ (layout : ArtifactLayout) (digest : TreeDigest),
      scan smallNested ⟨"/pkg"⟩ [⟨"include"⟩] [⟨"./lib"⟩] = .ok layout ∧
      layout.fingerprint smallNested = .ok digest.hex ∧
      digest.entries.map (·.1) = layout.listed.map Path.text ∧
      layout.headers.Pairwise Path.Precedes ∧
      layout.headers.countP (fun p => p.Through smallHeader) = 1 := by
  have free : smallNested.LinkFree := by decide +kernel
  have inward : ∀ dir ∈ [(⟨"include"⟩ : Path)] ++ [⟨"./lib"⟩],
      dir.isAbsolute = false ∧ dir.Straight := by decide
  have apart : Apart smallNested ⟨"/pkg"⟩ (headerSearches [⟨"include"⟩]) := by
    simp [Apart, headerSearches]
  obtain ⟨layout, digest, scanned, -, headers, -, -, -, -, fingerprint, entries, -, increasing,
    -⟩ := scan_once_iff_apart free ⟨"/pkg"⟩ inward
  refine ⟨free, inward, layout, digest, scanned, fingerprint, entries,
    increasing apart, ?_⟩
  rw [headers.counted]
  decide +kernel

/-- When the directory of the header is declared as well, the header is listed twice, and the
headers are not strictly increasing. -/
theorem small_nested_twice :
    smallNested.LinkFree ∧
    (∀ dir ∈ [(⟨"include"⟩ : Path), ⟨"include/sub"⟩],
      dir.isAbsolute = false ∧ dir.Straight) ∧
    ∃ layout, scan smallNested ⟨"/pkg"⟩ [⟨"include"⟩, ⟨"include/sub"⟩] [] = .ok layout ∧
      layout.headers.countP (fun p => p.Through smallHeader) = 2 ∧
      ¬layout.headers.Pairwise Path.Precedes := by
  have free : smallNested.LinkFree := by decide +kernel
  have inward : ∀ dir ∈ [(⟨"include"⟩ : Path), ⟨"include/sub"⟩] ++ [],
      dir.isAbsolute = false ∧ dir.Straight := by decide
  obtain ⟨inward_headers, inward_libraries⟩ := inward_of_straight inward
  obtain ⟨layout, scanned, -, headers, -, sorted, -⟩ :=
    exists_scan_lists free ⟨"/pkg"⟩ inward_headers inward_libraries
  have met_twice : (headerSearches [⟨"include"⟩, ⟨"include/sub"⟩]).countP (fun search =>
      search.Meets smallNested ⟨"/pkg"⟩ (Path.land smallNested.here ⟨"/pkg"⟩ ++
        smallHeader)) = 2 := by
    decide +kernel
  refine ⟨free, inward, layout, scanned, by rw [headers.counted, met_twice], fun increasing => ?_⟩
  have apart := (headers.precedes_iff free inward_headers sorted (by decide)).mp increasing
  have once := (apart_iff free inward_headers).mp apart smallHeader
  rw [met_twice] at once
  exact absurd once (by decide)

end ArtifactLayout
end PackageBuild
