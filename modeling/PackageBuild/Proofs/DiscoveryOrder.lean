import Mathlib.Data.String.Basic
import Mathlib.Order.Bounds.Basic
import PackageBuild.Proofs.Discovery
/-!
# The order of discovered libraries

Discovered names stand in the order of the first files that give them, each once. So the list is
fixed by which libraries there are and which directories are declared: neither the order in which
they are given nor a repetition among them is of any account.
-/

namespace PackageBuild
namespace ConsumerInfo

/-- Whether a library lies directly in one of some directories, under a file name that is linked
under this name. -/
def Gives (libraries libDirs : List Path) (link file : String) : Prop :=
  Library.linkName? file = some link ∧ ∃ library ∈ libraries, library.fileName? = some file ∧
    ∃ parent, library.parent? = some parent ∧ ∃ dir ∈ libDirs, dir.same parent = true

/-- Whether the smallest file name that gives one name is smaller than that of another. -/
def Earlier (libraries libDirs : List Path) (first second : String) : Prop :=
  ∃ file other, IsLeast {f | Gives libraries libDirs first f} file ∧
    IsLeast {f | Gives libraries libDirs second f} other ∧ file < other

variable {libraries libDirs : List Path} {link first second file : String}

theorem Earlier.asymm (earlier : Earlier libraries libDirs first second) :
    ¬Earlier libraries libDirs second first := by
  rintro ⟨other', file', least_other', least_file', after⟩
  obtain ⟨file, other, least_file, least_other, before⟩ := earlier
  obtain rfl := least_file.unique least_file'
  obtain rfl := least_other.unique least_other'
  exact before.asymm after

/-! ## File names in order -/

/-- The file names of the libraries that lie directly in some directories, from the smallest. -/
def fileNames (libraries libDirs : List Path) : List String :=
  ((libraries.filter (liesIn libDirs)).mergeSort nameLe).filterMap Path.fileName?

theorem gives_iff : Gives libraries libDirs link file ↔
    file ∈ fileNames libraries libDirs ∧ Library.linkName? file = some link := by
  simp only [Gives, fileNames, List.mem_filterMap, List.mem_mergeSort, List.mem_filter, liesIn,
    Option.any_eq_true, List.any_eq_true]
  constructor
  · rintro ⟨linked, library, member, ends, lies⟩
    exact ⟨⟨library, ⟨member, lies⟩, ends⟩, linked⟩
  · rintro ⟨⟨library, ⟨member, lies⟩, ends⟩, linked⟩
    exact ⟨linked, library, member, ends, lies⟩

theorem pairwise_fileNames (libraries libDirs : List Path) :
    (fileNames libraries libDirs).Pairwise (· ≤ ·) := by
  have trans : ∀ a b c : Path, nameLe a b = true → nameLe b c = true → nameLe a c = true :=
    fun _ _ _ => Std.TransCmp.isLE_trans
  have total : ∀ a b : Path, (nameLe a b || nameLe b a) = true :=
    fun a b => isLE_compare_total a.fileName? b.fileName?
  rw [fileNames, List.pairwise_filterMap]
  refine (List.pairwise_mergeSort trans total _).imp fun {a b} ordered file ends other ends' => ?_
  rw [nameLe, ends, ends', Ordering.isLE_iff_ne_gt] at ordered
  exact compare_le_iff_le.mp ordered

theorem exists_isLeast (gives : Gives libraries libDirs link file) :
    ∃ least, IsLeast {f | Gives libraries libDirs link f} least := by
  have listed : ∀ f, Gives libraries libDirs link f ↔
      f ∈ (fileNames libraries libDirs).filter (Library.linkName? · = some link) := by
    simp [gives_iff]
  have sorted := (pairwise_fileNames libraries libDirs).filter (Library.linkName? · = some link)
  simp only [listed]
  rw [listed] at gives
  cases names : (fileNames libraries libDirs).filter (Library.linkName? · = some link) with
  | nil => simp [names] at gives
  | cons least rest =>
      rw [names] at sorted
      refine ⟨least, List.mem_cons_self, fun other member => ?_⟩
      rcases List.mem_cons.mp member with rfl | later
      · exact le_rfl
      · exact (List.pairwise_cons.mp sorted).1 other later

/-! ## Names in order -/

theorem pairwise_foldl_known (names : List String) :
    (names.foldl (fun known name => if known.contains name then known else known ++ [name])
        []).Pairwise
      fun first second => ∃ front, front <+: names ∧ first ∈ front ∧ second ∉ front := by
  induction names using List.reverseRecOn with
  | nil => exact List.Pairwise.nil
  | append_singleton names name induction =>
      have kept := induction.imp fun {first second} ⟨front, starts, met, unmet⟩ =>
        (⟨front, starts.trans (List.prefix_append names [name]), met, unmet⟩ :
          ∃ front, front <+: names ++ [name] ∧ first ∈ front ∧ second ∉ front)
      rw [List.foldl_concat]
      split
      · exact kept
      · rename_i unknown
        rw [List.contains_iff_mem, mem_foldl_known] at unknown
        refine List.pairwise_append.mpr ⟨kept, List.pairwise_singleton _ _, ?_⟩
        intro first member second behind
        rw [mem_foldl_known] at member
        rw [List.mem_singleton.mp behind]
        exact ⟨names, List.prefix_append names [name], by simpa using member,
          by simpa using unknown⟩

theorem discover_eq_foldl (libraries libDirs : List Path) :
    discover libraries libDirs =
      ((fileNames libraries libDirs).filterMap Library.linkName?).foldl
        (fun known name => if known.contains name then known else known ++ [name]) [] := by
  rw [discover, fileNames, List.filterMap_filterMap]

theorem earlier_of_met {front : List String}
    (starts : front <+: (fileNames libraries libDirs).filterMap Library.linkName?)
    (met : first ∈ front) (unmet : second ∉ front)
    (gives : Gives libraries libDirs second file) : Earlier libraries libDirs first second := by
  obtain ⟨back, split⟩ := starts
  obtain ⟨early, late, files, rfl, -⟩ := List.filterMap_eq_append_iff.mp split.symm
  obtain ⟨met_file, in_early, linked⟩ := List.mem_filterMap.mp met
  have gives_first : Gives libraries libDirs first met_file :=
    gives_iff.mpr ⟨files ▸ List.mem_append_left late in_early, linked⟩
  obtain ⟨least, is_least⟩ := exists_isLeast gives_first
  obtain ⟨other, other_least⟩ := exists_isLeast gives
  obtain ⟨listed, other_linked⟩ := gives_iff.mp other_least.1
  have in_late : other ∈ late := by
    rw [files, List.mem_append] at listed
    exact listed.resolve_left fun in_early =>
      unmet (List.mem_filterMap.mpr ⟨other, in_early, other_linked⟩)
  have sorted := pairwise_fileNames libraries libDirs
  rw [files, List.pairwise_append] at sorted
  have different : met_file ≠ other := by
    rintro rfl
    exact unmet (Option.some.inj (linked.symm.trans other_linked) ▸ met)
  refine ⟨least, other, is_least, other_least, ?_⟩
  calc
    least ≤ met_file := is_least.2 gives_first
    _ < other := lt_of_le_of_ne (sorted.2.2 _ in_early _ in_late) different

theorem mem_discover_iff_gives :
    link ∈ discover libraries libDirs ↔ ∃ file, Gives libraries libDirs link file := by
  rw [discover_eq_foldl, mem_foldl_known]
  simp [gives_iff]

theorem pairwise_earlier_discover (libraries libDirs : List Path) :
    (discover libraries libDirs).Pairwise (Earlier libraries libDirs) := by
  have met := pairwise_foldl_known ((fileNames libraries libDirs).filterMap Library.linkName?)
  rw [← discover_eq_foldl] at met
  refine met.imp_of_mem fun {first second} _ member ⟨front, starts, met, unmet⟩ => ?_
  obtain ⟨file, gives⟩ := mem_discover_iff_gives.mp member
  exact earlier_of_met starts met unmet gives

theorem nodup_discover (libraries libDirs : List Path) : (discover libraries libDirs).Nodup := by
  refine (pairwise_earlier_discover libraries libDirs).imp fun {first second} earlier => ?_
  rintro rfl
  exact earlier.asymm earlier

theorem discover_congr {libraries' libDirs' : List Path}
    (same : Gives libraries' libDirs' = Gives libraries libDirs) :
    discover libraries' libDirs' = discover libraries libDirs := by
  have ordered := pairwise_earlier_discover libraries' libDirs'
  have earlier_eq : Earlier libraries' libDirs' = Earlier libraries libDirs := by
    unfold Earlier
    rw [same]
  rw [earlier_eq] at ordered
  have perm : (discover libraries' libDirs').Perm (discover libraries libDirs) := by
    rw [List.perm_ext_iff_of_nodup (nodup_discover _ _) (nodup_discover _ _)]
    intro link
    rw [mem_discover_iff_gives, mem_discover_iff_gives, same]
  refine perm.eq_of_pairwise (fun first second _ _ earlier later => ?_) ordered
    (pairwise_earlier_discover libraries libDirs)
  exact absurd later earlier.asymm

variable {config : ConsumerConfig}

/-- Discovered names are listed once each, in the order of the smallest file names that give them,
and are those of the library files whose parent is one of the declared directories. Layouts with the
same libraries and configurations with the same directories, in any order and any number, lead to
the same list. -/
theorem libs_ordered (discovers : config.libs = .discover) (layout : ArtifactLayout) :
    (publish config layout).libs.Nodup ∧
    (∀ link, link ∈ (publish config layout).libs ↔
      ∃ file, Gives layout.libraries config.libDirs link file) ∧
    (publish config layout).libs.Pairwise (Earlier layout.libraries config.libDirs) ∧
    ∀ (config' : ConsumerConfig) (layout' : ArtifactLayout), config'.libs = .discover →
      (∀ library, library ∈ layout'.libraries ↔ library ∈ layout.libraries) →
      (∀ dir, dir ∈ config'.libDirs ↔ dir ∈ config.libDirs) →
      (publish config' layout').libs = (publish config layout).libs := by
  have discovered : (publish config layout).libs = discover layout.libraries config.libDirs := by
    rw [publish, discovers]
  rw [discovered]
  refine ⟨nodup_discover _ _, fun link => mem_discover_iff_gives, pairwise_earlier_discover _ _,
    fun config' layout' discovers' same_libraries same_dirs => ?_⟩
  rw [publish, discovers']
  refine discover_congr ?_
  funext link file
  simp only [Gives, same_libraries, same_dirs]

/-- Three libraries, two of which are linked under one name, and a file that is none. -/
def shelfLayout : ArtifactLayout where
  root := ⟨"/pkg/package"⟩
  headers := []
  libraries := [⟨"lib/beta.lib"⟩, ⟨"lib/libalpha.a"⟩, ⟨"lib/libbeta.so"⟩, ⟨"lib/notes.txt"⟩]

theorem discover_shelf : discover shelfLayout.libraries [⟨"lib"⟩] = ["beta", "alpha"] := by
  have direct : shelfLayout.libraries.filter (liesIn [⟨"lib"⟩]) = shelfLayout.libraries := by
    decide +kernel
  have sorted : shelfLayout.libraries.Pairwise fun a b => nameLe a b = true := by decide +kernel
  rw [discover, direct, List.mergeSort_of_pairwise sorted]
  decide +kernel

/-- The name `beta` comes first because of `beta.lib`, in whatever order and number the libraries
and the directories are given. -/
theorem shelf_libs_ordered :
    ({} : ConsumerConfig).libs = .discover ∧
    (publish {} shelfLayout).libs = ["beta", "alpha"] ∧
    (publish {} shelfLayout).libs.Nodup ∧
    (publish { libDirs := [⟨"lib"⟩, ⟨"lib"⟩] } { shelfLayout with
      libraries := shelfLayout.libraries.reverse ++ shelfLayout.libraries }).libs =
        (publish {} shelfLayout).libs := by
  have discovers : ({} : ConsumerConfig).libs = .discover := rfl
  obtain ⟨nodup, -, -, same⟩ := libs_ordered discovers shelfLayout
  refine ⟨discovers, discover_shelf, nodup, same _ _ rfl ?_ ?_⟩
  · intro library
    rw [List.mem_append, List.mem_reverse, or_self]
  · intro dir
    rw [List.mem_cons, List.mem_singleton, or_self, ← List.mem_singleton]

end ConsumerInfo
end PackageBuild
