import Mathlib.Data.List.Nodup
import PackageBuild.ArtifactLayout
import PackageBuild.Proofs.Packager.Targets
import PackageBuild.Proofs.Path.Order
/-!
# What a scan lists

A scan of a package lists, for a directory directly in it, the regular files below that directory or
directly in it, each once and in increasing order. A walk goes on from every entry to greater ones,
which is why no path is listed twice.
-/

namespace PackageBuild

open FileTree

namespace ArtifactLayout

variable {t : FileTree} {root : Path} {l : Location}

/-- Listing a directory goes the ways from there to the files that it contains, each way once. -/
theorem exists_ways {dir : Path} (found : t.find (root.join dir) = .ok (l, .directory))
    (direct : Bool) :
    ∃ ways : List Location,
      filesIn t root direct dir =
        .ok (ways.map fun way => root.under ((root.join dir).descend way)) ∧
      ways.Nodup ∧
      ∀ way, way ∈ ways ↔
        way ≠ [] ∧ (direct = true → way.length = 1) ∧ t.HoldsFile (l ++ way) := by
  obtain ⟨files, met, member_iff⟩ := mem_filesMet_iff none found
  refine ⟨(files.filter fun file => !direct || file.way.length == 1).map Found.way, ?_, ?_,
    fun way => ?_⟩
  · rw [filesIn, if_pos (isDir_iff.mpr ⟨l, found⟩), met, List.map_map]
    refine congrArg Except.ok (List.map_congr_left fun file member => ?_)
    rw [path_of_mem_filesMet met (List.mem_filter.mp member).1]
    rfl
  · refine List.pairwise_map.mpr (((pairwise_filesMet found met).filter _).imp ?_)
    intro file other increasing same
    rw [same, Std.ReflOrd.compare_self] at increasing
    exact absurd increasing (by simp)
  · simp only [List.mem_map, List.mem_filter, member_iff, Bool.or_eq_true, Bool.not_eq_true',
      beq_iff_eq]
    constructor
    · rintro ⟨file, ⟨⟨way, e, rfl, some_way, there, regular, -⟩, short⟩, rfl⟩
      refine ⟨some_way, fun asked => ?_, holdsFile_of_isFile there regular⟩
      exact short.resolve_left (by simp [asked])
    · rintro ⟨some_way, short, content, executable, there⟩
      refine ⟨_, ⟨⟨way, _, rfl, some_way, there, rfl, rfl⟩, ?_⟩, rfl⟩
      cases direct with
      | false => exact Or.inl rfl
      | true => exact Or.inr (short rfl)

theorem land_join_of_opens (opens : t.Opens root l) (dir : Name) (way : Location) :
    (root.join ((⟨""⟩ : Path).descend (dir :: way))).land t.here = l ++ dir :: way := by
  rw [Path.join_descend_empty root (List.cons_ne_nil dir way), Path.land_descend, ← opens.eq_land]

theorem exists_filesIn_of_opens (free : t.LinkFree) (opens : t.Opens root l) (dir : Name)
    (direct : Bool) :
    ∃ paths, filesIn t root direct ⟨dir.text⟩ = .ok paths ∧ paths.Nodup ∧
      ∀ p, p ∈ paths ↔ p.LeadsInto dir direct ∧ t.HoldsFile ((root.join p).land t.here) := by
  have start : root.join ⟨dir.text⟩ = root.descend [dir] := rfl
  by_cases directory : t.lookup? (l ++ [dir]) = some .directory
  · have found : t.find (root.join ⟨dir.text⟩) = .ok (l ++ [dir], .directory) :=
      find_descend free opens (List.cons_ne_nil dir []) directory
    obtain ⟨ways, listed, nodup, mem_ways⟩ := exists_ways found direct
    have seen : (fun way => root.under ((root.join ⟨dir.text⟩).descend way)) =
        fun way => (⟨""⟩ : Path).descend (dir :: way) := by
      funext way
      rw [start, ← Path.descend_append, Path.under_descend]
      rfl
    have distinct : Function.Injective fun way => (⟨""⟩ : Path).descend (dir :: way) := by
      intro way way' same
      have names : dir :: way = dir :: way' :=
        Path.eq_of_same_descend_empty (by rw [Path.same, beq_iff_eq]; exact congrArg _ same)
      exact (List.cons.inj names).2
    rw [seen] at listed
    refine ⟨_, listed, nodup.map distinct, fun p => ?_⟩
    rw [List.mem_map]
    constructor
    · rintro ⟨way, gone, rfl⟩
      obtain ⟨some_way, short, held⟩ := (mem_ways way).mp gone
      rw [land_join_of_opens opens, List.append_cons]
      exact ⟨⟨way, some_way, short, rfl⟩, held⟩
    · rintro ⟨⟨way, some_way, short, rfl⟩, held⟩
      rw [land_join_of_opens opens, List.append_cons] at held
      exact ⟨way, (mem_ways way).mpr ⟨some_way, short, held⟩, rfl⟩
  · have absent : ¬t.isDir (root.join ⟨dir.text⟩) = true := by
      intro there
      obtain ⟨k, found⟩ := isDir_iff.mp there
      have place := eq_land_of_find free found
      rw [start, Path.land_descend, ← opens.eq_land] at place
      exact directory (place ▸ ((find_eq_ok_iff free).mp found).2.2)
    refine ⟨[], if_neg absent, List.nodup_nil, fun p => ?_⟩
    rw [List.mem_nil_iff, false_iff]
    rintro ⟨⟨way, some_way, -, rfl⟩, content, executable, there⟩
    rw [land_join_of_opens opens, List.append_cons] at there
    exact directory (lookup?_above there (List.prefix_append _ way) (by simpa using some_way))

/-- A scan of one directory for headers and one for libraries succeeds and lists the files in
there, both in increasing order and each path once. -/
theorem exists_scan_of_opens (free : t.LinkFree) (opens : t.Opens root l)
    (headersDir librariesDir : Name) :
    ∃ layout, scan t root [⟨headersDir.text⟩] [⟨librariesDir.text⟩] = .ok layout ∧
      layout.root = root ∧
      (layout.headers.Pairwise Path.Precedes ∧ ∀ p, p ∈ layout.headers ↔
        p.LeadsInto headersDir false ∧ t.HoldsFile ((root.join p).land t.here)) ∧
      (layout.libraries.Pairwise Path.Precedes ∧ ∀ p, p ∈ layout.libraries ↔
        p.LeadsInto librariesDir true ∧ t.HoldsFile ((root.join p).land t.here)) := by
  obtain ⟨headers, headers_listed, nodup, mem_headers⟩ :=
    exists_filesIn_of_opens free opens headersDir false
  obtain ⟨libraries, libraries_listed, nodup', mem_libraries⟩ :=
    exists_filesIn_of_opens free opens librariesDir true
  refine ⟨⟨root, headers.mergeSort Path.le, libraries.mergeSort Path.le⟩, ?_, rfl,
    ⟨?_, fun p => ?_⟩, ?_, fun p => ?_⟩
  · simp [scan, headers_listed, libraries_listed, bind, Except.bind, pure, Except.pure]
  · exact Path.pairwise_precedes_mergeSort nodup fun p member q member' =>
      ((mem_headers p).mp member).1.eq_of_same ((mem_headers q).mp member').1
  · rw [List.mem_mergeSort, mem_headers]
  · exact Path.pairwise_precedes_mergeSort nodup' fun p member q member' =>
      ((mem_libraries p).mp member).1.eq_of_same ((mem_libraries q).mp member').1
  · rw [List.mem_mergeSort, mem_libraries]

end ArtifactLayout
end PackageBuild
