import PackageBuild.ConsumerInfo
import PackageBuild.Proofs.Packager.Deposits
import PackageBuild.Proofs.Packager.Leftovers
import PackageBuild.Proofs.Packager.Repackaging
import PackageBuild.Proofs.Scanning
/-!
# What is packaged and what is found

Packaging lists what it copies, and a scan lists what is there. After packaging, a scan finds all
that packaging lists and, besides, the files that clearing has left over. None are left over when
the path of the package never steps up, so there both listings are the same.
-/

namespace PackageBuild

open FileTree

namespace Packager

open PackageBuild.Action

/-- Whether clearing leaves a file at a path into a directory of the package. -/
def Remains (t : FileTree) (packageDir : Path) (dir : Name) (direct : Bool) (p : Path) : Prop :=
  p.LeadsInto dir direct ∧
    LeftOver t packageDir (packageDir.land t.here) ((packageDir.join p).land t.here)

/-- What packaging leaves in a package directory, in terms of what it lists. -/
structure Assembled (packageDir : Path) (before after : FileTree) (layout : ArtifactLayout) :
    Prop where
  /-- The layout names the package directory. -/
  root_eq : layout.root = packageDir
  /-- Relative paths start where they did. -/
  here : after.here = before.here
  /-- There are no links. -/
  free : after.LinkFree
  /-- The path of the package leads to the place it stands for. -/
  opens : after.Opens packageDir (packageDir.land before.here)
  /-- The headers lead into the directory for headers. -/
  headers : ∀ p ∈ layout.headers, p.LeadsInto includeName false
  /-- The libraries lead directly into the directory for libraries. -/
  libraries : ∀ p ∈ layout.libraries, p.LeadsInto libName true
  /-- Both are in increasing order, each path once. -/
  increasing : layout.headers.Pairwise Path.Precedes ∧ layout.libraries.Pairwise Path.Precedes
  /-- The files are those that are left over and those that are listed. -/
  holdsFile_iff : ∀ k, after.HoldsFile k ↔
    LeftOver before packageDir (packageDir.land before.here) k ∨
      ∃ p, (p ∈ layout.headers ∨ p ∈ layout.libraries) ∧ k = (packageDir.join p).land before.here

variable {world world' : World} {packageDir : Path} {layout : ArtifactLayout}
  {before after : FileTree}

/-- Packaging that succeeds clears the package, makes its directory, and copies what it lists. -/
theorem assembled_of_package {recipe : Recipe} {buildDir : Path} {shared : Bool}
    {policy : CopyPolicy} {packager : Packager}
    (made : ofRecipe recipe buildDir shared policy = .ok packager) (free : world.tree.LinkFree)
    (absolute : packageDir.isAbsolute = true)
    (packaged : (packager.package packageDir).outcome world = (.ok layout, world')) :
    Assembled packageDir world.tree world'.tree layout := by
  obtain ⟨headers, libraries, -, -, rfl⟩ := ofRecipe_eq_ok made
  obtain ⟨decided, gone, ready, lists, same, -, removed, directory_made, copied, rfl⟩ :=
    package_eq_ok packaged
  rw [forM_destinations] at removed
  rw [← same] at free copied ⊢
  obtain ⟨gone_here, gone_free, left_iff⟩ := holdsFile_clear_iff free removed
  have paving := makeDirectories_made gone_free packageDir
  rw [outcome_change_eq_ok directory_made] at paving
  have found := paving.found rfl (Path.components_ne_nil_of_isAbsolute absolute)
  have ready_free := paving.grows.linkFree gone_free
  have some_text := ((find_eq_ok_iff ready_free).mp found).1
  have opens := (find_directory_iff_opens ready_free some_text).mp found
  rw [gone_here] at opens
  have fills : ∀ rule ∈ [CopyRule.headers (recipe.root.join recipe.layout.includeDir) headers,
      CopyRule.libraries buildDir libraries].filter fun rule => decided.tree.isDir rule.src,
      rule.Fills (if rule.keepPath then includeName else libName) := by
    intro rule member
    rcases List.mem_pair.mp (List.mem_filter.mp member).1 with rfl | rfl
    · exact CopyRule.fills_headers _ _
    · exact CopyRule.fills_libraries _ _
  have delivered := delivered_copyRules fills ready_free copied
  have here : ready.tree.here = decided.tree.here := paving.grows.here.trans gone_here
  have mem_headers := mem_arranged_iff fun p member q member' =>
    (delivered.headers p member).eq_of_same (delivered.headers q member')
  have mem_libraries := mem_arranged_iff fun p member q member' =>
    (delivered.libraries p member).eq_of_same (delivered.libraries q member')
  exact {
    root_eq := rfl
    here := delivered.deposits.here.trans here
    free := delivered.deposits.free ready_free
    opens := delivered.deposits.opens opens
    headers := fun p member => delivered.headers p ((mem_headers p).mp member)
    libraries := fun p member => delivered.libraries p ((mem_libraries p).mp member)
    increasing := ⟨pairwise_arranged _, pairwise_arranged _⟩
    holdsFile_iff := fun k => by
      rw [delivered.deposits.holdsFile_iff, paving.grows.holdsFile_iff, left_iff, here]
      simp only [mem_headers, mem_libraries] }

namespace Assembled

private theorem eq_of_land_join {dir dir' : Name} {direct direct' : Bool} {p q : Path}
    (here : Location) (leads : p.LeadsInto dir direct) (leads' : q.LeadsInto dir' direct')
    (same : (packageDir.join p).land here = (packageDir.join q).land here) :
    dir = dir' ∧ p = q := by
  obtain ⟨way, -, -, rfl⟩ := leads
  obtain ⟨way', -, -, rfl⟩ := leads'
  rw [Path.join_descend_empty packageDir (List.cons_ne_nil _ _),
    Path.join_descend_empty packageDir (List.cons_ne_nil _ _), Path.land_descend,
    Path.land_descend, List.append_cancel_left_eq] at same
  exact ⟨(List.cons.inj same).1, by rw [same]⟩

/-- What is found in a directory of the package is what is listed for it and what is left over. -/
theorem found_iff (contents : Assembled packageDir before after layout) {dir other : Name}
    {direct direct' : Bool} {own foreign : List Path} (different : dir ≠ other)
    (leads : ∀ p ∈ own, p.LeadsInto dir direct) (leads' : ∀ p ∈ foreign, p.LeadsInto other direct')
    (listed_iff : ∀ p, p ∈ layout.headers ∨ p ∈ layout.libraries ↔ p ∈ own ∨ p ∈ foreign)
    (p : Path) :
    p.LeadsInto dir direct ∧ after.HoldsFile ((packageDir.join p).land after.here) ↔
      p ∈ own ∨ Remains before packageDir dir direct p := by
  rw [contents.here, contents.holdsFile_iff]
  simp only [listed_iff]
  constructor
  · rintro ⟨into, left | ⟨q, listed | listed, same⟩⟩
    · exact Or.inr ⟨into, left⟩
    · obtain ⟨-, rfl⟩ := eq_of_land_join _ into (leads q listed) same
      exact Or.inl listed
    · obtain ⟨dirs, -⟩ := eq_of_land_join _ into (leads' q listed) same
      exact absurd dirs different
  · rintro (listed | ⟨into, left⟩)
    · exact ⟨leads p listed, Or.inr ⟨p, Or.inl listed, rfl⟩⟩
    · exact ⟨into, Or.inl left⟩

/-- A scan finds what is listed and what is left over, and agrees with packaging exactly if all that
is left over is listed anyway. -/
theorem exists_scan (contents : Assembled packageDir before after layout) :
    ∃ scanned, ArtifactLayout.scan after packageDir [⟨"include"⟩] [⟨"lib"⟩] = .ok scanned ∧
      (∀ p, p ∈ scanned.headers ↔
        p ∈ layout.headers ∨ Remains before packageDir includeName false p) ∧
      (∀ p, p ∈ scanned.libraries ↔
        p ∈ layout.libraries ∨ Remains before packageDir libName true p) ∧
      (scanned = layout ↔
        (∀ p, Remains before packageDir includeName false p → p ∈ layout.headers) ∧
          ∀ p, Remains before packageDir libName true p → p ∈ layout.libraries) := by
  obtain ⟨⟨root, headers, libraries⟩, scanned, root_eq, ⟨increasing, mem_headers⟩,
      increasing', mem_libraries⟩ :=
    ArtifactLayout.exists_scan_of_opens contents.free contents.opens includeName libName
  have header_found := contents.found_iff includeName_ne_libName contents.headers
    contents.libraries fun _ => Iff.rfl
  have library_found := contents.found_iff includeName_ne_libName.symm contents.libraries
    contents.headers fun _ => or_comm
  simp only [header_found] at mem_headers
  simp only [library_found] at mem_libraries
  refine ⟨_, scanned, mem_headers, mem_libraries, ?_, fun ⟨headers_listed, libraries_listed⟩ => ?_⟩
  · rintro rfl
    exact ⟨fun p remains => (mem_headers p).mpr (Or.inr remains),
      fun p remains => (mem_libraries p).mpr (Or.inr remains)⟩
  · obtain ⟨root', headers', libraries'⟩ := layout
    obtain rfl : root = root' := root_eq.trans contents.root_eq.symm
    obtain rfl : headers = headers' :=
      Path.eq_of_pairwise_precedes increasing contents.increasing.1 fun p =>
        (mem_headers p).trans (or_iff_left_of_imp (headers_listed p))
    obtain rfl : libraries = libraries' :=
      Path.eq_of_pairwise_precedes increasing' contents.increasing.2 fun p =>
        (mem_libraries p).trans (or_iff_left_of_imp (libraries_listed p))
    rfl

theorem exists_fingerprint (contents : Assembled packageDir before after layout) :
    ∃ fingerprint, layout.fingerprint after = .ok fingerprint := by
  have opens := contents.opens
  rw [← contents.root_eq] at opens
  refine ArtifactLayout.exists_fingerprint_of_held contents.free opens fun file member => ?_
  rw [List.mem_append] at member
  have held := (contents.holdsFile_iff _).mpr (Or.inr ⟨file, member, rfl⟩)
  obtain ⟨names, some_name, rfl⟩ : ∃ names, names ≠ [] ∧ file = (⟨""⟩ : Path).descend names := by
    rcases member with header | library
    · exact (contents.headers file header).exists_descend
    · exact (contents.libraries file library).exists_descend
  rw [Path.join_descend_empty packageDir some_name, Path.land_descend] at held
  rw [contents.root_eq]
  exact ⟨names, some_name, rfl, held⟩

end Assembled

/-- A path into a directory of the package leads to one of its two directories. -/
theorem Remains.not_outside {t : FileTree} {dir : Name} {direct : Bool} {p : Path}
    (remains : Remains t packageDir dir direct p) (which : dir = includeName ∨ dir = libName) :
    ¬Outside (packageDir.land t.here) ((packageDir.join p).land t.here) := by
  obtain ⟨⟨way, -, -, rfl⟩, -⟩ := remains
  rw [Path.join_descend_empty packageDir (List.cons_ne_nil dir way), Path.land_descend,
    List.append_cons]
  rcases which with rfl | rfl
  · exact not_outside_include _ way
  · exact not_outside_lib _ way

/-- Nothing remains in a package whose path never steps up, or leads to its place even when the
headers are gone. -/
theorem not_remains {t : FileTree} {dir : Name} {direct : Bool} {p : Path}
    (which : dir = includeName ∨ dir = libName)
    (settled : packageDir.Straight ∨ (t.removeAt (packageDir.land t.here ++ [includeName])).Opens
      packageDir (packageDir.land t.here)) : ¬Remains t packageDir dir direct p := by
  intro remains
  refine remains.not_outside which ?_
  rcases settled with straight | standing
  · exact remains.2.outside_of_straight straight
  · exact remains.2.outside standing

/-- After packaging, a scan finds what packaging has listed and what clearing has left over in the
two directories of the package. So it comes to the same layout, with the same fingerprint and the
same for consumers, exactly if all that is left over is listed anyway; and nothing is left over when
the path of the package never steps up, or leads to its place even when the headers are gone. -/
theorem scan_package {recipe : Recipe} {buildDir : Path} {shared : Bool} {policy : CopyPolicy}
    {packager : Packager} (made : ofRecipe recipe buildDir shared policy = .ok packager)
    (free : world.tree.LinkFree) (absolute : packageDir.isAbsolute = true)
    (packaged : (packager.package packageDir).outcome world = (.ok layout, world')) :
    ∃ scanned fingerprint,
      ArtifactLayout.scan world'.tree packageDir [⟨"include"⟩] [⟨"lib"⟩] = .ok scanned ∧
      layout.fingerprint world'.tree = .ok fingerprint ∧
      (∀ p, p ∈ scanned.headers ↔
        p ∈ layout.headers ∨ Remains world.tree packageDir includeName false p) ∧
      (∀ p, p ∈ scanned.libraries ↔
        p ∈ layout.libraries ∨ Remains world.tree packageDir libName true p) ∧
      (scanned = layout ↔
        (∀ p, Remains world.tree packageDir includeName false p → p ∈ layout.headers) ∧
          ∀ p, Remains world.tree packageDir libName true p → p ∈ layout.libraries) ∧
      (packageDir.Straight ∨
          (world.tree.removeAt (packageDir.land world.tree.here ++ [includeName])).Opens packageDir
            (packageDir.land world.tree.here) →
        scanned = layout ∧ scanned.fingerprint world'.tree = .ok fingerprint ∧
          ∀ config, ConsumerInfo.publish config scanned = ConsumerInfo.publish config layout) := by
  have contents := assembled_of_package made free absolute packaged
  obtain ⟨scanned, found, mem_headers, mem_libraries, same_iff⟩ := contents.exists_scan
  obtain ⟨fingerprint, computed⟩ := contents.exists_fingerprint
  refine ⟨scanned, fingerprint, found, computed, mem_headers, mem_libraries, same_iff,
    fun settled => ?_⟩
  obtain rfl := same_iff.mpr
    ⟨fun p remains => absurd remains (not_remains (Or.inl rfl) settled),
      fun p remains => absurd remains (not_remains (Or.inr rfl) settled)⟩
  exact ⟨rfl, computed, fun config => rfl⟩

/-- The small project is packaged over its older package and found to be what was packaged. -/
theorem scan_package_small_project :
    ∃ recipe prepared packager layout world' fingerprint,
      Recipe.FromSmall "" recipe ∧
      recipe.prepare Recipe.plainOptions {} {} = .ok prepared ∧
      prepared.packager recipe .strict = .ok packager ∧
      (packager.package prepared.packageDir).outcome { tree := smallProject } =
        (.ok layout, world') ∧
      ArtifactLayout.scan world'.tree prepared.packageDir [⟨"include"⟩] [⟨"lib"⟩] = .ok layout ∧
      layout.fingerprint world'.tree = .ok fingerprint := by
  obtain ⟨recipe, prepared, packager, _, world', read, ready, made, packaged, absolute, straight,
    -⟩ := exists_small_run
  obtain ⟨_, fingerprint, found, -, -, -, -, settled⟩ :=
    scan_package made smallProject_linkFree absolute packaged
  obtain ⟨rfl, computed, -⟩ := settled (Or.inl straight)
  exact ⟨recipe, prepared, packager, _, world', fingerprint, read, ready, made, packaged, found,
    computed⟩

/-- Packaging up to the lists of what was copied. -/
def gather (packager : Packager) (packageDir : Path) : Action (List Path × List Path) := do
  let present ← presentRules packager.policy packager.rules
  clear packageDir
  Action.makeDirectories packageDir
  let guard ← Action.look fun tree => (tree.find packageDir).toOption.map (·.1)
  copyRules packageDir guard present

theorem package_eq_gather {recipe : Recipe} {buildDir : Path} {shared : Bool} {policy : CopyPolicy}
    {packager : Packager} (made : ofRecipe recipe buildDir shared policy = .ok packager)
    (packageDir : Path) :
    packager.package packageDir = gather packager packageDir >>= fun lists =>
      pure ⟨packageDir, arranged lists.1, arranged lists.2⟩ := by
  obtain ⟨headers, libraries, -, -, rfl⟩ := ofRecipe_eq_ok made
  simp only [package, gather, forM_destinations, bind_assoc]

/-- The small project after a build, with an older library where its own package would have one. -/
def smallStale : FileTree :=
  .ofEntries [
    (smallPlace, .directory),
    (smallBuild, .directory),
    (smallRelease, .directory),
    (smallRelease ++ [smallLibrary], .file "lib".toUTF8 false),
    (smallPlace ++ [libName], .directory),
    (smallPlace ++ [libName, ⟨"libold.a", by decide⟩], .file "old".toUTF8 false)]

/-- The small project is packaged into its own directory by a path that steps up from a directory
that is missing. The older library is left over and not listed, but a scan finds it. -/
theorem small_project_mixed :
    ∃ recipe prepared packager layout scanned world',
      Recipe.FromSmall "" recipe ∧
      recipe.prepare { Recipe.plainOptions with packageDir := some ⟨"out/.."⟩ } {} {} =
        .ok prepared ∧
      prepared.packager recipe .lenient = .ok packager ∧
      smallStale.LinkFree ∧ prepared.packageDir.isAbsolute = true ∧
      (packager.package prepared.packageDir).outcome { tree := smallStale } =
        (.ok layout, world') ∧
      ArtifactLayout.scan world'.tree prepared.packageDir [⟨"include"⟩] [⟨"lib"⟩] =
        .ok scanned ∧
      scanned ≠ layout := by
  obtain ⟨recipe, prepared, read, ready, fit⟩ := Recipe.exists_of_prepareSmall? ""
    { Recipe.plainOptions with packageDir := some ⟨"out/.."⟩ } (fun recipe prepared =>
      match prepared.packager recipe .lenient with
      | .error _ => false
      | .ok packager =>
        match (gather packager prepared.packageDir).outcome { tree := smallStale } with
        | (.error _, _) => false
        | (.ok lists, world') =>
          decide (prepared.packageDir.isAbsolute = true ∧ lists.2 = [⟨"lib/libmini.a"⟩] ∧
            world'.tree.HoldsFile
              ((prepared.packageDir.join ⟨"lib/libold.a"⟩).land world'.tree.here)))
    (by decide +kernel)
  have free : smallStale.LinkFree := by decide +kernel
  cases made : prepared.packager recipe .lenient with
  | error failure => simp [made] at fit
  | ok packager =>
      simp only [made] at fit
      rcases gathered : (gather packager prepared.packageDir).outcome { tree := smallStale } with
        ⟨_ | lists, world'⟩
      · simp [gathered] at fit
      · simp only [gathered, decide_eq_true_eq] at fit
        obtain ⟨absolute, copied, held⟩ := fit
        have packaged : (packager.package prepared.packageDir).outcome { tree := smallStale } =
            (.ok ⟨prepared.packageDir, arranged lists.1, arranged lists.2⟩, world') := by
          rw [package_eq_gather made, outcome_bind_ok gathered, outcome_pure]
        have contents := assembled_of_package made free absolute packaged
        obtain ⟨scanned, found, -, -, -, mem_libraries⟩ :=
          ArtifactLayout.exists_scan_of_opens contents.free contents.opens includeName libName
        refine ⟨recipe, prepared, packager, _, scanned, world', read, ready, made, free, absolute,
          packaged, found, ?_⟩
        rintro rfl
        have old : (⟨"lib/libold.a"⟩ : Path).LeadsInto libName true :=
          ⟨[⟨"libold.a", by decide⟩], by simp, fun _ => rfl, by decide⟩
        have listed := (mem_libraries ⟨"lib/libold.a"⟩).mpr ⟨old, held⟩
        rw [copied] at listed
        exact absurd listed (by simp [arranged, keepFirst])

end Packager
end PackageBuild
