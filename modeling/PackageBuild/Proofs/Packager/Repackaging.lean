import PackageBuild.Proofs.Fingerprint
import PackageBuild.Proofs.Packager.Determinacy
import PackageBuild.Proofs.Packager.Output
/-!
# Packaging again

A second run of packaging clears what the first one left and starts from the same files, so it
comes to the same. A source that is there only since the first run is the package directory or
above it, and holds no file that could be packaged.
-/

namespace PackageBuild

open FileTree

namespace CopyRule

variable {rule : CopyRule} {before : FileTree} {l : Location} {world : World}

/-- A rule whose source was missing picks nothing later. -/
theorem not_picks_of_missing {after : FileTree} (spares : Spares (Outside l) before after)
    (free : before.LinkFree) (straight : rule.src.Straight)
    (apart : Outside l (rule.src.land before.here)) (missing : before.isDir rule.src = false)
    {top way : Location} {e : Entry} : ¬rule.Picks after (some l) top way e := by
  intro picked
  have some_text := ((find_eq_ok_iff (spares.free free)).mp picked.source).1
  have top_eq := eq_land_of_find (spares.free free) picked.source
  rw [spares.here] at top_eq
  obtain rfl := top_eq
  have file := spares.files _ _ (picked.outside apart) picked.regular picked.found
  obtain ⟨front, name, rfl, -⟩ := picked.selected
  have directory : before.lookup? (rule.src.land before.here) = some .directory :=
    lookup?_above file (List.prefix_append _ _) (by simp)
  have found := (find_directory_iff_opens free some_text).mpr
    (opens_of_straight straight directory)
  rw [isDir_iff.mpr ⟨_, found⟩] at missing
  exact Bool.noConfusion missing

/-- A rule that picks nothing does nothing. -/
theorem outcome_copyRule_of_nothing (packageDir : Path) {top : Location} {guard : Option Location}
    (source : world.tree.find rule.src = .ok (top, .directory))
    (nothing : ∀ top way e, ¬rule.Picks world.tree guard top way e) :
    (Packager.copyRule rule packageDir guard).outcome world = (.ok [], world) := by
  obtain ⟨files, met, member_iff⟩ := mem_taken_iff guard source
  have none_taken : files.filter rule.takes = [] := by
    rw [List.eq_nil_iff_forall_not_mem]
    intro found member
    obtain ⟨way, e, -, picked⟩ := (member_iff found).mp member
    exact nothing top way e picked
  have idle (found : Found) (member : found ∈ world.tree.metBelow rule.src top guard)
      (copies : Packager.Copies) : Packager.copyMet rule packageDir copies found = pure copies := by
    rw [Packager.copyMet, if_neg]
    intro taken
    rw [Bool.and_eq_true_iff] at taken
    obtain rfl := Except.ok.inj (met.symm.trans (filesMet_of_directory guard source))
    apply List.filter_eq_nil_iff.mp none_taken found _ taken.2
    exact List.mem_filter.mpr ⟨member, taken.1⟩
  have alike : ∀ t, t = world.tree → ∀ way, reaches top guard (top ++ way) = true →
      t.childrenMet guard (top ++ way) = world.tree.childrenMet guard (top ++ way) := by
    rintro t rfl way -
    rfl
  rw [Packager.outcome_copyRule_eq source alike (fun found member copies => ?_) rfl met, none_taken]
  · rfl
  · rw [idle found member copies]
    exact fun world' => id

/-- Whether the source of a rule is looked for before or after the first run makes no
difference. -/
theorem outcome_copyPresent_again (packageDir : Path) {after : FileTree}
    (spares : Spares (Outside l) before after)
    (free : before.LinkFree) (straight : rule.src.Straight)
    (apart : Outside l (rule.src.land before.here))
    (same : Spares (Outside l) after world.tree) :
    (if after.isDir rule.src = true then Packager.copyRule rule packageDir (some l)
      else pure []).outcome world =
    (if before.isDir rule.src = true then Packager.copyRule rule packageDir (some l)
      else pure []).outcome world := by
  have free' := spares.free free
  cases present : before.isDir rule.src with
  | true =>
      obtain ⟨top, found⟩ := isDir_iff.mp present
      have found' := find_directory_of_spares spares free straight apart found
      rw [if_pos rfl, if_pos (isDir_iff.mpr ⟨top, found'⟩)]
  | false =>
      rw [if_neg Bool.false_ne_true]
      split
      · rename_i there
        obtain ⟨top, found⟩ := isDir_iff.mp there
        rw [← spares.here] at apart
        have source := find_directory_of_spares same free' straight apart found
        rw [spares.here] at apart
        rw [outcome_copyRule_of_nothing packageDir source fun top way e =>
          not_picks_of_missing (spares.trans same) free straight apart present]
        rfl
      · rfl

end CopyRule

namespace ArtifactLayout

/-- There is a fingerprint when there are files at all listed paths. -/
theorem exists_fingerprint_of_held {t : FileTree} {layout : ArtifactLayout} {l : Location}
    (free : t.LinkFree) (opens : t.Opens layout.root l)
    (held : ∀ file ∈ layout.headers ++ layout.libraries, ∃ names, names ≠ [] ∧
      file = (⟨""⟩ : Path).descend names ∧ t.HoldsFile (l ++ names)) :
    ∃ fingerprint, layout.fingerprint t = .ok fingerprint := by
  have readable : ∀ file ∈ layout.listed,
      ∃ bytes, t.readBytes (layout.root.join file) = .ok bytes := by
    intro file member
    obtain ⟨names, some_name, rfl, content, executable, there⟩ := held file member
    refine ⟨content, ?_⟩
    rw [Path.join_descend_empty layout.root some_name, readBytes,
      find_descend free opens some_name there]
  obtain ⟨digest, digested, -⟩ := exists_treeDigest readable
  exact ⟨digest.hex, fingerprint_eq_ok_iff.mpr ⟨digest, digested, rfl⟩⟩

end ArtifactLayout

namespace Packager

open PackageBuild.Action

variable {headerSource librarySource packageDir : Path} {headers libraries : List Glob}
  {policy : CopyPolicy} {l : Location} {world world' : World} {layout : ArtifactLayout}

/-- Packaging that succeeds empties the package and copies into it for both rules. -/
theorem copied_of_package (free : world.tree.LinkFree) (absolute : packageDir.isAbsolute = true)
    (straight : packageDir.Straight)
    (sources : ∀ rule ∈ [CopyRule.headers headerSource headers,
      CopyRule.libraries librarySource libraries], rule.src.Straight ∧
        Outside (packageDir.land world.tree.here) (rule.src.land world.tree.here))
    (packaged : (Packager.package ⟨[.headers headerSource headers,
      .libraries librarySource libraries], policy⟩ packageDir).outcome world =
        (.ok layout, world')) :
    ∃ ready copied copied' middle,
      Spares (Outside (packageDir.land world.tree.here)) world.tree ready.tree ∧
      ready.tree.Opens packageDir (packageDir.land world.tree.here) ∧
      (∀ k, ¬Outside (packageDir.land world.tree.here) k → ready.tree.lookup? k = none) ∧
      Copied (.headers headerSource headers) (.libraries librarySource libraries) packageDir
        (packageDir.land world.tree.here) world.tree ready copied copied' middle world' ∧
      layout = ⟨packageDir, arranged copied, arranged copied'⟩ := by
  obtain ⟨decided, gone, ready, lists, same, -, removed, directory_made, outcome, rfl⟩ :=
    package_eq_ok packaged
  rw [forM_destinations] at removed
  rw [← same] at free sources ⊢
  have cleared := tree_of_outcome_clear free straight removed
  obtain ⟨spares, found, empty⟩ := made_of_cleared free
    (Path.components_ne_nil_of_isAbsolute absolute) straight cleared directory_made
  have some_text := ((find_eq_ok_iff (spares.free free)).mp found).1
  have opens := (find_directory_iff_opens (spares.free free) some_text).mp found
  obtain ⟨copied, copied', middle, last, steps⟩ :=
    exists_copied_of_empty free sources spares opens empty
  rw [found, ← same] at outcome
  obtain ⟨lists_eq, rfl⟩ := Prod.mk.inj (outcome.symm.trans steps.outcome)
  obtain rfl := Except.ok.inj lists_eq
  exact ⟨ready, copied, copied', middle, spares, opens, empty, steps, rfl⟩

/-- Copying into the empty package comes to the same when the sources are looked for after the first
run. -/
theorem outcome_copyRules_again {before : FileTree} {copied copied' : List Path}
    {middle last : World} (free : before.LinkFree)
    (sources : ∀ rule ∈ [CopyRule.headers headerSource headers,
      CopyRule.libraries librarySource libraries], rule.src.Straight ∧
        Outside l (rule.src.land before.here))
    (spares : Spares (Outside l) before world.tree)
    (steps : Copied (.headers headerSource headers) (.libraries librarySource libraries) packageDir
      l before world copied copied' middle last) :
    (copyRules packageDir (some l) ([CopyRule.headers headerSource headers,
      CopyRule.libraries librarySource libraries].filter
        fun rule => last.tree.isDir rule.src)).outcome world = (.ok (copied, copied'), last) := by
  obtain ⟨headers_straight, headers_apart⟩ := sources _ List.mem_cons_self
  obtain ⟨libraries_straight, libraries_apart⟩ :=
    sources _ (List.mem_cons_of_mem _ List.mem_cons_self)
  have free_world := spares.free free
  have spares_last : Spares (Outside l) before last.tree :=
    spares.trans (.of_lookup?_eq steps.here.2 steps.free.2 steps.outside_last)
  have back : Spares (Outside l) last.tree world.tree :=
    .of_lookup?_eq steps.here.2.symm free_world fun k outside => (steps.outside_last k outside).symm
  have on : Spares (Outside l) last.tree middle.tree :=
    back.trans (.of_lookup?_eq steps.here.1 steps.free.1 steps.outside_middle)
  have first := CopyRule.outcome_copyPresent_again packageDir spares_last free
    headers_straight headers_apart back
  have second := CopyRule.outcome_copyPresent_again packageDir spares_last free
    libraries_straight libraries_apart on
  rw [copyRules_filter_cons, outcome_bind_ok (first.trans steps.first), copyRules_filter_cons,
    bind_assoc, outcome_bind_ok (second.trans steps.second)]
  simp [copyRules, CopyRule.headers, CopyRule.libraries]

theorem proceeds_of_package {packager : Packager}
    (packaged : (packager.package packageDir).outcome world = (.ok layout, world')) :
    Proceeds packager.policy packager.rules world.tree := by
  by_contra missing
  obtain ⟨failure, refused⟩ := outcome_presentRules_of_missing missing
  rw [package, outcome_bind_error refused] at packaged
  exact absurd (Prod.mk.inj packaged).1 (by simp)

/-- Sources that are not missing are not missing later. -/
theorem Proceeds.again {rules : List CopyRule} {before after : FileTree}
    (proceeds : Proceeds policy rules before) (free : before.LinkFree)
    (sources : ∀ rule ∈ rules, rule.src.Straight ∧ Outside l (rule.src.land before.here))
    (spares : Spares (Outside l) before after) : Proceeds policy rules after := by
  refine proceeds.imp_right fun present rule member => ?_
  obtain ⟨top, found⟩ := isDir_iff.mp (present rule member)
  obtain ⟨straight, apart⟩ := sources rule member
  exact isDir_iff.mpr ⟨top, find_directory_of_spares spares free straight apart found⟩

theorem Packaged.exists_fingerprint {headers libraries : CopyRule} {before after : FileTree}
    (contents : Packaged headers libraries packageDir l before after layout)
    (opens : after.Opens packageDir l) :
    ∃ fingerprint, layout.fingerprint after = .ok fingerprint := by
  rw [← contents.root_eq] at opens
  refine ArtifactLayout.exists_fingerprint_of_held contents.free opens fun file member => ?_
  rcases List.mem_append.mp member with header | library
  · obtain ⟨way, e, regular, there, rfl⟩ := (contents.mem_headers file).mp header
    exact ⟨includeName :: way, List.cons_ne_nil _ way, rfl, holdsFile_of_isFile there regular⟩
  · obtain ⟨way, e, regular, there, rfl⟩ := (contents.mem_libraries file).mp library
    exact ⟨libName :: way, List.cons_ne_nil _ way, rfl, holdsFile_of_isFile there regular⟩

theorem Packaged.not_holdsFile {headers libraries : CopyRule} {before after : FileTree}
    (contents : Packaged headers libraries packageDir l before after layout) :
    ¬after.HoldsFile (l ++ [includeName]) ∧ ¬after.HoldsFile (l ++ [libName]) := by
  constructor
  · rintro ⟨content, executable, file⟩
    obtain ⟨top, picked⟩ := (contents.header_iff [] _ rfl).mp file
    obtain ⟨front, name, none_left, -⟩ := picked.selected
    exact absurd none_left (by simp)
  · rintro ⟨content, executable, file⟩
    obtain ⟨top, front, name, none_left, -⟩ := contents.library [] _ rfl file
    exact absurd none_left (by simp)

/-- The first run has changed nothing but what the second one clears. -/
theorem Copied.cleared_eq {headers libraries : CopyRule} {before : FileTree}
    {copied copied' : List Path} {middle last : World}
    (steps : Copied headers libraries packageDir l before world copied copied' middle last)
    (empty : ∀ k, ¬Outside l k → world.tree.lookup? k = none) :
    last.tree.cleared l = world.tree := by
  refine ext_lookup? steps.here.2 fun k => ?_
  by_cases outside : Outside l k
  · rw [lookup?_cleared_of_outside outside, steps.outside_last k outside]
  · rw [lookup?_cleared_of_not_outside outside, empty k outside]

/-- Packaging again lists the same, with the same fingerprint, and leaves the same files. -/
theorem package_again {recipe : Recipe} {buildDir : Path} {shared : Bool} {policy : CopyPolicy}
    {packager : Packager} (made : ofRecipe recipe buildDir shared policy = .ok packager)
    (free : world.tree.LinkFree) (absolute : packageDir.isAbsolute = true)
    (straight : packageDir.Straight)
    (sources : ∀ rule ∈ packager.rules, rule.src.Straight ∧
      Outside (packageDir.land world.tree.here) (rule.src.land world.tree.here))
    (packaged : (packager.package packageDir).outcome world = (.ok layout, world'))
    {again : World} (same : again.tree = world'.tree) :
    ∃ last, (packager.package packageDir).outcome again = (.ok layout, last) ∧
      last.tree = world'.tree ∧
      ∃ fingerprint, layout.fingerprint world'.tree = .ok fingerprint ∧
        layout.fingerprint last.tree = .ok fingerprint := by
  obtain ⟨headers, libraries, -, -, rfl⟩ := ofRecipe_eq_ok made
  have proceeds := proceeds_of_package packaged
  obtain ⟨ready, copied, copied', middle, spares, opens, empty, steps, rfl⟩ :=
    copied_of_package free absolute straight sources packaged
  have contents := steps.packaged spares
  have spares' : Spares (Outside (packageDir.land world.tree.here)) world.tree world'.tree :=
    spares.trans (.of_lookup?_eq steps.here.2 steps.free.2 steps.outside_last)
  have proceeds' := proceeds.again free sources spares'
  have cleared := steps.cleared_eq empty
  have standing : (world'.tree.cleared (packageDir.land world.tree.here)).Opens packageDir
      (packageDir.land world.tree.here) := by rwa [cleared]
  have guard := guard_of_absolute contents.free absolute (opens_of_cleared standing)
  have fingerprinted := contents.exists_fingerprint (opens_of_cleared standing)
  have copying := outcome_copyRules_again free sources spares steps
  rw [← same] at contents standing guard proceeds' cleared copying
  obtain ⟨ready', tree, outcome⟩ := outcome_package_of_standing
    (recipe.root.join recipe.layout.includeDir) buildDir headers libraries policy contents.free
    standing proceeds' contents.not_holdsFile.1 contents.not_holdsFile.2
  obtain ⟨last, second, unchanged⟩ :=
    (filesOnly_copyRules _ _ _).outcome_again copying (tree.trans cleared)
  refine ⟨last, ?_, unchanged, ?_⟩
  · rw [outcome, guard, outcome_bind_ok second]
    rfl
  · obtain ⟨fingerprint, computed⟩ := fingerprinted
    exact ⟨fingerprint, computed, by rw [unchanged, computed]⟩

/-- The small project is packaged twice, the second time over its own package. -/
theorem package_again_small_project :
    ∃ recipe prepared packager layout world' last,
      Recipe.FromSmall "" recipe ∧
      recipe.prepare Recipe.plainOptions {} {} = .ok prepared ∧
      prepared.packager recipe .strict = .ok packager ∧
      (packager.package prepared.packageDir).outcome { tree := smallProject } =
        (.ok layout, world') ∧
      (packager.package prepared.packageDir).outcome world' = (.ok layout, last) ∧
      last.tree = world'.tree := by
  obtain ⟨recipe, prepared, packager, layout, world', read, ready, made, packaged, absolute,
    straight, sources⟩ := exists_small_run
  obtain ⟨last, again, unchanged, -⟩ :=
    package_again made smallProject_linkFree absolute straight sources packaged rfl
  exact ⟨recipe, prepared, packager, layout, world', last, read, ready, made, packaged, again,
    unchanged⟩

end Packager
end PackageBuild
