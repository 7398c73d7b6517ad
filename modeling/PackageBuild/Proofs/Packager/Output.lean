import PackageBuild.Build
import PackageBuild.Proofs.Packager.Clearing
import PackageBuild.Proofs.Packager.Copying
import PackageBuild.Proofs.Path.Order
import PackageBuild.Proofs.Preparation
/-!
# The package that is left

After a success the directories of a package hold what the rules picked in the tree before, with
directories above it and nothing else, whatever they held earlier.
-/

namespace PackageBuild

open FileTree

namespace FileTree

variable {before after : FileTree} {l top : Location} {p : Path}

/-- A directory at a straight path outside of the package is found again. -/
theorem find_directory_of_spares (spares : Spares (Outside l) before after)
    (free : before.LinkFree) (straight : p.Straight) (apart : Outside l (p.land before.here))
    (found : before.find p = .ok (top, .directory)) : after.find p = .ok (top, .directory) := by
  have some_text := ((find_eq_ok_iff free).mp found).1
  obtain rfl := eq_land_of_find free found
  have there := spares.kept _ _ apart ((find_eq_ok_iff free).mp found).2.2
  rw [find_directory_iff_opens (spares.free free) some_text]
  rw [← spares.here] at there ⊢
  exact opens_of_straight straight there

end FileTree

namespace CopyRule

variable {rule : CopyRule} {before after : FileTree} {l top way : Location} {e : Entry}

/-- What a rule picks lies outside of the directories of the package when its source does. -/
theorem Picks.outside (picked : rule.Picks before (some l) top way e) (apart : Outside l top) :
    Outside l (top ++ way) :=
  ⟨fun below => apart.1 (picked.source_below below),
    fun below => apart.2 (picked.source_below below)⟩

/-- A rule with a source outside of the package's directories picks the same as before. -/
theorem picks_iff_of_spares (spares : Spares (Outside l) before after) (free : before.LinkFree)
    (straight : rule.src.Straight) (apart : Outside l (rule.src.land before.here))
    (present : before.isDir rule.src = true) :
    rule.Picks before (some l) top way e ↔ rule.Picks after (some l) top way e := by
  obtain ⟨source, found⟩ := isDir_iff.mp present
  have found' := find_directory_of_spares spares free straight apart found
  have source_eq := eq_land_of_find free found
  constructor
  · intro picked
    obtain ⟨rfl, -⟩ := Prod.mk.inj (Except.ok.inj (picked.source.symm.trans found))
    have outside := picked.outside (source_eq ▸ apart)
    exact ⟨found', spares.kept _ _ outside picked.found, picked.regular, picked.selected,
      picked.reached⟩
  · intro picked
    obtain ⟨rfl, -⟩ := Prod.mk.inj (Except.ok.inj (picked.source.symm.trans found'))
    have outside := picked.outside (source_eq ▸ apart)
    exact ⟨found, spares.files _ _ outside picked.regular picked.found, picked.regular,
      picked.selected, picked.reached⟩

/-- What the place of a rule holds after packaging, in terms of the tree before. -/
structure Output (rule : CopyRule) (l : Location) (dir : Name) (before after : FileTree) :
    Prop where
  /-- Nothing is there but what the rule picks, and directories above. -/
  inside : ∀ q e, after.lookup? (l ++ [dir] ++ q) = some e →
    (∃ top way, rule.Picks before (some l) top way e ∧ q = rule.goal way) ∨
      e = .directory ∧ ∃ top way e', rule.Picks before (some l) top way e' ∧
        q <+: rule.goal way ∧ q ≠ rule.goal way
  /-- All that the rule picks is there, or something else it picks for the same goal. -/
  stocked : ∀ top way e, rule.Picks before (some l) top way e → ∃ top' way' e',
    rule.Picks before (some l) top' way' e' ∧ rule.goal way' = rule.goal way ∧
      after.lookup? (l ++ [dir] ++ rule.goal way) = some e'

theorem Output.of_lookup? {after' : FileTree} {dir : Name} (output : rule.Output l dir before after)
    (same : ∀ q, after'.lookup? (l ++ [dir] ++ q) = after.lookup? (l ++ [dir] ++ q)) :
    rule.Output l dir before after' where
  inside q e found := output.inside q e (same q ▸ found)
  stocked top way e picked := by
    obtain ⟨top', way', e', picked', goal_eq, found⟩ := output.stocked top way e picked
    exact ⟨top', way', e', picked', goal_eq, (same _).trans found⟩

/-- What a rule leaves in its empty place when its source is looked at before packaging. -/
theorem outcome_copyPresent {dir : Name} (fills : rule.Fills dir) (free : before.LinkFree)
    {world : World} (spares : Spares (Outside l) before world.tree) {packageDir : Path}
    (opens : world.tree.Opens packageDir l)
    (empty : ∀ q, world.tree.lookup? (l ++ [dir] ++ q) = none)
    (straight : rule.src.Straight) (apart : Outside l (rule.src.land before.here)) :
    ∃ copied world', (if before.isDir rule.src = true then
          Packager.copyRule rule packageDir (some l) else pure []).outcome world =
        (.ok copied, world') ∧
      world'.tree.here = world.tree.here ∧ world'.tree.LinkFree ∧
      (∀ k, ¬l ++ [dir] <+: k → world'.tree.lookup? k = world.tree.lookup? k) ∧
      rule.Output l dir before world'.tree ∧
      ∀ p, p ∈ copied ↔ ∃ top way e, rule.Picks before (some l) top way e ∧
        p = (⟨""⟩ : Path).descend (dir :: rule.goal way) := by
  by_cases present : before.isDir rule.src = true
  · obtain ⟨top, found⟩ := isDir_iff.mp present
    have source := find_directory_of_spares spares free straight apart found
    have same_top {top' way : Location} {e : Entry}
        (picked : rule.Picks before (some l) top' way e) : top' = top := by
      exact (Prod.mk.inj (Except.ok.inj (picked.source.symm.trans found))).1
    have picks_iff {top way : Location} {e : Entry} :
        rule.Picks before (some l) top way e ↔ rule.Picks world.tree (some l) top way e :=
      picks_iff_of_spares spares free straight apart present
    obtain ⟨copied, world', outcome, fill, listed⟩ :=
      outcome_copyRule fills (spares.free free) opens empty source
    refine ⟨copied, world', by rw [if_pos present, outcome], fill.here, fill.free, fill.outside,
      ⟨fun q e found => ?_, fun top' way e picked => ?_⟩, fun p => ?_⟩
    · rcases fill.inside q e found with ⟨way, picked, goal_eq⟩ | ⟨directory, way, e', picked, above⟩
      · exact Or.inl ⟨top, way, picks_iff.mpr picked, goal_eq⟩
      · exact Or.inr ⟨directory, top, way, e', picks_iff.mpr picked, above⟩
    · obtain rfl := same_top picked
      obtain ⟨way', e', picked', goal_eq, found⟩ := fill.stocked way e (picks_iff.mp picked)
      exact ⟨top', way', e', picks_iff.mpr picked', goal_eq, found⟩
    · rw [listed p]
      constructor
      · rintro ⟨way, e, picked, rfl⟩
        exact ⟨top, way, e, picks_iff.mpr picked, rfl⟩
      · rintro ⟨top', way, e, picked, rfl⟩
        obtain rfl := same_top picked
        exact ⟨way, e, picks_iff.mp picked, rfl⟩
  · have nothing {top way : Location} {e : Entry} : ¬rule.Picks before (some l) top way e :=
      fun picked => present (isDir_iff.mpr ⟨top, picked.source⟩)
    refine ⟨[], world, by rw [if_neg present]; rfl, rfl, spares.free free, fun _ _ => rfl,
      ⟨fun q e found => ?_, fun top way e picked => absurd picked nothing⟩, fun p => ?_⟩
    · exact absurd ((empty q).symm.trans found) (by simp)
    · simp [nothing]

end CopyRule

namespace Packager

open PackageBuild.Action

/-! ## Lists of paths -/

theorem mem_keepFirst_iff {paths : List Path}
    (distinct : ∀ p ∈ paths, ∀ q ∈ paths, p.same q = true → p = q) :
    ∀ p, p ∈ keepFirst paths ↔ p ∈ paths := by
  induction paths with
  | nil => simp [keepFirst]
  | cons first rest induction =>
      have members := induction fun p in_rest q in_rest' =>
        distinct p (List.mem_cons_of_mem first in_rest) q (List.mem_cons_of_mem first in_rest')
      intro p
      rw [keepFirst]
      cases kept : keepFirst rest with
      | nil =>
          rw [kept] at members
          rw [List.mem_singleton, List.mem_cons, ← members p]
          simp
      | cons q more =>
          rw [kept] at members
          have in_rest : q ∈ rest := (members q).mp List.mem_cons_self
          dsimp only
          split
          · rename_i same
            obtain rfl : first = q :=
              distinct first List.mem_cons_self q (List.mem_cons_of_mem first in_rest) same
            rw [members p, List.mem_cons]
            exact ⟨Or.inr, fun member => member.elim (fun here => here ▸ in_rest) id⟩
          · rw [List.mem_cons, List.mem_cons (b := first), members p]

theorem mem_of_mem_keepFirst {paths : List Path} {p : Path} (member : p ∈ keepFirst paths) :
    p ∈ paths := by
  induction paths with
  | nil => exact absurd member (by simp [keepFirst])
  | cons first rest induction =>
      rw [keepFirst] at member
      rw [List.mem_cons]
      split at member
      · rename_i q more kept
        rw [kept, List.mem_cons] at induction
        split at member
        · exact (List.mem_cons.mp member).imp_right fun later => induction (Or.inr later)
        · exact (List.mem_cons.mp member).imp_right fun later => induction (List.mem_cons.mp later)
      · exact Or.inl (List.mem_singleton.mp member)

theorem pairwise_keepFirst {paths : List Path}
    (sorted : paths.Pairwise fun p q => p.le q = true) :
    (keepFirst paths).Pairwise Path.Precedes := by
  induction paths with
  | nil => exact List.Pairwise.nil
  | cons first rest induction =>
      obtain ⟨least, sorted⟩ := List.pairwise_cons.mp sorted
      have increasing := induction sorted
      rw [keepFirst]
      cases kept : keepFirst rest with
      | nil => exact List.pairwise_singleton _ first
      | cons q more =>
          rw [kept] at increasing
          obtain ⟨before_more, increasing_more⟩ := List.pairwise_cons.mp increasing
          have q_member : q ∈ rest := mem_of_mem_keepFirst (by simp [kept])
          dsimp only
          split
          · rename_i same
            refine List.pairwise_cons.mpr ⟨fun p member => ?_, increasing_more⟩
            exact (before_more p member).of_same same
          · rename_i different
            have first_before : first.Precedes q := ⟨least q q_member, by simpa using different⟩
            refine List.pairwise_cons.mpr ⟨fun p member => ?_, increasing⟩
            rcases List.mem_cons.mp member with rfl | later
            · exact first_before
            · exact first_before.trans (before_more p later)

theorem mem_arranged_iff {paths : List Path}
    (distinct : ∀ p ∈ paths, ∀ q ∈ paths, p.same q = true → p = q) (p : Path) :
    p ∈ arranged paths ↔ p ∈ paths := by
  have sorted : ∀ p ∈ paths.mergeSort Path.le, ∀ q ∈ paths.mergeSort Path.le,
      p.same q = true → p = q := by
    simpa only [List.mem_mergeSort] using distinct
  rw [arranged, mem_keepFirst_iff sorted, List.mem_mergeSort]

/-- What is arranged is in increasing order, each path once. -/
theorem pairwise_arranged (paths : List Path) : (arranged paths).Pairwise Path.Precedes :=
  pairwise_keepFirst (Path.pairwise_le_mergeSort paths)

/-! ## The steps of packaging -/

variable {world world' : World} {packageDir : Path}

/-- Packaging that succeeds goes through all its steps. -/
theorem package_eq_ok {packager : Packager} {layout : ArtifactLayout}
    (packaged : (packager.package packageDir).outcome world = (.ok layout, world')) :
    ∃ decided gone ready lists, decided.tree = world.tree ∧
      decided.notices = world.notices ++ missingNotices packager.rules world.tree ∧
      (packager.destinations.forM fun dst => removeDirectory (packageDir.join dst)).outcome
          decided = (.ok (), gone) ∧
      (makeDirectories packageDir).outcome gone = (.ok (), ready) ∧
      (copyRules packageDir ((ready.tree.find packageDir).toOption.map (·.1))
          (packager.rules.filter fun rule => world.tree.isDir rule.src)).outcome ready =
        (.ok lists, world') ∧
      layout = ⟨packageDir, arranged lists.1, arranged lists.2⟩ := by
  rw [package] at packaged
  obtain ⟨present, decided, first, clearing⟩ := outcome_bind_eq_ok_iff.mp packaged
  obtain ⟨⟨⟩, gone, removed, making⟩ := outcome_bind_eq_ok_iff.mp clearing
  obtain ⟨⟨⟩, ready, made, looking⟩ := outcome_bind_eq_ok_iff.mp making
  obtain ⟨guard, looked, look, copying⟩ := outcome_bind_eq_ok_iff.mp looking
  simp only [outcome_look, Prod.mk.injEq, Except.ok.injEq] at look
  obtain ⟨rfl, rfl⟩ := look
  obtain ⟨⟨headers, libraries⟩, last, copied, listing⟩ := outcome_bind_eq_ok_iff.mp copying
  simp only [outcome_pure, Prod.mk.injEq, Except.ok.injEq] at listing
  obtain ⟨rfl, rfl⟩ := listing
  obtain ⟨rfl, same, told⟩ := presentRules_eq_ok first
  exact ⟨decided, gone, ready, (headers, libraries), same, told, removed, made, copied, rfl⟩

/-- The package directory after it was cleared and made, when its path never steps up. -/
theorem made_of_cleared {before : FileTree} (free : before.LinkFree)
    (some_component : packageDir.components ≠ []) (straight : packageDir.Straight)
    (cleared : world.tree = before.cleared (packageDir.land before.here))
    (outcome : (Action.makeDirectories packageDir).outcome world = (.ok (), world')) :
    Spares (Outside (packageDir.land before.here)) before world'.tree ∧
      world'.tree.find packageDir = .ok (packageDir.land before.here, .directory) ∧
      ∀ k, ¬Outside (packageDir.land before.here) k → world'.tree.lookup? k = none := by
  have spares : Spares (Outside (packageDir.land before.here)) before world.tree := by
    rw [cleared]
    exact cleared_spares
  have made := makeDirectories_made (spares.free free) packageDir
  rw [outcome_change_eq_ok outcome] at made
  have found := made.found rfl some_component
  rw [spares.here] at found
  refine ⟨spares.trans made.grows.spares, found, ?_⟩
  · intro k inside
    have absent : world.tree.lookup? k = none := by
      rw [cleared, lookup?_cleared_of_not_outside inside]
    cases there : world'.tree.lookup? k with
    | none => rfl
    | some e =>
        rcases made.grows.added there with there | rfl
        · exact absurd (absent.symm.trans there) (by simp)
        · have above := made.isPrefix_land straight absent there
          rw [spares.here] at above
          refine absurd ⟨fun below => ?_, fun below => ?_⟩ inside
          · exact (outside_self _).1 (below.trans above)
          · exact (outside_self _).2 (below.trans above)

/-! ## The package -/

/-- What packaging leaves in the directory at a location, in terms of the files before, and what it
lists. -/
structure Packaged (headers libraries : CopyRule) (packageDir : Path) (l : Location)
    (before after : FileTree) (layout : ArtifactLayout) : Prop where
  /-- There are no links. -/
  free : after.LinkFree
  /-- The files in the directory for headers are the headers that were picked, at their ways from
  the source and with what they held. -/
  header_iff : ∀ way e, e.isFile = true →
    (after.lookup? (l ++ includeName :: way) = some e ↔
      ∃ top, headers.Picks before (some l) top way e)
  /-- The files in the directory for libraries lie directly in it, each under the name of a library
  that was picked and with what it held. -/
  library : ∀ way e, e.isFile = true → after.lookup? (l ++ libName :: way) = some e →
    ∃ top front name, way = [name] ∧ libraries.Picks before (some l) top (front ++ [name]) e
  /-- There is a file under the name of every library that was picked. -/
  named : ∀ top front name e, libraries.Picks before (some l) top (front ++ [name]) e →
    ∃ e', e'.isFile = true ∧ after.lookup? (l ++ [libName, name]) = some e'
  /-- All directories there are on the way to such a file, so nothing of what was there earlier
  is left. -/
  fresh : ∀ dir, dir = includeName ∨ dir = libName → ∀ way,
    after.lookup? (l ++ dir :: way) = some .directory →
      ∃ name more e, e.isFile = true ∧ after.lookup? (l ++ dir :: way ++ name :: more) = some e
  /-- Everything else that was there is still there. -/
  elsewhere : ∀ k e, Outside l k → before.lookup? k = some e → after.lookup? k = some e
  /-- No other files have appeared. -/
  no_more : ∀ k e, Outside l k → e.isFile = true → after.lookup? k = some e →
    before.lookup? k = some e
  /-- The layout names the package directory. -/
  root_eq : layout.root = packageDir
  /-- It lists the headers of the package. -/
  mem_headers : ∀ p, p ∈ layout.headers ↔ ∃ way e, e.isFile = true ∧
    after.lookup? (l ++ includeName :: way) = some e ∧
      p = (⟨""⟩ : Path).descend (includeName :: way)
  /-- It lists the libraries of the package. -/
  mem_libraries : ∀ p, p ∈ layout.libraries ↔ ∃ way e, e.isFile = true ∧
    after.lookup? (l ++ libName :: way) = some e ∧
      p = (⟨""⟩ : Path).descend (libName :: way)
  /-- It lists both in increasing order, each path once. -/
  increasing : layout.headers.Pairwise Path.Precedes ∧ layout.libraries.Pairwise Path.Precedes

theorem eq_of_picks {rule : CopyRule} {t : FileTree} {guard : Option Location}
    {top top' way : Location} {e e' : Entry} (picked : rule.Picks t guard top way e)
    (picked' : rule.Picks t guard top' way e') : e = e' := by
  obtain ⟨rfl, -⟩ := Prod.mk.inj (Except.ok.inj (picked.source.symm.trans picked'.source))
  exact Option.some.inj (picked.found.symm.trans picked'.found)

theorem directory_leads_to_file {rule : CopyRule} {dir : Name} {l way : Location}
    {before after : FileTree} (output : rule.Output l dir before after)
    (directory : after.lookup? (l ++ dir :: way) = some .directory) :
    ∃ name more e, e.isFile = true ∧ after.lookup? (l ++ dir :: way ++ name :: more) = some e := by
  rw [List.append_cons] at directory
  rcases output.inside way _ directory with ⟨top, way', picked, -⟩ |
    ⟨-, top, way', e, picked, above, other⟩
  · exact absurd picked.regular (by simp [Entry.isFile])
  · obtain ⟨top', way'', e', picked', -, found⟩ := output.stocked top way' e picked
    obtain ⟨rest, goal_eq⟩ := above
    cases rest with
    | nil => exact absurd (by simpa using goal_eq) other
    | cons name more =>
        refine ⟨name, more, e', picked'.regular, ?_⟩
        rw [← goal_eq] at found
        simpa using found

theorem distinct_of_descend {paths : List Path}
    (descents : ∀ p ∈ paths, ∃ names, p = (⟨""⟩ : Path).descend names) :
    ∀ p ∈ paths, ∀ q ∈ paths, p.same q = true → p = q := by
  intro p member q member' same
  obtain ⟨names, rfl⟩ := descents p member
  obtain ⟨others, rfl⟩ := descents q member'
  rw [Path.eq_of_same_descend_empty same]

/-- The files a rule leaves and the paths it lists are the same. -/
theorem mem_arranged_iff_of_output {rule : CopyRule} {dir : Name} {l : Location}
    {before after : FileTree} (output : rule.Output l dir before after) {copied : List Path}
    (listed : ∀ p, p ∈ copied ↔ ∃ top way e, rule.Picks before (some l) top way e ∧
      p = (⟨""⟩ : Path).descend (dir :: rule.goal way)) (p : Path) :
    p ∈ arranged copied ↔ ∃ way e, e.isFile = true ∧
      after.lookup? (l ++ dir :: way) = some e ∧ p = (⟨""⟩ : Path).descend (dir :: way) := by
  have descents : ∀ p ∈ copied, ∃ names, p = (⟨""⟩ : Path).descend names := by
    intro p member
    obtain ⟨top, way, e, -, rfl⟩ := (listed p).mp member
    exact ⟨_, rfl⟩
  rw [mem_arranged_iff (distinct_of_descend descents), listed p]
  constructor
  · rintro ⟨top, way, e, picked, rfl⟩
    obtain ⟨top', way', e', picked', -, found⟩ := output.stocked top way e picked
    exact ⟨rule.goal way, e', picked'.regular, by rw [List.append_cons, found], rfl⟩
  · rintro ⟨way, e, regular, found, rfl⟩
    rw [List.append_cons] at found
    rcases output.inside way e found with ⟨top, way', picked, rfl⟩ | ⟨rfl, -⟩
    · exact ⟨top, way', e, picked, rfl⟩
    · exact absurd regular (by simp [Entry.isFile])

/-- What both rules leave makes up the package. -/
theorem packaged_of_outputs {headerSource librarySource : Path} {headers libraries : List Glob}
    {packageDir : Path} {l : Location} {before after : FileTree} (free : after.LinkFree)
    (spares : Spares (Outside l) before after)
    (headers_output :
      (CopyRule.headers headerSource headers).Output l includeName before after)
    (libraries_output :
      (CopyRule.libraries librarySource libraries).Output l libName before after)
    {copied_headers copied_libraries : List Path}
    (headers_listed : ∀ p, p ∈ copied_headers ↔ ∃ top way e,
      (CopyRule.headers headerSource headers).Picks before (some l) top way e ∧
        p = (⟨""⟩ : Path).descend (includeName :: way))
    (libraries_listed : ∀ p, p ∈ copied_libraries ↔ ∃ top way e,
      (CopyRule.libraries librarySource libraries).Picks before (some l) top way e ∧
        p = (⟨""⟩ : Path).descend
          (libName :: (CopyRule.libraries librarySource libraries).goal way)) :
    Packaged (.headers headerSource headers) (.libraries librarySource libraries) packageDir l
      before after ⟨packageDir, arranged copied_headers, arranged copied_libraries⟩ where
  free := free
  header_iff way e regular := by
    rw [List.append_cons]
    constructor
    · intro found
      rcases headers_output.inside way e found with ⟨top, way', picked, rfl⟩ | ⟨rfl, -⟩
      · exact ⟨top, picked⟩
      · exact absurd regular (by simp [Entry.isFile])
    · rintro ⟨top, picked⟩
      obtain ⟨top', way', e', picked', goal_eq, found⟩ := headers_output.stocked top way e picked
      obtain rfl : way' = way := goal_eq
      rw [eq_of_picks picked picked']
      exact found
  library way e regular found := by
    rw [List.append_cons] at found
    rcases libraries_output.inside way e found with ⟨top, way', picked, rfl⟩ | ⟨rfl, -⟩
    · obtain ⟨front, name, rfl, -⟩ := picked.selected
      exact ⟨top, front, name, by rw [CopyRule.goal_concat]; rfl, picked⟩
    · exact absurd regular (by simp [Entry.isFile])
  named top front name e picked := by
    obtain ⟨top', way', e', picked', -, found⟩ := libraries_output.stocked top _ e picked
    rw [CopyRule.goal_concat] at found
    exact ⟨e', picked'.regular, by simpa [CopyRule.libraries] using found⟩
  fresh dir which way directory := by
    rcases which with rfl | rfl
    · exact directory_leads_to_file headers_output directory
    · exact directory_leads_to_file libraries_output directory
  elsewhere := spares.kept
  no_more := spares.files
  root_eq := rfl
  mem_headers := mem_arranged_iff_of_output headers_output headers_listed
  mem_libraries := mem_arranged_iff_of_output libraries_output libraries_listed
  increasing := ⟨pairwise_arranged _, pairwise_arranged _⟩

/-- What both rules do one after the other in an empty package: what they list, and the worlds they
leave. -/
structure Copied (headers libraries : CopyRule) (packageDir : Path) (l : Location)
    (before : FileTree) (world : World) (copied copied' : List Path) (middle last : World) :
    Prop where
  /-- The headers are copied, when their source was there. -/
  first : (if before.isDir headers.src = true then copyRule headers packageDir (some l)
    else pure []).outcome world = (.ok copied, middle)
  /-- The libraries are copied, when their source was there. -/
  second : (if before.isDir libraries.src = true then copyRule libraries packageDir (some l)
    else pure []).outcome middle = (.ok copied', last)
  here : middle.tree.here = world.tree.here ∧ last.tree.here = world.tree.here
  free : middle.tree.LinkFree ∧ last.tree.LinkFree
  /-- The headers change nothing outside of the package. -/
  outside_middle : ∀ k, Outside l k → middle.tree.lookup? k = world.tree.lookup? k
  /-- Nor do the libraries. -/
  outside_last : ∀ k, Outside l k → last.tree.lookup? k = world.tree.lookup? k
  output : headers.Output l includeName before last.tree
  output' : libraries.Output l libName before last.tree
  listed : ∀ p, p ∈ copied ↔ ∃ top way e, headers.Picks before (some l) top way e ∧
    p = (⟨""⟩ : Path).descend (includeName :: headers.goal way)
  listed' : ∀ p, p ∈ copied' ↔ ∃ top way e, libraries.Picks before (some l) top way e ∧
    p = (⟨""⟩ : Path).descend (libName :: libraries.goal way)

/-- Copying for both rules into an empty package goes through both steps. -/
theorem exists_copied_of_empty {headerSource librarySource : Path}
    {headers libraries : List Glob} {l : Location} {before : FileTree} (free : before.LinkFree)
    (sources : ∀ rule ∈ [CopyRule.headers headerSource headers,
      CopyRule.libraries librarySource libraries],
      rule.src.Straight ∧ Outside l (rule.src.land before.here))
    (spares : Spares (Outside l) before world.tree) (opens : world.tree.Opens packageDir l)
    (empty : ∀ k, ¬Outside l k → world.tree.lookup? k = none) :
    ∃ copied copied' middle last,
      Copied (.headers headerSource headers) (.libraries librarySource libraries) packageDir l
        before world copied copied' middle last := by
  obtain ⟨headers_straight, headers_apart⟩ := sources _ List.mem_cons_self
  obtain ⟨libraries_straight, libraries_apart⟩ :=
    sources _ (List.mem_cons_of_mem _ List.mem_cons_self)
  obtain ⟨copied, middle, first, here, free₁, outside, output, listed⟩ :=
    CopyRule.outcome_copyPresent (CopyRule.fills_headers headerSource headers) free spares opens
      (fun q => empty _ (not_outside_include l q)) headers_straight headers_apart
  have kept (k : Location) (e : Entry) (found : world.tree.lookup? k = some e) :
      middle.tree.lookup? k = some e := by
    rw [outside k, found]
    rintro ⟨q, rfl⟩
    exact absurd ((empty _ (not_outside_include l q)).symm.trans found) (by simp)
  have spares₁ : Spares (Outside l) before middle.tree :=
    spares.trans (.of_lookup?_eq here free₁ fun k apart => outside k apart.1)
  have empty₁ (q : Location) : middle.tree.lookup? (l ++ [libName] ++ q) = none := by
    rw [outside _ (not_prefix_of_ne includeName_ne_libName l q), empty _ (not_outside_lib l q)]
  obtain ⟨copied', last, second, here', free₂, outside', output', listed'⟩ :=
    CopyRule.outcome_copyPresent (CopyRule.fills_libraries librarySource libraries) free spares₁
      (opens.mono here fun k => kept k .directory) empty₁ libraries_straight libraries_apart
  have output_headers := output.of_lookup? fun q =>
    outside' _ (not_prefix_of_ne includeName_ne_libName.symm l q)
  exact ⟨copied, copied', middle, last, {
    first := first
    second := second
    here := ⟨here, here'.trans here⟩
    free := ⟨free₁, free₂⟩
    outside_middle := fun k apart => outside k apart.1
    outside_last := fun k apart => (outside' k apart.2).trans (outside k apart.1)
    output := output_headers
    output' := output'
    listed := listed
    listed' := listed' }⟩

/-- Both steps together are the copying for both rules. -/
theorem Copied.outcome {headerSource librarySource : Path} {headers libraries : List Glob}
    {l : Location} {before : FileTree} {copied copied' : List Path} {middle last : World}
    (steps : Copied (.headers headerSource headers) (.libraries librarySource libraries) packageDir
      l before world copied copied' middle last) :
    (copyRules packageDir (some l) ([CopyRule.headers headerSource headers,
      CopyRule.libraries librarySource libraries].filter
        fun rule => before.isDir rule.src)).outcome world = (.ok (copied, copied'), last) := by
  rw [copyRules_filter_cons, outcome_bind_ok steps.first, copyRules_filter_cons, bind_assoc,
    outcome_bind_ok steps.second]
  simp [copyRules, CopyRule.headers, CopyRule.libraries]

/-- What is left after both steps makes up the package. -/
theorem Copied.packaged {headerSource librarySource : Path} {headers libraries : List Glob}
    {l : Location} {before : FileTree} {copied copied' : List Path} {middle last : World}
    (steps : Copied (.headers headerSource headers) (.libraries librarySource libraries) packageDir
      l before world copied copied' middle last)
    (spares : Spares (Outside l) before world.tree) :
    Packaged (.headers headerSource headers) (.libraries librarySource libraries) packageDir l
      before last.tree ⟨packageDir, arranged copied, arranged copied'⟩ := by
  have spares' : Spares (Outside l) before last.tree :=
    spares.trans (.of_lookup?_eq steps.here.2 steps.free.2 steps.outside_last)
  exact packaged_of_outputs steps.free.2 spares' steps.output steps.output' steps.listed
    steps.listed'

/-- Copying for both rules into an empty package succeeds and fills it. -/
theorem outcome_copyRules_of_empty {headerSource librarySource : Path}
    {headers libraries : List Glob} {l : Location} {before : FileTree} (free : before.LinkFree)
    (sources : ∀ rule ∈ [CopyRule.headers headerSource headers,
      CopyRule.libraries librarySource libraries],
      rule.src.Straight ∧ Outside l (rule.src.land before.here))
    (spares : Spares (Outside l) before world.tree) (opens : world.tree.Opens packageDir l)
    (empty : ∀ k, ¬Outside l k → world.tree.lookup? k = none) :
    ∃ lists world', (copyRules packageDir (some l) ([CopyRule.headers headerSource headers,
        CopyRule.libraries librarySource libraries].filter
          fun rule => before.isDir rule.src)).outcome world = (.ok lists, world') ∧
      Packaged (.headers headerSource headers) (.libraries librarySource libraries) packageDir l
        before world'.tree ⟨packageDir, arranged lists.1, arranged lists.2⟩ := by
  obtain ⟨copied, copied', middle, last, steps⟩ :=
    exists_copied_of_empty free sources spares opens empty
  exact ⟨(copied, copied'), last, steps.outcome, steps.packaged spares⟩

/-- A package holds exactly what the rules picked before, whatever it held earlier: the headers at
their ways from the include tree, the libraries under their names, nothing else. -/
theorem packaged_of_package {recipe : Recipe} {buildDir : Path} {shared : Bool}
    {policy : CopyPolicy} {packager : Packager}
    (made : ofRecipe recipe buildDir shared policy = .ok packager)
    (free : world.tree.LinkFree) (absolute : packageDir.isAbsolute = true)
    (straight : packageDir.Straight)
    (sources : ∀ rule ∈ packager.rules, rule.src.Straight ∧
      Outside (packageDir.land world.tree.here) (rule.src.land world.tree.here))
    {layout : ArtifactLayout}
    (packaged : (packager.package packageDir).outcome world = (.ok layout, world')) :
    ∃ headers libraries, packager.rules = [headers, libraries] ∧
      (headers.src = recipe.root.join recipe.layout.includeDir ∧
        ∀ name, headers.selects name = true ↔
          Glob.Matches (headerPatterns recipe.layout) name) ∧
      (libraries.src = buildDir ∧ ∀ name, libraries.selects name = true ↔
        Glob.Matches (libraryPatterns recipe.layout shared) name) ∧
      Packaged headers libraries packageDir (packageDir.land world.tree.here) world.tree
        world'.tree layout := by
  obtain ⟨headers, libraries, headers_compiled, libraries_compiled, rfl⟩ := ofRecipe_eq_ok made
  refine ⟨_, _, rfl, ⟨rfl, CopyRule.selects_iff headers_compiled⟩,
    ⟨rfl, CopyRule.selects_iff libraries_compiled⟩, ?_⟩
  obtain ⟨decided, gone, ready, lists, same, -, removed, directory_made, copied, rfl⟩ :=
    package_eq_ok packaged
  have some_component := Path.components_ne_nil_of_isAbsolute absolute
  rw [← same] at free sources ⊢
  have cleared : gone.tree = decided.tree.cleared (packageDir.land decided.tree.here) := by
    rw [forM_destinations] at removed
    exact tree_of_outcome_clear free straight removed
  obtain ⟨spares, found, empty⟩ :=
    made_of_cleared free some_component straight cleared directory_made
  have some_text := ((find_eq_ok_iff (spares.free free)).mp found).1
  have opens := (find_directory_iff_opens (spares.free free) some_text).mp found
  rw [found, ← same] at copied
  obtain ⟨lists', last, outcome, contents⟩ :=
    outcome_copyRules_of_empty free sources spares opens empty
  obtain ⟨lists_eq, rfl⟩ := Prod.mk.inj (copied.symm.trans outcome)
  obtain rfl := Except.ok.inj lists_eq
  exact contents

/-- Packaging into a directory succeeds when all sources are there and no file stands in place of
the two directories of the package. -/
theorem package_succeeds {recipe : Recipe} {buildDir : Path} {shared : Bool} {policy : CopyPolicy}
    {packager : Packager} (made : ofRecipe recipe buildDir shared policy = .ok packager)
    (free : world.tree.LinkFree) (absolute : packageDir.isAbsolute = true)
    (straight : packageDir.Straight)
    (directory : world.tree.lookup? (packageDir.land world.tree.here) = some .directory)
    (no_include_file : ¬world.tree.HoldsFile (packageDir.land world.tree.here ++ [includeName]))
    (no_lib_file : ¬world.tree.HoldsFile (packageDir.land world.tree.here ++ [libName]))
    (sources : ∀ rule ∈ packager.rules, rule.src.Straight ∧
      Outside (packageDir.land world.tree.here) (rule.src.land world.tree.here))
    (present : ∀ rule ∈ packager.rules, world.tree.isDir rule.src = true) :
    ∃ layout world', (packager.package packageDir).outcome world = (.ok layout, world') := by
  obtain ⟨headers, libraries, -, -, rfl⟩ := ofRecipe_eq_ok made
  have standing := cleared_opens_of_straight straight directory
  obtain ⟨ready, cleared, outcome⟩ := outcome_package_of_standing
    (recipe.root.join recipe.layout.includeDir) buildDir headers libraries policy free standing
    (Or.inr present) no_include_file no_lib_file
  have spares : Spares (Outside (packageDir.land world.tree.here)) world.tree ready.tree := by
    rw [cleared]
    exact cleared_spares
  have empty (k : Location) (inside : ¬Outside (packageDir.land world.tree.here) k) :
      ready.tree.lookup? k = none := by
    rw [cleared, lookup?_cleared_of_not_outside inside]
  rw [← cleared] at standing
  obtain ⟨lists, world', copied, -⟩ :=
    outcome_copyRules_of_empty free sources spares standing empty
  have guard := guard_of_absolute free absolute (opens_of_straight straight directory)
  refine ⟨⟨packageDir, arranged lists.1, arranged lists.2⟩, world', ?_⟩
  rw [outcome, guard, outcome_bind_ok copied]
  rfl

/-- The directory of the small project. -/
def smallPlace : Location := [⟨"pkg", by decide⟩]

/-- The build directory of the small project. -/
def smallBuild : Location := smallPlace ++ [⟨"build", by decide⟩]

/-- Where a build of the small project for release puts its outputs. -/
def smallRelease : Location := smallBuild ++ [⟨"Release", by decide⟩]

/-- The name of the library of the small project. -/
def smallLibrary : Name := ⟨"libmini.a", by decide⟩

/-- The name of the header of the small project. -/
def smallHeader : Name := ⟨"mini.h", by decide⟩

/-- Where the small project is packaged. -/
def smallPackageDir : Location := smallPlace ++ [⟨"package", by decide⟩]

/-- The header in the older package of the small project. -/
def smallOldHeader : Location :=
  smallPlace ++ [⟨"package", by decide⟩, includeName, ⟨"old.h", by decide⟩]

/-- The small project after a build, with a header, a library and an older package. -/
def smallProject : FileTree :=
  let package := smallPlace ++ [⟨"package", by decide⟩]
  .ofEntries [
    (smallPlace, .directory),
    (smallPlace ++ [includeName], .directory),
    (smallPlace ++ [includeName] ++ [smallHeader], .file "new".toUTF8 false),
    (smallBuild, .directory),
    (smallRelease, .directory),
    (smallRelease ++ [smallLibrary], .file "lib".toUTF8 false),
    (package, .directory),
    (package ++ [includeName], .directory),
    (package ++ [includeName, ⟨"old.h", by decide⟩], .file "old".toUTF8 false)]

theorem smallProject_linkFree : smallProject.LinkFree := by decide +kernel

/-- The small project can be packaged over its older package, which its sources lie apart from. -/
theorem exists_small_run :
    ∃ recipe prepared packager layout world',
      Recipe.FromSmall "" recipe ∧
      recipe.prepare Recipe.plainOptions {} {} = .ok prepared ∧
      prepared.packager recipe .strict = .ok packager ∧
      (packager.package prepared.packageDir).outcome { tree := smallProject } =
        (.ok layout, world') ∧
      prepared.packageDir.isAbsolute = true ∧ prepared.packageDir.Straight ∧
      ∀ rule ∈ packager.rules, rule.src.Straight ∧
        Outside (prepared.packageDir.land smallProject.here) (rule.src.land smallProject.here) := by
  obtain ⟨recipe, prepared, read, ready, fit⟩ := Recipe.exists_of_prepareSmall? ""
    Recipe.plainOptions (fun recipe prepared =>
      match prepared.packager recipe .strict with
      | .error _ => false
      | .ok packager =>
        let l := prepared.packageDir.land smallProject.here
        decide (prepared.packageDir.isAbsolute = true ∧ prepared.packageDir.Straight ∧
          smallProject.lookup? l = some .directory ∧
          ¬smallProject.HoldsFile (l ++ [includeName]) ∧ ¬smallProject.HoldsFile (l ++ [libName]) ∧
          (∀ rule ∈ packager.rules,
            rule.src.Straight ∧ Outside l (rule.src.land smallProject.here)) ∧
          ∀ rule ∈ packager.rules, smallProject.isDir rule.src = true)) (by decide +kernel)
  cases made : prepared.packager recipe .strict with
  | error failure => simp [made] at fit
  | ok packager =>
      simp only [made, decide_eq_true_eq] at fit
      obtain ⟨absolute, straight, directory, no_include_file, no_lib_file, sources, present⟩ := fit
      obtain ⟨layout, world', packaged⟩ : ∃ layout world',
          (packager.package prepared.packageDir).outcome { tree := smallProject } =
            (.ok layout, world') :=
        package_succeeds made smallProject_linkFree absolute straight directory no_include_file
          no_lib_file sources present
      exact ⟨recipe, prepared, packager, layout, world', read, ready, made, packaged, absolute,
        straight, sources⟩

/-- The small project is packaged over its older package. -/
theorem packaged_small_project :
    ∃ recipe prepared packager layout world',
      Recipe.FromSmall "" recipe ∧
      recipe.prepare Recipe.plainOptions {} {} = .ok prepared ∧
      prepared.packager recipe .strict = .ok packager ∧
      (packager.package prepared.packageDir).outcome { tree := smallProject } =
        (.ok layout, world') ∧
      ∃ headers libraries, packager.rules = [headers, libraries] ∧
        Packaged headers libraries prepared.packageDir (prepared.packageDir.land smallProject.here)
          smallProject world'.tree layout := by
  obtain ⟨recipe, prepared, packager, layout, world', read, ready, made, packaged, absolute,
    straight, sources⟩ := exists_small_run
  obtain ⟨headers, libraries, rules, -, -, contents⟩ :=
    packaged_of_package made smallProject_linkFree absolute straight sources packaged
  exact ⟨recipe, prepared, packager, layout, world', read, ready, made, packaged, headers,
    libraries, rules, contents⟩

end Packager
end PackageBuild
