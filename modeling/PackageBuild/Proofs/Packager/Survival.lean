import PackageBuild.Proofs.Packager.Output
/-!
# What packaging leaves of its sources

Packaging clears the two directories of a package before it copies anything, so what it is to
package is lost when it lies in there. Everything else survives, whatever packaging returns.
-/

namespace PackageBuild

open FileTree

namespace FileTree

/-- Whether there is a file with these bytes at a location. -/
def HoldsBytes (t : FileTree) (l : Location) (content : ByteArray) : Prop :=
  ∃ executable, t.lookup? l = some (.file content executable)

end FileTree

namespace Packager

open PackageBuild.Action

/-- Whether packaging into the directory at one location removes what is at another. A file in
place of a directory of the package ends the removal there. -/
def Clears (packager : Packager) (t : FileTree) (l k : Location) : Prop :=
  Proceeds packager.policy packager.rules t ∧ ¬t.HoldsFile (l ++ [includeName]) ∧
    (l ++ [includeName] <+: k ∨ l ++ [libName] <+: k ∧ ¬t.HoldsFile (l ++ [libName]))

theorem Clears.not_outside {packager : Packager} {t : FileTree} {l k : Location}
    (clears : packager.Clears t l k) : ¬Outside l k := by
  intro outside
  rcases clears.2.2 with below | ⟨below, -⟩
  · exact outside.1 below
  · exact outside.2 below

/-- Whether packaging into the directory at one location puts a header with these bytes at
another, from a source that is still there once the directories of the package are gone. -/
def PutsBack (packager : Packager) (t : FileTree) (l k : Location) (content : ByteArray) : Prop :=
  ¬t.HoldsFile (l ++ [libName]) ∧ ∃ rule ∈ packager.rules, rule.keepPath = true ∧
    ∃ top way executable, k = l ++ includeName :: way ∧
      rule.Picks (t.cleared l) (some l) top way (.file content executable)

/-- Whether the path of a package directory is not empty and leads to the same place without the
two directories of the package, as it does when it never steps up. -/
def Settled (t : FileTree) (packageDir : Path) : Prop :=
  packageDir.text ≠ "" ∧ (packageDir.Straight ∨
    (t.cleared (packageDir.land t.here)).find packageDir =
      .ok (packageDir.land t.here, .directory))

theorem Settled.opens {t : FileTree} {packageDir : Path} (settled : Settled t packageDir)
    (free : t.LinkFree) (directory : t.lookup? (packageDir.land t.here) = some .directory) :
    (t.cleared (packageDir.land t.here)).Opens packageDir (packageDir.land t.here) := by
  rcases settled.2 with straight | found
  · exact cleared_opens_of_straight straight directory
  · exact (find_directory_iff_opens (cleared_spares.free free) settled.1).mp found

variable {world : World} {packageDir : Path} {l k : Location}

/-! ## Packaging that is refused -/

section Refused

variable {recipe : Recipe} {buildDir : Path} {shared : Bool} {policy : CopyPolicy}
  {packager : Packager}

theorem tree_package_of_missing
    (missing : ¬Proceeds packager.policy packager.rules world.tree) :
    ((packager.package packageDir).outcome world).2.tree = world.tree := by
  obtain ⟨failure, refused⟩ := outcome_presentRules_of_missing missing
  rw [package, outcome_bind_error refused]

/-- A file in place of a directory of the package keeps everything but the headers, and these too
when it is in their place. -/
theorem tree_package_of_file (made : ofRecipe recipe buildDir shared policy = .ok packager)
    (proceeds : Proceeds packager.policy packager.rules world.tree) (free : world.tree.LinkFree)
    (standing : (world.tree.cleared l).Opens packageDir l)
    (file : world.tree.HoldsFile (l ++ [includeName]) ∨ world.tree.HoldsFile (l ++ [libName])) :
    ((packager.package packageDir).outcome world).2.tree =
      if world.tree.HoldsFile (l ++ [includeName]) then world.tree
      else world.tree.removeAt (l ++ [includeName]) := by
  obtain ⟨headers, libraries, -, -, rfl⟩ := ofRecipe_eq_ok made
  obtain ⟨after, same, -, first⟩ := outcome_presentRules proceeds
  rw [← same] at free standing file ⊢
  obtain ⟨failure, refused⟩ := outcome_clear_of_file free standing file
  rw [package, outcome_bind_ok first, forM_destinations, outcome_bind_error refused]

end Refused

/-! ## Copying after the removal -/

/-- What a tree has become by copying headers into their empty directory. -/
structure Headed (rule : CopyRule) (l : Location) (before after : FileTree) : Prop where
  /-- Relative paths start where they did. -/
  here : after.here = before.here
  /-- There are no links. -/
  free : after.LinkFree
  /-- Nothing else has changed. -/
  outside : ∀ k, ¬l ++ [includeName] <+: k → after.lookup? k = before.lookup? k
  /-- The files in the directory are the headers that were picked, at their ways. -/
  header_iff : ∀ way e, e.isFile = true → (after.lookup? (l ++ includeName :: way) = some e ↔
    ∃ top, rule.Picks before (some l) top way e)

theorem headed_of_no_source {rule : CopyRule} {t : FileTree} (free : t.LinkFree)
    (empty : ∀ q, t.lookup? (l ++ [includeName] ++ q) = none)
    (no_source : ∀ top, t.find rule.src ≠ .ok (top, .directory)) : Headed rule l t t where
  here := rfl
  free := free
  outside _ _ := rfl
  header_iff way e _ := by
    rw [List.append_cons, empty way]
    constructor
    · exact fun found => absurd found (by simp)
    · rintro ⟨top, picked⟩
      exact absurd picked.source (no_source top)

theorem headed_of_fill {rule : CopyRule} {t t' : FileTree} {top : Location}
    (keeps : rule.keepPath = true) (source : t.find rule.src = .ok (top, .directory))
    (fill : rule.Fill (some l) top (l ++ [includeName]) t t') : Headed rule l t t' where
  here := fill.here
  free := fill.free
  outside := fill.outside
  header_iff way e regular := by
    have goal_eq (way : Location) : rule.goal way = way := by rw [CopyRule.goal, if_pos keeps]
    rw [List.append_cons]
    constructor
    · intro there
      rcases fill.inside way e there with ⟨way', picked, rfl⟩ | ⟨rfl, -⟩
      · exact ⟨top, by rwa [goal_eq]⟩
      · exact absurd regular (by simp [Entry.isFile])
    · rintro ⟨top', picked⟩
      obtain ⟨rfl, -⟩ := Prod.mk.inj (Except.ok.inj (source.symm.trans picked.source))
      obtain ⟨way', e', picked', same, there⟩ := fill.stocked way e picked
      rw [goal_eq, goal_eq] at same
      rw [goal_eq] at there
      subst same
      rw [eq_of_picks picked picked', there]

section Cleared

variable {before : FileTree} (free : before.LinkFree) (cleared : world.tree = before.cleared l)
  (standing : (before.cleared l).Opens packageDir l)
include free cleared standing

/-- The headers are put into their empty directory, unless their source is gone. -/
theorem exists_headed {rule : CopyRule} (fills : rule.Fills includeName)
    (keeps : rule.keepPath = true) :
    ∃ result middle, (if before.isDir rule.src = true then copyRule rule packageDir (some l)
          else pure []).outcome world = (result, middle) ∧
      Headed rule l world.tree middle.tree := by
  have spares : Spares (Outside l) before world.tree := by
    rw [cleared]
    exact cleared_spares
  have kept (k : Location) (e : Entry) (found : world.tree.lookup? k = some e) :
      before.lookup? k = some e := by
    rw [cleared] at found
    exact lookup?_of_cleared found
  have empty (q : Location) : world.tree.lookup? (l ++ [includeName] ++ q) = none := by
    rw [cleared, lookup?_cleared_of_not_outside (not_outside_include l q)]
  have found_before {top : Location} {e : Entry} (found : world.tree.find rule.src = .ok (top, e)) :
      before.find rule.src = .ok (top, e) :=
    find_mono (spares.free free) free spares.here.symm kept found
  by_cases present : before.isDir rule.src = true
  · cases source : world.tree.find rule.src with
    | error fault =>
        obtain ⟨failure, outcome⟩ := CopyRule.outcome_copyRule_of_missing source (some l)
        refine ⟨.error failure, world, by rw [if_pos present, outcome], ?_⟩
        exact headed_of_no_source (spares.free free) empty (by simp [source])
    | ok place =>
        obtain ⟨top, e⟩ := place
        obtain ⟨top', found⟩ := isDir_iff.mp present
        obtain ⟨rfl, rfl⟩ := Prod.mk.inj (Except.ok.inj (found.symm.trans (found_before source)))
        obtain ⟨copied, middle, outcome, fill, -⟩ :=
          CopyRule.outcome_copyRule fills (spares.free free) (cleared ▸ standing) empty source
        exact ⟨.ok copied, middle, by rw [if_pos present, outcome],
          headed_of_fill keeps source fill⟩
  · refine ⟨.ok [], world, by rw [if_neg present]; rfl, ?_⟩
    refine headed_of_no_source (spares.free free) empty fun top found => ?_
    exact present (isDir_iff.mpr ⟨top, found_before found⟩)

variable {headerSource librarySource : Path} {headers libraries : List Glob} {after : FileTree}
  (copied : ((copyRules packageDir (some l) ([CopyRule.headers headerSource headers,
    CopyRule.libraries librarySource libraries].filter
      fun rule => before.isDir rule.src)).outcome world).2.tree = after)
include copied

/-- Copying for both rules ends with the headers, or with what the second rule does after them. -/
theorem exists_middle_of_copyRules :
    ∃ middle : World, Headed (.headers headerSource headers) l world.tree middle.tree ∧
      (after = middle.tree ∨ after =
        ((copyRules packageDir (some l) ([CopyRule.libraries librarySource libraries].filter
          fun rule => before.isDir rule.src)).outcome middle).2.tree) := by
  obtain ⟨result, middle, outcome, headed⟩ := exists_headed free cleared standing
    (CopyRule.fills_headers headerSource headers) rfl
  refine ⟨middle, headed, ?_⟩
  cases result with
  | error failure =>
      left
      rw [← copied, copyRules_filter_cons, outcome_bind_error outcome]
  | ok paths =>
      right
      rw [← copied, copyRules_filter_cons, outcome_bind_ok outcome, outcome_bind_pure_world]

/-- The files among the headers of the package are those picked from the cleared tree. -/
theorem header_copied_iff (way : Location) (e : Entry) (regular : e.isFile = true) :
    after.lookup? (l ++ includeName :: way) = some e ↔
      ∃ top, (CopyRule.headers headerSource headers).Picks world.tree (some l) top way e := by
  obtain ⟨middle, headed, stop | go_on⟩ :=
    exists_middle_of_copyRules free cleared standing copied
  · rw [stop, headed.header_iff way e regular]
  · have here : packageDir.land middle.tree.here = l := by
      rw [headed.here, cleared]
      exact standing.eq_land.symm
    have protects : Keeps (Protects middle.tree.here fun k => ¬l ++ [libName] <+: k)
        (copyRules packageDir (some l) ([CopyRule.libraries librarySource libraries].filter
          fun rule => before.isDir rule.src)) := by
      apply keeps_copyRules
      intro rule member
      obtain rfl := List.mem_singleton.mp (List.mem_filter.mp member).1
      exact ⟨libName, CopyRule.fills_libraries _ _, fun k outside => by rwa [here]⟩
    have spares : Spares (fun k => ¬l ++ [libName] <+: k) middle.tree after := by
      rw [go_on]
      exact protects middle headed.free rfl
    have apart : ¬l ++ [libName] <+: l ++ includeName :: way := by
      rw [List.append_cons l includeName way]
      exact not_prefix_of_ne includeName_ne_libName.symm l way
    rw [← headed.header_iff way e regular]
    exact ⟨spares.files _ e apart regular, spares.kept _ e apart⟩

/-- Nothing is put among the libraries of the package when the source of a rule was there. -/
theorem library_lost {rule : CopyRule} (member : rule ∈ [CopyRule.headers headerSource headers,
      CopyRule.libraries librarySource libraries])
    {top : Location} (source : before.find rule.src = .ok (top, .directory))
    (source_below : l ++ [libName] <+: top) (below : l ++ [libName] <+: k) :
    after.lookup? k = none := by
  have spares : Spares (Outside l) before world.tree := by
    rw [cleared]
    exact cleared_spares
  have gone {q : Location} (inside : l ++ [libName] <+: q) : world.tree.lookup? q = none := by
    rw [cleared, lookup?_cleared_of_not_outside fun outside => outside.2 inside]
  have present : before.isDir rule.src = true := isDir_iff.mpr ⟨top, source⟩
  rw [List.mem_pair] at member
  rcases member with rfl | rfl
  · obtain ⟨fault, missing⟩ := exists_find_eq_error free (spares.free free) spares.here source
      (gone source_below)
    obtain ⟨failure, outcome⟩ := CopyRule.outcome_copyRule_of_missing missing (some l)
    rw [← copied, copyRules_filter_cons, if_pos present, outcome_bind_error outcome]
    exact gone below
  · obtain ⟨middle, headed, ending⟩ := exists_middle_of_copyRules free cleared standing copied
    have still_gone {q : Location} (inside : l ++ [libName] <+: q) :
        middle.tree.lookup? q = none := by
      obtain ⟨rest, rfl⟩ := inside
      rw [headed.outside _ (not_prefix_of_ne includeName_ne_libName l rest)]
      exact gone (List.prefix_append _ rest)
    rcases ending with rfl | rfl
    · exact still_gone below
    · obtain ⟨fault, missing⟩ := exists_find_eq_error free headed.free
        (headed.here.trans spares.here) source (still_gone source_below)
      obtain ⟨failure, outcome⟩ := CopyRule.outcome_copyRule_of_missing missing (some l)
      rw [copyRules_filter_cons, if_pos present, outcome_bind_error outcome]
      exact still_gone below

/-- Once both directories are gone, a picked file that was in there is back only as a header. -/
theorem holdsBytes_iff_putsBack (policy : CopyPolicy) {rule : CopyRule} {top way : Location}
    {content : ByteArray} {executable : Bool} (no_lib_file : ¬before.HoldsFile (l ++ [libName]))
    (member : rule ∈ [CopyRule.headers headerSource headers,
      CopyRule.libraries librarySource libraries])
    (picked : rule.Picks before (some l) top way (.file content executable))
    (inside : ¬Outside l (top ++ way)) :
    after.HoldsBytes (top ++ way) content ↔
      PutsBack ⟨[.headers headerSource headers, .libraries librarySource libraries], policy⟩ before
        l (top ++ way) content := by
  by_cases in_include : l ++ [includeName] <+: top ++ way
  · obtain ⟨rest, place⟩ := in_include
    rw [← List.append_cons] at place
    rw [← place, HoldsBytes]
    constructor
    · rintro ⟨executable', there⟩
      obtain ⟨top', picked'⟩ :=
        (header_copied_iff free cleared standing copied rest _ rfl).mp there
      rw [cleared] at picked'
      exact ⟨no_lib_file, _, List.mem_cons_self, rfl, top', rest, executable', rfl, picked'⟩
    · rintro ⟨-, header, header_member, keeps, top', rest', executable', same, picked'⟩
      obtain rfl : rest = rest' := by simpa using same
      obtain rfl : header = .headers headerSource headers := by
        rcases List.mem_pair.mp header_member with same | rfl
        · exact same
        · exact absurd keeps (by simp [CopyRule.libraries])
      rw [← cleared] at picked'
      exact ⟨executable', (header_copied_iff free cleared standing copied rest _ rfl).mpr
        ⟨top', picked'⟩⟩
  · have in_lib : l ++ [libName] <+: top ++ way := by
      by_contra not_in_lib
      exact inside ⟨in_include, not_in_lib⟩
    have lost := library_lost free cleared standing copied member picked.source
      (picked.source_below in_lib) in_lib
    constructor
    · rintro ⟨executable', there⟩
      exact absurd (lost.symm.trans there) (by simp)
    · rintro ⟨-, _, -, -, top', rest, executable', place, -⟩
      rw [place, List.append_cons l includeName rest] at in_lib
      exact absurd in_lib (not_prefix_of_ne includeName_ne_libName.symm l rest)

end Cleared

/-! ## Survival -/

section Survival

variable {recipe : Recipe} {buildDir : Path} {shared : Bool} {policy : CopyPolicy}
  {packager : Packager} {rule : CopyRule} {top way : Location} {content : ByteArray}
  {executable : Bool}

/-- What packaging into a directory that stays open leaves of a file in one of the directories of
the package that a rule picked. -/
theorem holdsBytes_package_iff (made : ofRecipe recipe buildDir shared policy = .ok packager)
    (free : world.tree.LinkFree) (some_text : packageDir.text ≠ "")
    (standing : (world.tree.cleared l).Opens packageDir l) (member : rule ∈ packager.rules)
    (picked : rule.Picks world.tree (some l) top way (.file content executable))
    (inside : ¬Outside l (top ++ way)) :
    ((packager.package packageDir).outcome world).2.tree.HoldsBytes (top ++ way) content ↔
      ¬packager.Clears world.tree l (top ++ way) ∨
        packager.PutsBack world.tree l (top ++ way) content := by
  by_cases proceeds : Proceeds packager.policy packager.rules world.tree
  · by_cases include_file : world.tree.HoldsFile (l ++ [includeName])
    · rw [tree_package_of_file made proceeds free standing (Or.inl include_file),
        if_pos include_file]
      exact iff_of_true ⟨executable, picked.found⟩ (Or.inl fun clears => clears.2.1 include_file)
    · by_cases lib_file : world.tree.HoldsFile (l ++ [libName])
      · have left := tree_package_of_file made proceeds free standing (Or.inr lib_file)
        rw [if_neg include_file] at left
        have not_back : ¬packager.PutsBack world.tree l (top ++ way) content :=
          fun back => back.1 lib_file
        rw [left, HoldsBytes, lookup?_removeAt (by simp)]
        by_cases in_include : l ++ [includeName] <+: top ++ way
        · rw [if_pos in_include]
          have clears : packager.Clears world.tree l (top ++ way) :=
            ⟨proceeds, include_file, Or.inl in_include⟩
          exact iff_of_false (by simp) (by simp [clears, not_back])
        · rw [if_neg in_include]
          refine iff_of_true ⟨executable, picked.found⟩ (Or.inl ?_)
          rintro ⟨-, -, below | ⟨-, no_lib_file⟩⟩
          · exact in_include below
          · exact no_lib_file lib_file
      · have clears : packager.Clears world.tree l (top ++ way) := by
          refine ⟨proceeds, include_file, ?_⟩
          by_contra neither
          rw [not_or] at neither
          exact inside ⟨neither.1, fun below => neither.2 ⟨below, lib_file⟩⟩
        obtain ⟨headers, libraries, -, -, rfl⟩ := ofRecipe_eq_ok made
        obtain ⟨ready, cleared, outcome⟩ := outcome_package_of_standing _ _ headers libraries policy
          free standing proceeds include_file lib_file
        have guarded : (world.tree.find packageDir).toOption.map (·.1) = some l := by
          rw [guard_of_opens free (opens_of_cleared standing), if_neg some_text]
        rw [outcome, guarded, outcome_bind_pure_world, or_iff_right (not_not.mpr clears)]
        exact holdsBytes_iff_putsBack free cleared standing rfl policy lib_file member picked inside
  · rw [tree_package_of_missing proceeds]
    exact iff_of_true ⟨executable, picked.found⟩ (Or.inl fun clears => proceeds clears.1)

/-- A picked file that is removed is lost when no source of headers is left. -/
theorem not_holdsBytes_package (world : World)
    (made : ofRecipe recipe buildDir shared policy = .ok packager)
    (free : world.tree.LinkFree) (some_text : packageDir.text ≠ "")
    (standing : (world.tree.cleared l).Opens packageDir l) (member : rule ∈ packager.rules)
    (picked : rule.Picks world.tree (some l) top way (.file content executable))
    (clears : packager.Clears world.tree l (top ++ way))
    (gone : ∀ rule ∈ packager.rules, rule.keepPath = true →
      (world.tree.cleared l).isDir rule.src = false) :
    ¬((packager.package packageDir).outcome world).2.tree.HoldsBytes (top ++ way) content := by
  rw [holdsBytes_package_iff made free some_text standing member picked clears.not_outside]
  rintro (not_cleared | ⟨-, header, header_member, keeps, _, _, _, -, back⟩)
  · exact not_cleared clears
  · have present := isDir_iff.mpr ⟨_, back.source⟩
    rw [gone header header_member keeps] at present
    exact absurd present (by simp)

end Survival

end Packager

namespace PreparedBuild

open Packager

variable {recipe : Recipe} {prepared : PreparedBuild} {policy : CopyPolicy} {packager : Packager}

theorem tree_packageOutputs (world : World)
    (made : prepared.packager recipe policy = .ok packager) :
    ((prepared.packageOutputs recipe policy).outcome world).2.tree =
      ((packager.package prepared.packageDir).outcome world).2.tree := by
  rw [packageOutputs, made, Action.outcome_bind_ok (Action.outcome_ofExcept _),
    Action.outcome_within]

/-- A file that a rule of the packager picks before packaging survives it, whatever it returns, when
it lies outside of the two directories of the package. A file in there survives exactly if
packaging is refused before it is removed, or a header with its bytes is put in its place. -/
theorem survives_packageOutputs (world : World)
    (made : prepared.packager recipe policy = .ok packager) (free : world.tree.LinkFree)
    {rule : CopyRule} (member : rule ∈ packager.rules)
    {top way : Location} {content : ByteArray} {executable : Bool}
    (picked : rule.Picks world.tree ((world.tree.find prepared.packageDir).toOption.map (·.1))
      top way (.file content executable)) :
    (Outside (prepared.packageDir.land world.tree.here) (top ++ way) →
      ((prepared.packageOutputs recipe policy).outcome world).2.tree.lookup? (top ++ way) =
        some (.file content executable)) ∧
    (Settled world.tree prepared.packageDir →
      (((prepared.packageOutputs recipe policy).outcome world).2.tree.HoldsBytes (top ++ way)
          content ↔
        ¬packager.Clears world.tree (prepared.packageDir.land world.tree.here) (top ++ way) ∨
          packager.PutsBack world.tree (prepared.packageDir.land world.tree.here) (top ++ way)
            content)) := by
  have outside_kept (outside : Outside (prepared.packageDir.land world.tree.here) (top ++ way)) :
      ((prepared.packageOutputs recipe policy).outcome world).2.tree.lookup? (top ++ way) =
        some (.file content executable) := by
    rw [tree_packageOutputs _ made]
    exact (keeps_package made prepared.packageDir (fun _ => id) world free rfl).kept _ _ outside
      picked.found
  refine ⟨outside_kept, fun settled => ?_⟩
  by_cases outside : Outside (prepared.packageDir.land world.tree.here) (top ++ way)
  · exact iff_of_true ⟨executable, outside_kept outside⟩
      (Or.inl fun clears => clears.not_outside outside)
  · have standing := settled.opens free (directory_of_not_outside outside picked.found)
    rw [guard_of_opens free (opens_of_cleared standing), if_neg settled.1] at picked
    rw [tree_packageOutputs _ made]
    exact holdsBytes_package_iff made free settled.1 standing member picked outside

/-- Whether some rule finds its source in the headers of the small project and selects the header
there, on a walk that stays out of a directory. -/
def SeesHeader (packager : Packager) (guard : Option Location) : Prop :=
  (∃ rule ∈ packager.rules,
    (smallProject.find rule.src).toOption = some (smallPlace ++ [includeName], .directory) ∧
      rule.selects smallHeader.text = true) ∧
    reaches (smallPlace ++ [includeName]) guard (smallPlace ++ [includeName] ++ [smallHeader]) =
      true

instance (packager : Packager) (guard : Option Location) : Decidable (SeesHeader packager guard) :=
  inferInstanceAs (Decidable (_ ∧ _))

theorem SeesHeader.exists_picks {guard : Option Location} (sees : SeesHeader packager guard) :
    ∃ rule ∈ packager.rules, rule.Picks smallProject guard (smallPlace ++ [includeName])
      [smallHeader] (.file "new".toUTF8 false) := by
  obtain ⟨⟨rule, member, source, selected⟩, reached⟩ := sees
  refine ⟨rule, member, ?_, by decide +kernel, rfl, ⟨[], smallHeader, rfl, selected⟩, reached⟩
  cases found : smallProject.find rule.src with
  | error fault => simp [found, Except.toOption] at source
  | ok place => simpa [found, Except.toOption] using source

/-- The header of the small project survives packaging into the usual directory. -/
theorem small_header_survives :
    ∃ recipe prepared,
      Recipe.FromSmall "" recipe ∧
      recipe.prepare Recipe.plainOptions {} {} = .ok prepared ∧
      ((prepared.packageOutputs recipe .lenient).outcome
          { tree := smallProject }).2.tree.lookup? (smallPlace ++ [includeName] ++ [smallHeader]) =
        some (.file "new".toUTF8 false) ∧
      ((prepared.packageOutputs recipe .lenient).outcome
          { tree := smallProject }).2.tree.HoldsBytes (smallPlace ++ [includeName] ++ [smallHeader])
        "new".toUTF8 := by
  obtain ⟨recipe, prepared, read, ready, fit⟩ := Recipe.exists_of_prepareSmall? ""
    Recipe.plainOptions (fun recipe prepared =>
      match prepared.packager recipe .lenient with
      | .error _ => false
      | .ok packager =>
        let l := prepared.packageDir.land smallProject.here
        decide (SeesHeader packager ((smallProject.find prepared.packageDir).toOption.map (·.1)) ∧
          Outside l (smallPlace ++ [includeName] ++ [smallHeader]) ∧
          prepared.packageDir.text ≠ "" ∧ prepared.packageDir.Straight)) (by decide +kernel)
  cases made : prepared.packager recipe .lenient with
  | error failure => simp [made] at fit
  | ok packager =>
      simp only [made, decide_eq_true_eq] at fit
      obtain ⟨sees, outside, some_text, straight⟩ := fit
      obtain ⟨rule, member, picked⟩ := sees.exists_picks
      have survives := survives_packageOutputs { tree := smallProject } made smallProject_linkFree
        member picked
      refine ⟨recipe, prepared, read, ready, survives.1 outside, ?_⟩
      exact (survives.2 ⟨some_text, Or.inl straight⟩).mpr
        (Or.inl fun clears => clears.not_outside outside)

/-- The header of the small project is lost when the project is its own package directory. -/
theorem small_header_lost :
    ∃ recipe prepared packager rule,
      Recipe.FromSmall "" recipe ∧
      recipe.prepare { Recipe.plainOptions with packageDir := some ⟨"."⟩ } {} {} = .ok prepared ∧
      prepared.packager recipe .lenient = .ok packager ∧ rule ∈ packager.rules ∧
      rule.Picks smallProject ((smallProject.find prepared.packageDir).toOption.map (·.1))
        (smallPlace ++ [includeName]) [smallHeader] (.file "new".toUTF8 false) ∧
      ¬((prepared.packageOutputs recipe .lenient).outcome
          { tree := smallProject }).2.tree.HoldsBytes (smallPlace ++ [includeName] ++ [smallHeader])
        "new".toUTF8 := by
  obtain ⟨recipe, prepared, read, ready, fit⟩ := Recipe.exists_of_prepareSmall? ""
    { Recipe.plainOptions with packageDir := some ⟨"."⟩ } (fun recipe prepared =>
      match prepared.packager recipe .lenient with
      | .error _ => false
      | .ok packager =>
        let l := prepared.packageDir.land smallProject.here
        decide (SeesHeader packager ((smallProject.find prepared.packageDir).toOption.map (·.1)) ∧
          l = smallPlace ∧ prepared.packageDir.text ≠ "" ∧ prepared.packageDir.Straight ∧
          packager.policy = .lenient ∧ ∀ rule ∈ packager.rules, rule.keepPath = true →
            (smallProject.cleared smallPlace).isDir rule.src = false)) (by decide +kernel)
  cases made : prepared.packager recipe .lenient with
  | error failure => simp [made] at fit
  | ok packager =>
      simp only [made, decide_eq_true_eq] at fit
      obtain ⟨sees, place, some_text, straight, lenient, gone⟩ := fit
      obtain ⟨rule, member, picked⟩ := sees.exists_picks
      refine ⟨recipe, prepared, packager, rule, read, ready, made, member, picked, ?_⟩
      have directory : smallProject.lookup? (prepared.packageDir.land smallProject.here) =
          some .directory := by
        rw [place]
        decide +kernel
      have standing := cleared_opens_of_straight straight directory
      have guarded := guard_of_opens smallProject_linkFree (opens_of_cleared standing)
      rw [if_neg some_text, place] at guarded
      rw [place] at standing
      rw [guarded] at picked
      have clears : packager.Clears smallProject smallPlace
          (smallPlace ++ [includeName] ++ [smallHeader]) :=
        ⟨Or.inl lenient, by decide +kernel, Or.inl (List.prefix_append _ _)⟩
      rw [tree_packageOutputs _ made]
      exact not_holdsBytes_package { tree := smallProject } made smallProject_linkFree some_text
        standing member picked clears gone

end PreparedBuild
end PackageBuild
