import PackageBuild.Proofs.Packager.Deposits
import PackageBuild.Proofs.Packager.Determinacy
import PackageBuild.Proofs.Path.Joining
/-!
# Libraries with the same name

Libraries are put side by side, so that of several with the same name only one can stay. A walk goes
through them in increasing order of their paths, every copy replaces the one before and says so, and
so the library with the greatest path is the one in the package.
-/

namespace PackageBuild

open FileTree

/-- Whether a notice tells that a file in a package is replaced at a path. -/
def Notice.replacesAt (dst : Path) : Notice → Bool
  | .warning (.overwrites _ _ replaced) => replaced.same dst
  | _ => false

theorem Path.same_congr {p r : Path} (equal : p.same r = true) (q : Path) :
    p.same q = r.same q := by
  rw [Path.same, beq_iff_eq] at equal
  rw [Path.same, Path.same, equal]

namespace CopyRule

/-- Whether a rule puts a file met on a walk at a path in the package. -/
def putsAt (rule : CopyRule) (q : Path) (found : Found) : Bool := (rule.target found).same q

end CopyRule

namespace Packager

open PackageBuild.Action

/-- The warnings that files copied to the same path give one after the other: each but the first
replaces the one before. -/
def replacements (dst : Path) (files : List Path) : List Notice :=
  (files.zip files.tail).map fun (earlier, later) => .warning (.overwrites later earlier dst)

theorem zip_tail_concat {α : Type} (items : List α) (a : α) :
    (items ++ [a]).zip (items ++ [a]).tail =
      items.zip items.tail ++ (items.getLast?.map fun last => (last, a)).toList := by
  induction items with
  | nil => rfl
  | cons first items induction =>
      cases items with
      | nil => rfl
      | cons second items => simpa using induction

theorem replacements_concat (dst : Path) (files : List Path) (p : Path) :
    replacements dst (files ++ [p]) = replacements dst files ++
      (files.getLast?.map fun earlier => Notice.warning (.overwrites p earlier dst)).toList := by
  rw [replacements, zip_tail_concat, List.map_append, ← replacements]
  cases files.getLast? <;> rfl

theorem find?_noteCopy (dst src q : Path) (copies : Copies) :
    ((noteCopy dst src copies).find? (·.1.same q)).map (·.2) =
      if dst.same q = true then some src else (copies.find? (·.1.same q)).map (·.2) := by
  induction copies with
  | nil => by_cases here : dst.same q = true <;> simp [noteCopy, here]
  | cons entry copies induction =>
      rw [noteCopy]
      split
      · rename_i same
        have alike : entry.1.same q = dst.same q := Path.same_congr same q
        by_cases here : dst.same q = true <;> simp [alike, here]
      · rename_i other
        by_cases there : entry.1.same q = true
        · have elsewhere : ¬dst.same q = true := by
            intro here
            rw [Path.same, beq_iff_eq] at there here
            exact other (by rw [Path.same, beq_iff_eq, there, here])
          simp [there, elsewhere]
        · simpa [there] using induction

/-! ## What is told on the way -/

variable {rule : CopyRule} {packageDir q : Path} {before world world' : World} {dir : Name}

/-- What copying files one after the other has noted and told about one path in the package. -/
structure Tracked (rule : CopyRule) (q : Path) (before : World) (met : List Found)
    (copies : Copies) (world : World) : Prop where
  /-- The latest source for the path is noted. -/
  noted : (copies.find? (·.1.same q)).map (·.2) =
    ((met.filter (rule.putsAt q)).map (·.path)).getLast?
  /-- Every file replaces the one that was copied there before. -/
  told : world.notices.filter (Notice.replacesAt q) = before.notices.filter (Notice.replacesAt q) ++
    replacements q ((met.filter (rule.putsAt q)).map (·.path))

theorem tracked_copyOne {met : List Found} {found : Found} {copies copies' : Copies}
    (plain : rule.putsAt q found = true → rule.target found = q)
    (tracked : Tracked rule q before met copies world)
    (copied : (copyOne rule packageDir copies found).outcome world = (.ok copies', world')) :
    Tracked rule q before (met ++ [found]) copies' world' := by
  obtain ⟨rfl, told, -, notices, first⟩ := copyOne_eq_ok copied
  obtain ⟨-, -, -, silent⟩ := copyFile_eq_ok first
  by_cases here : rule.putsAt q found = true
  · have kept : (met ++ [found]).filter (rule.putsAt q) =
        met.filter (rule.putsAt q) ++ [found] := by
      rw [List.filter_append, List.filter_cons_of_pos here, List.filter_nil]
    have same : q.same q = true := by rw [Path.same, beq_self_eq_true]
    constructor
    · rw [find?_noteCopy, plain here, if_pos same, kept, List.map_append, List.map_singleton,
        List.getLast?_concat]
    · rw [silent, notices, plain here, List.filter_append, tracked.told, kept, List.map_append,
        List.map_singleton, replacements_concat, List.append_assoc, ← tracked.noted]
      congr 2
      cases copies.find? (·.1.same q) with
      | none => rfl
      | some entry => simp [Notice.replacesAt, same]
  · have elsewhere : ¬(rule.target found).same q = true := here
    have kept : (met ++ [found]).filter (rule.putsAt q) = met.filter (rule.putsAt q) := by
      rw [List.filter_append, List.filter_cons_of_neg here, List.filter_nil, List.append_nil]
    constructor
    · rw [find?_noteCopy, if_neg elsewhere, kept, tracked.noted]
    · rw [silent, notices, List.filter_append, tracked.told, kept, List.append_right_eq_self]
      cases copies.find? (·.1.same (rule.target found)) with
      | none => rfl
      | some entry => simp [Notice.replacesAt, elsewhere]

theorem tracked_foldlM {met : List Found} {copies : Copies}
    (plain : ∀ found ∈ met, rule.putsAt q found = true → rule.target found = q)
    (copied : (met.foldlM (copyOne rule packageDir) []).outcome world = (.ok copies, world')) :
    Tracked rule q world met copies world' := by
  induction met using List.reverseRecOn generalizing copies world' with
  | nil =>
      rw [List.foldlM_nil, outcome_pure, Prod.mk.injEq, Except.ok.injEq] at copied
      obtain ⟨rfl, rfl⟩ := copied
      exact ⟨rfl, by simp [replacements]⟩
  | append_singleton met found induction =>
      obtain ⟨noted, middle, earlier, last⟩ := outcome_foldlM_concat_eq_ok_iff.mp copied
      have tracked := induction (fun found member => plain found (by simp [member])) earlier
      exact tracked_copyOne (plain found (by simp)) tracked last

/-! ## What stays in the end -/

variable {l top : Location} {guard : Option Location} {t : FileTree}

/-- What copying files one after the other has left of a tree: everything outside of the directory
of the rule, and at one path in there the file that was copied last. -/
structure Layered (rule : CopyRule) (top l : Location) (dir : Name) (names : Location)
    (t : FileTree) (met : List Found) (t' : FileTree) : Prop where
  /-- Everything outside is spared. -/
  spares : Spares (fun k => ¬l ++ [dir] <+: k) t t'
  /-- The source directory is still found. -/
  opens : t'.Opens rule.src top
  /-- The last file is there. -/
  last : ∀ found ∈ (met.filter (rule.putsAt ((⟨""⟩ : Path).descend (dir :: names)))).getLast?,
    t'.lookup? (l ++ dir :: names) = some found.entry

theorem putsAt_iff_of_picks (fills : rule.Fills dir) {names way : Location} {e : Entry}
    (picked : rule.Picks t guard top way e) :
    rule.putsAt ((⟨""⟩ : Path).descend (dir :: names)) ⟨rule.src.descend way, way, e⟩ = true ↔
      rule.goal way = names := by
  rw [CopyRule.putsAt, CopyRule.target_of_picks fills picked]
  constructor
  · intro same
    exact (List.cons.inj (Path.eq_of_same_descend_empty same)).2
  · rintro rfl
    rw [Path.same, beq_self_eq_true]

theorem layered_copyOne (fills : rule.Fills dir) (free : t.LinkFree)
    (apart : ∀ way, ¬packageDir.land t.here ++ [dir] <+: top ++ way) {names way : Location}
    {e : Entry} (picked : rule.Picks t guard top way e) {met : List Found}
    {copies copies' : Copies}
    (layered : Layered rule top (packageDir.land t.here) dir names t met world.tree)
    (copied : (copyOne rule packageDir copies ⟨rule.src.descend way, way, e⟩).outcome world =
      (.ok copies', world')) :
    Layered rule top (packageDir.land t.here) dir names t
      (met ++ [⟨rule.src.descend way, way, e⟩]) world'.tree := by
  obtain ⟨-, told, same, -, first⟩ := copyOne_eq_ok copied
  rw [CopyRule.target_of_picks fills picked,
    Path.join_descend_empty packageDir (List.cons_ne_nil _ _)] at first
  rw [← same] at layered
  have free' := layered.spares.free free
  obtain ⟨front, name, way_eq, -⟩ := picked.selected
  have found : told.tree.find (rule.src.descend way) = .ok (top ++ way, e) :=
    find_descend free' layered.opens (by simp [way_eq])
      (layered.spares.kept _ _ (apart way) picked.found)
  have goal : (packageDir.descend (dir :: rule.goal way)).land told.tree.here =
      packageDir.land t.here ++ dir :: rule.goal way := by
    rw [Path.land_descend, layered.spares.here]
  have elsewhere :
      top ++ way ≠ (packageDir.descend (dir :: rule.goal way)).land told.tree.here := by
    rw [goal]
    intro inside
    exact apart way ⟨rule.goal way, by rw [inside, List.append_assoc]; rfl⟩
  have written := lookup?_of_copyFile free' found elsewhere first
  have kept := spares_of_copyFile free' first
  rw [goal] at kept
  refine ⟨layered.spares.trans (kept.weaken ?_),
    (deposits_of_copyFile free' first).2.opens layered.opens, fun found member => ?_⟩
  · rintro k outside rfl
    exact outside ⟨rule.goal way, by simp⟩
  · rw [List.filter_append] at member
    by_cases here : rule.goal way = names
    · rw [List.filter_cons_of_pos ((putsAt_iff_of_picks fills picked).mpr here), List.filter_nil,
        List.getLast?_concat] at member
      obtain rfl := Option.some.inj member
      rw [← here, ← goal, written]
    · rw [List.filter_cons_of_neg (here ∘ (putsAt_iff_of_picks fills picked).mp), List.filter_nil,
        List.append_nil] at member
      refine kept.kept _ _ ?_ (layered.last found member)
      intro inside
      exact here (List.cons.inj (List.append_cancel_left inside)).2.symm

theorem layered_foldlM (fills : rule.Fills dir) (free : world.tree.LinkFree)
    (opens : world.tree.Opens rule.src top)
    (apart : ∀ way, ¬packageDir.land world.tree.here ++ [dir] <+: top ++ way) (names : Location)
    {met : List Found} (picked : ∀ found ∈ met, ∃ way e,
      found = ⟨rule.src.descend way, way, e⟩ ∧ rule.Picks world.tree guard top way e)
    {copies : Copies}
    (copied : (met.foldlM (copyOne rule packageDir) []).outcome world = (.ok copies, world')) :
    Layered rule top (packageDir.land world.tree.here) dir names world.tree met world'.tree := by
  induction met using List.reverseRecOn generalizing copies world' with
  | nil =>
      rw [List.foldlM_nil, outcome_pure, Prod.mk.injEq, Except.ok.injEq] at copied
      obtain ⟨-, rfl⟩ := copied
      exact ⟨.refl _, opens, by simp⟩
  | append_singleton met found induction =>
      obtain ⟨noted, middle, earlier, last⟩ := outcome_foldlM_concat_eq_ok_iff.mp copied
      have layered := induction (fun found member => picked found (by simp [member])) earlier
      obtain ⟨way, e, rfl, picks⟩ := picked found (by simp)
      exact layered_copyOne fills free apart picks layered last

/-! ## Files with the same name -/

theorem source_of_copyRule {paths : List Path} (spares : Spares (Outside l) t world.tree)
    (free : t.LinkFree) (outside : Outside l top) (source : t.find rule.src = .ok (top, .directory))
    (copied : (copyRule rule packageDir guard).outcome world = (.ok paths, world')) :
    world.tree.find rule.src = .ok (top, .directory) := by
  obtain ⟨⟨k, e⟩, -, -, found, -⟩ := copyRule_eq_ok copied
  have same : k = top := by
    rw [eq_land_of_find (spares.free free) found, spares.here, ← eq_land_of_find free source]
  have there := ((find_eq_ok_iff (spares.free free)).mp found).2.2
  have kept := spares.kept _ _ outside ((find_eq_ok_iff free).mp source).2.2
  rw [found, same, Option.some.inj (there.symm.trans (same ▸ kept))]

/-- There is a file at a path that goes down from a directory exactly if there is one below. -/
theorem isFile_descend_iff (free : t.LinkFree) {p : Path}
    (source : t.find p = .ok (top, .directory))
    {names : List Name} (some_name : names ≠ []) :
    t.isFile (p.descend names) = true ↔
      ∃ e, t.lookup? (top ++ names) = some e ∧ e.isFile = true := by
  have opens := (find_directory_iff_opens free ((find_eq_ok_iff free).mp source).1).mp source
  constructor
  · intro file
    cases found : t.find (p.descend names) with
    | error fault => simp [isFile, found, Except.toOption] at file
    | ok item =>
        obtain ⟨k, e⟩ := item
        have there := ((find_eq_ok_iff free).mp found).2.2
        rw [eq_land_of_find free found, Path.land_descend, ← opens.eq_land] at there
        exact ⟨e, there, by simpa [isFile, found, Except.toOption] using file⟩
  · rintro ⟨e, there, regular⟩
    simp [isFile, find_descend free opens some_name there, Except.toOption, regular]

/-- Of the files that a rule puts side by side, those with one name are put at the same path. -/
theorem mem_putsAt_iff (flat : rule.keepPath = false) (fills : rule.Fills dir)
    (source : t.find rule.src = .ok (top, .directory))
    (apart : ∀ k, guard = some k → ¬top <+: k) {files : List Found}
    (met : t.filesMet rule.src guard = .ok files) (name : Name) (found : Found) :
    found ∈ (files.filter rule.takes).filter (rule.putsAt ((⟨""⟩ : Path).descend [dir, name])) ↔
      rule.selects name.text = true ∧ ∃ front e,
        found = ⟨rule.src.descend (front ++ [name]), front ++ [name], e⟩ ∧
        t.lookup? (top ++ (front ++ [name])) = some e ∧ e.isFile = true := by
  obtain ⟨files', met', member_iff⟩ := CopyRule.mem_taken_iff guard source
  obtain rfl := Except.ok.inj (met'.symm.trans met)
  have goal_eq (front : Location) (last : Name) : rule.goal (front ++ [last]) = [last] := by
    rw [CopyRule.goal_concat, flat]
    rfl
  rw [List.mem_filter, member_iff]
  constructor
  · rintro ⟨⟨way, e, rfl, picked⟩, here⟩
    obtain ⟨front, last, rfl, selected⟩ := picked.selected
    rw [putsAt_iff_of_picks fills picked, goal_eq] at here
    obtain rfl := (List.cons.inj here).1
    exact ⟨selected, front, e, rfl, picked.found, picked.regular⟩
  · rintro ⟨selected, front, e, rfl, there, regular⟩
    have reached : reaches top guard (top ++ (front ++ [name])) = true := by
      cases guard with
      | none => rfl
      | some k => exact reaches_iff.mpr fun met => apart k rfl met.1
    have picked : rule.Picks t guard top (front ++ [name]) e :=
      ⟨source, there, regular, ⟨front, name, rfl, selected⟩, reached⟩
    exact ⟨⟨_, e, rfl, picked⟩, (putsAt_iff_of_picks fills picked).mpr (goal_eq front name)⟩

/-- A rule that puts files side by side leaves, of those with the same name, the last one it meets,
and tells how they replaced each other. -/
theorem exists_named_of_copyRule {paths : List Path} (flat : rule.keepPath = false)
    (fills : rule.Fills dir) (free : world.tree.LinkFree)
    (source : world.tree.find rule.src = .ok (top, .directory))
    (paved : ∀ k, packageDir.Passes world.tree.here k → world.tree.lookup? k = some .directory)
    (apart : ∀ way, ¬packageDir.land world.tree.here ++ [dir] <+: top ++ way)
    (unguarded : ∀ k, guard = some k → ¬top <+: k)
    (copied : (copyRule rule packageDir guard).outcome world = (.ok paths, world'))
    (name : Name) :
    ∃ named : List Found,
      named.Pairwise (fun found other => compare found.way other.way = .lt) ∧
      (∀ found, found ∈ named ↔ rule.selects name.text = true ∧ ∃ front e,
        found = ⟨rule.src.descend (front ++ [name]), front ++ [name], e⟩ ∧
        world.tree.lookup? (top ++ (front ++ [name])) = some e ∧ e.isFile = true) ∧
      (∀ found ∈ named.getLast?,
        world'.tree.lookup? (packageDir.land world.tree.here ++ [dir, name]) = some found.entry) ∧
      world'.notices.filter (Notice.replacesAt ((⟨""⟩ : Path).descend [dir, name])) =
        world.notices.filter (Notice.replacesAt ((⟨""⟩ : Path).descend [dir, name])) ++
          replacements ((⟨""⟩ : Path).descend [dir, name]) (named.map (·.path)) := by
  obtain ⟨files, met, member_iff⟩ := CopyRule.mem_taken_iff guard source
  rw [outcome_copyRule_eq_of_apart fills free source paved (fun way _ => apart way) met,
    outcome_bind_eq_ok_iff] at copied
  obtain ⟨copies, last, all, listed⟩ := copied
  obtain ⟨-, rfl⟩ := Prod.mk.inj listed
  have picked := fun found => (member_iff found).mp
  have opens := (find_directory_iff_opens free ((find_eq_ok_iff free).mp source).1).mp source
  have layered := layered_foldlM fills free opens apart [name] picked all
  have tracked := tracked_foldlM (q := (⟨""⟩ : Path).descend [dir, name]) (by
    intro found member here
    obtain ⟨way, e, rfl, picks⟩ := picked found member
    rw [CopyRule.target_of_picks fills picks, (putsAt_iff_of_picks fills picks).mp here]) all
  exact ⟨_, ((pairwise_filesMet source met).filter _).filter _,
    mem_putsAt_iff flat fills source unguarded met name, layered.last, tracked.told⟩

/-! ## The libraries of a package -/

theorem filter_missingNotices (rules : List CopyRule) (t : FileTree) (q : Path) :
    (missingNotices rules t).filter (Notice.replacesAt q) = [] := by
  rw [missingNotices, List.filter_eq_nil_iff]
  intro notice member
  obtain ⟨rule, -, rfl⟩ := List.mem_map.mp member
  simp [Notice.replacesAt]

theorem spares_of_clear (free : world.tree.LinkFree)
    (cleared : (clear packageDir).outcome world = (.ok (), world')) :
    Spares (Outside (packageDir.land world.tree.here)) world.tree world'.tree := by
  have removed (dir : Name) (apart : ∀ k, Outside (packageDir.land world.tree.here) k →
      ¬packageDir.land world.tree.here ++ [dir] <+: k) :
      Keeps (Protects world.tree.here (Outside (packageDir.land world.tree.here)))
        (removeDirectory (packageDir.descend [dir])) := by
    apply keeps_removeDirectory
    · rw [Path.land_descend]
      simp
    · rwa [Path.land_descend]
  have keeps : Keeps (Protects world.tree.here (Outside (packageDir.land world.tree.here)))
      (clear packageDir) := by
    rw [clear]
    exact closed_protects.of_bind (removed includeName fun _ => And.left)
      fun _ _ => removed libName fun _ => And.right
  have spares := keeps world free rfl
  rwa [cleared] at spares

theorem notices_of_clear (cleared : (clear packageDir).outcome world = (.ok (), world')) :
    world'.notices = world.notices := by
  rw [clear] at cleared
  obtain ⟨⟨⟩, middle, first, second⟩ := outcome_bind_eq_ok_iff.mp cleared
  exact (notices_of_change second).trans (notices_of_change first)

theorem directory_of_makeDirectories (free : world.tree.LinkFree)
    (made : (makeDirectories packageDir).outcome world = (.ok (), world')) {k : Location}
    (passes : packageDir.Passes world.tree.here k) :
    world'.tree.lookup? k = some .directory := by
  have paved := makeDirectories_made free packageDir
  rw [outcome_change_eq_ok made] at paved
  have some_component : packageDir.components ≠ [] := by
    obtain ⟨front, some_component, above, -⟩ := passes
    intro none_stands
    rw [none_stands] at above
    exact some_component (List.prefix_nil.mp above)
  have found := paved.found rfl some_component
  have free' := paved.grows.linkFree free
  have opens := (find_directory_iff_opens free' ((find_eq_ok_iff free').mp found).1).mp found
  rw [← paved.grows.here] at passes
  exact opens.directory_of_passes passes

/-- Copying for a rule tells nothing about paths in the other directory. -/
theorem filter_notices_of_copyRule {paths : List Path} {other name : Name} (fills : rule.Fills dir)
    (different : dir ≠ other)
    (copied : (copyRule rule packageDir guard).outcome world = (.ok paths, world')) :
    world'.notices.filter (Notice.replacesAt ((⟨""⟩ : Path).descend [other, name])) =
      world.notices.filter (Notice.replacesAt ((⟨""⟩ : Path).descend [other, name])) := by
  obtain ⟨-, met, copies, -, each, all, -⟩ := copyRule_eq_ok copied
  have elsewhere : ∀ found ∈ met,
      ¬rule.putsAt ((⟨""⟩ : Path).descend [other, name]) found = true := by
    intro found member same
    obtain ⟨path, taken⟩ := each found member
    obtain ⟨names, -, components⟩ := CopyRule.exists_components_target fills path taken ⟨""⟩
    rw [Path.join_empty] at components
    rw [CopyRule.putsAt, Path.same, components, ← Path.same] at same
    exact different (List.cons.inj (Path.eq_of_same_descend_empty same)).1
  have tracked := tracked_foldlM (fun found member here => absurd here (elsewhere found member)) all
  rw [tracked.told, List.filter_eq_nil_iff.mpr elsewhere]
  simp [replacements]

theorem filter_notices_of_copyRules {rules : List CopyRule} {lists : List Path × List Path}
    {other name : Name} (fills : ∀ rule ∈ rules, ∃ dir, rule.Fills dir ∧ dir ≠ other)
    (copied : (copyRules packageDir guard rules).outcome world = (.ok lists, world')) :
    world'.notices.filter (Notice.replacesAt ((⟨""⟩ : Path).descend [other, name])) =
      world.notices.filter (Notice.replacesAt ((⟨""⟩ : Path).descend [other, name])) := by
  induction rules generalizing world lists with
  | nil =>
      rw [copyRules, outcome_pure, Prod.mk.injEq] at copied
      rw [← copied.2]
  | cons rule rules induction =>
      obtain ⟨paths, rest, middle, first, second, -⟩ := copyRules_cons_eq_ok copied
      obtain ⟨dir, fills_dir, different⟩ := fills rule List.mem_cons_self
      rw [induction (fun rule member => fills rule (List.mem_cons_of_mem _ member)) second,
        filter_notices_of_copyRule fills_dir different first]

theorem copyRules_concat_eq_ok {rules : List CopyRule} {lists : List Path × List Path}
    (copied : (copyRules packageDir guard (rules ++ [rule])).outcome world = (.ok lists, world')) :
    ∃ lists' paths middle, (copyRules packageDir guard rules).outcome world = (.ok lists', middle) ∧
      (copyRule rule packageDir guard).outcome middle = (.ok paths, world') := by
  induction rules generalizing world lists with
  | nil =>
      obtain ⟨paths, rest, middle, first, done, -⟩ := copyRules_cons_eq_ok copied
      rw [copyRules, outcome_pure, Prod.mk.injEq] at done
      exact ⟨_, paths, world, rfl, done.2 ▸ first⟩
  | cons first rules induction =>
      obtain ⟨paths, rest, middle, head, tail, -⟩ := copyRules_cons_eq_ok copied
      obtain ⟨lists', paths', before, earlier, ends⟩ := induction tail
      refine ⟨if first.keepPath then (paths ++ lists'.1, lists'.2)
        else (lists'.1, paths ++ lists'.2), paths', before, ?_, ends⟩
      rw [copyRules, outcome_bind_ok head, outcome_bind_ok earlier, outcome_pure]

/-- Packaging that succeeds copies the libraries last. Until then nothing outside of the package has
changed, nothing about a library was told, and the path of the package passes directories only. -/
theorem exists_library_run {headerSource librarySource : Path} {headers libraries : List Glob}
    {policy : CopyPolicy} {layout : ArtifactLayout} (free : world.tree.LinkFree)
    (there : world.tree.isDir librarySource = true)
    (packaged : (Packager.package ⟨[.headers headerSource headers,
      .libraries librarySource libraries], policy⟩ packageDir).outcome world =
        (.ok layout, world')) (name : Name) :
    ∃ middle guard paths,
      Spares (Outside (packageDir.land world.tree.here)) world.tree middle.tree ∧
      middle.notices.filter (Notice.replacesAt ((⟨""⟩ : Path).descend [libName, name])) =
        world.notices.filter (Notice.replacesAt ((⟨""⟩ : Path).descend [libName, name])) ∧
      (∀ k, guard = some k → k = packageDir.land world.tree.here) ∧
      (∀ k, packageDir.Passes world.tree.here k → middle.tree.lookup? k = some .directory) ∧
      (copyRule (.libraries librarySource libraries) packageDir guard).outcome middle =
        (.ok paths, world') := by
  obtain ⟨decided, gone, ready, lists, same, told, removed, directory_made, copied, -⟩ :=
    package_eq_ok packaged
  rw [forM_destinations] at removed
  rw [← same] at free ⊢
  have spares := (spares_of_clear free removed).trans
    (grows_of_makeDirectories directory_made).spares
  have rules_eq : [CopyRule.headers headerSource headers,
      CopyRule.libraries librarySource libraries].filter (fun rule => world.tree.isDir rule.src) =
        [CopyRule.headers headerSource headers].filter (fun rule => world.tree.isDir rule.src) ++
          [CopyRule.libraries librarySource libraries] := by
    rw [List.filter_cons, List.filter_cons_of_pos (by exact there), List.filter_cons,
      List.filter_nil]
    split <;> rfl
  rw [rules_eq] at copied
  obtain ⟨lists', paths, middle, earlier, last⟩ := copyRules_concat_eq_ok copied
  have of_headers {rule : CopyRule} (member : rule ∈ [CopyRule.headers headerSource headers].filter
      fun rule => world.tree.isDir rule.src) : rule.Fills includeName := by
    rw [List.mem_singleton.mp (List.mem_filter.mp member).1]
    exact CopyRule.fills_headers _ _
  have spares' : Spares (Outside (packageDir.land ready.tree.here)) ready.tree middle.tree := by
    have keeps : Keeps (Protects ready.tree.here (Outside (packageDir.land ready.tree.here)))
        (copyRules packageDir ((ready.tree.find packageDir).toOption.map (·.1))
          ([CopyRule.headers headerSource headers].filter fun rule => world.tree.isDir rule.src)) :=
      keeps_copyRules _ fun rule member => ⟨_, of_headers member, fun _ => And.left⟩
    have kept := keeps ready (spares.free free) rfl
    rwa [earlier] at kept
  rw [spares.here] at spares'
  have delivered := delivered_copyRules (fun rule member => by
    rw [List.mem_singleton.mp (List.mem_filter.mp member).1]
    exact CopyRule.fills_headers _ _) (spares.free free) earlier
  refine ⟨middle, _, paths, spares.trans spares', ?_, fun k guard_eq => ?_, fun k passes => ?_,
    last⟩
  · rw [filter_notices_of_copyRules
        (fun rule member => ⟨_, of_headers member, includeName_ne_libName⟩) earlier,
      notices_of_change directory_made, notices_of_clear removed, told, List.filter_append,
      filter_missingNotices, List.append_nil]
  · cases found : ready.tree.find packageDir with
    | error fault => simp [found, Except.toOption] at guard_eq
    | ok item =>
        obtain ⟨place, e⟩ := item
        obtain rfl : place = k := by simpa [found, Except.toOption] using guard_eq
        rw [eq_land_of_find (spares.free free) found, spares.here]
  · have cleared := spares_of_clear free removed
    rw [← cleared.here] at passes
    exact delivered.deposits.directories k
      (directory_of_makeDirectories (cleared.free free) directory_made passes)

/-- Of the libraries with the same name, packaging leaves the one that is met last, and tells how
they replaced each other. -/
theorem exists_named_of_package {recipe : Recipe} {buildDir : Path} {shared : Bool}
    {policy : CopyPolicy} {packager : Packager}
    (made : ofRecipe recipe buildDir shared policy = .ok packager) (free : world.tree.LinkFree)
    (source : world.tree.find buildDir = .ok (top, .directory))
    (not_below : ¬packageDir.land world.tree.here <+: top)
    (not_above : ¬top <+: packageDir.land world.tree.here) {layout : ArtifactLayout}
    (packaged : (packager.package packageDir).outcome world = (.ok layout, world')) (name : Name) :
    ∃ named : List Found,
      named.Pairwise (fun found other => compare found.way other.way = .lt) ∧
      (∀ found, found ∈ named ↔
        Glob.Matches (libraryPatterns recipe.layout shared) name.text ∧ ∃ front e,
          found = ⟨buildDir.descend (front ++ [name]), front ++ [name], e⟩ ∧
          world.tree.lookup? (top ++ (front ++ [name])) = some e ∧ e.isFile = true) ∧
      (∀ found ∈ named.getLast?,
        world'.tree.lookup? (packageDir.land world.tree.here ++ [libName, name]) =
          some found.entry) ∧
      world'.notices.filter (Notice.replacesAt ((⟨""⟩ : Path).descend [libName, name])) =
        world.notices.filter (Notice.replacesAt ((⟨""⟩ : Path).descend [libName, name])) ++
          replacements ((⟨""⟩ : Path).descend [libName, name]) (named.map (·.path)) := by
  obtain ⟨headers, libraries, -, compiled, rfl⟩ := ofRecipe_eq_ok made
  obtain ⟨middle, guard, paths, spares, quiet, guard_eq, paved, copied⟩ :=
    exists_library_run free (isDir_iff.mpr ⟨top, source⟩) packaged name
  have apart (dir : Name) (way : Location) :
      ¬packageDir.land world.tree.here ++ [dir] <+: top ++ way := by
    intro below
    rcases List.prefix_or_prefix_of_prefix ((List.prefix_append _ [dir]).trans below)
      (List.prefix_append top way) with under | above
    · exact not_below under
    · exact not_above above
  have outside (way : Location) : Outside (packageDir.land world.tree.here) (top ++ way) :=
    ⟨apart includeName way, apart libName way⟩
  have source' := source_of_copyRule spares free (by simpa using outside []) source copied
  obtain ⟨named, increasing, member_iff, last, told⟩ :=
    exists_named_of_copyRule rfl (CopyRule.fills_libraries buildDir libraries) (spares.free free)
      source' (by rwa [spares.here]) (by rw [spares.here]; exact apart libName)
      (fun k same => by rwa [guard_eq k same]) copied name
  rw [spares.here] at last
  rw [quiet] at told
  refine ⟨named, increasing, fun found => ?_, last, told⟩
  rw [member_iff, CopyRule.selects_iff compiled]
  refine and_congr_right fun _ => exists_congr fun front => exists_congr fun e =>
    and_congr_right fun _ => and_congr_left fun regular => ⟨?_, ?_⟩
  · exact spares.files _ _ (outside _) regular
  · exact spares.kept _ _ (outside _)

/-- After a success the file in a package under the name of some libraries is the library with the
greatest path, as it was before. What is told about this place is that the libraries with the name
replace each other there, one after the other in increasing order of their paths. -/
theorem package_keeps_greatest {recipe : Recipe} {buildDir : Path} {shared : Bool}
    {policy : CopyPolicy} {packager : Packager}
    (made : ofRecipe recipe buildDir shared policy = .ok packager) (free : world.tree.LinkFree)
    (there : world.tree.isDir buildDir = true)
    (not_below : ¬packageDir.land world.tree.here <+: buildDir.land world.tree.here)
    (not_above : ¬buildDir.land world.tree.here <+: packageDir.land world.tree.here)
    {layout : ArtifactLayout}
    (packaged : (packager.package packageDir).outcome world = (.ok layout, world')) (name : Name) :
    ∃ files : List Path, files.Pairwise Path.Precedes ∧
      (∀ p, p ∈ files ↔ Glob.Matches (libraryPatterns recipe.layout shared) name.text ∧
        ∃ front, p = buildDir.descend (front ++ [name]) ∧ world.tree.isFile p = true) ∧
      (∀ greatest ∈ files.getLast?, ∃ k content executable,
        world.tree.find greatest = .ok (k, .file content executable) ∧
        world'.tree.lookup? (packageDir.land world.tree.here ++ [libName, name]) =
          some (.file content executable)) ∧
      ∃ told, world'.notices = world.notices ++ told ∧
        told.filter (Notice.replacesAt ((⟨""⟩ : Path).descend [libName, name])) =
          replacements ((⟨""⟩ : Path).descend [libName, name]) files := by
  obtain ⟨top, source⟩ := isDir_iff.mp there
  obtain rfl := eq_land_of_find free source
  obtain ⟨named, increasing, member_iff, last, told⟩ :=
    exists_named_of_package made free source not_below not_above packaged name
  refine ⟨named.map (·.path), ?_, fun p => ?_, fun greatest is_last => ?_, ?_⟩
  · rw [List.pairwise_map]
    refine increasing.imp_of_mem fun {found other} member member' earlier => ?_
    obtain ⟨-, front, e, rfl, -⟩ := (member_iff found).mp member
    obtain ⟨-, front', e', rfl, -⟩ := (member_iff other).mp member'
    exact (Path.precedes_descend_iff _ _ _).mpr earlier
  · rw [List.mem_map]
    constructor
    · rintro ⟨found, member, rfl⟩
      obtain ⟨selected, front, e, rfl, file⟩ := (member_iff found).mp member
      exact ⟨selected, front, rfl, (isFile_descend_iff free source (by simp)).mpr ⟨e, file⟩⟩
    · rintro ⟨selected, front, rfl, file⟩
      obtain ⟨e, file⟩ := (isFile_descend_iff free source (by simp)).mp file
      exact ⟨_, (member_iff _).mpr ⟨selected, front, e, rfl, file⟩, rfl⟩
  · rw [List.getLast?_map] at is_last
    obtain ⟨found, found_last, rfl⟩ := Option.map_eq_some_iff.mp is_last
    obtain ⟨-, front, e, rfl, there, regular⟩ :=
      (member_iff found).mp (List.mem_of_getLast? found_last)
    obtain ⟨content, executable, rfl⟩ := Entry.exists_eq_file regular
    have opens := (find_directory_iff_opens free ((find_eq_ok_iff free).mp source).1).mp source
    exact ⟨_, content, executable, find_descend free opens (by simp) there, last _ found_last⟩
  · obtain ⟨more, notices⟩ := (filesOnly_package packager packageDir).exists_told world
    rw [packaged] at notices
    refine ⟨more, notices, ?_⟩
    rw [notices, List.filter_append] at told
    exact List.append_cancel_left told

/-- Two ways to the library in the build directory of the small project. As a text the path of the
second one would come first. -/
def smallWay : Location := [⟨"core", by decide⟩, smallLibrary]

@[inherit_doc smallWay]
def smallOtherWay : Location := [⟨"core-extra", by decide⟩, smallLibrary]

/-- The small project after a build that makes the library in two directories, with an empty package
and no headers. -/
def smallTwins : FileTree :=
  .ofEntries [
    (smallPlace, .directory),
    (smallPlace ++ [includeName], .directory),
    (smallBuild, .directory),
    (smallRelease, .directory),
    (smallRelease ++ smallOtherWay.dropLast, .directory),
    (smallRelease ++ smallOtherWay, .file "second".toUTF8 false),
    (smallRelease ++ smallWay.dropLast, .directory),
    (smallRelease ++ smallWay, .file "first".toUTF8 false),
    (smallPackageDir, .directory)]

theorem smallTwins_linkFree : smallTwins.LinkFree := by decide +kernel

theorem smallTwins_files {k : Location} {e : Entry} (there : smallTwins.lookup? k = some e)
    (regular : e.isFile = true) :
    k = smallRelease ++ smallWay ∨ k = smallRelease ++ smallOtherWay := by
  have listed : ∀ item ∈ smallTwins.entries.toList, item.2.isFile = true →
      item.1 = smallRelease ++ smallWay ∨ item.1 = smallRelease ++ smallOtherWay := by
    decide +kernel
  by_cases root : k = []
  · rw [root, lookup?_nil] at there
    exact absurd regular (by simp [← Option.some.inj there, Entry.isFile])
  · rw [lookup?_of_ne_nil root, ← Std.ExtTreeMap.mem_toList_iff_getElem?_eq_some] at there
    exact listed _ there regular

/-- Of the two libraries of the small project the one in the directory with the longer name stays,
and it is told that it replaces the other. -/
theorem small_twins_collide :
    ∃ recipe prepared packager layout world',
      Recipe.FromSmall "" recipe ∧
      recipe.prepare Recipe.plainOptions {} {} = .ok prepared ∧
      prepared.packager recipe .strict = .ok packager ∧ smallTwins.LinkFree ∧
      (packager.package prepared.packageDir).outcome { tree := smallTwins } =
        (.ok layout, world') ∧
      world'.tree.lookup? (prepared.packageDir.land smallTwins.here ++ [libName, smallLibrary]) =
        some (.file "second".toUTF8 false) ∧
      world'.notices.filter (Notice.replacesAt ⟨"lib/libmini.a"⟩) =
        [.warning (.overwrites ⟨"/pkg/build/Release/core-extra/libmini.a"⟩
          ⟨"/pkg/build/Release/core/libmini.a"⟩ ⟨"lib/libmini.a"⟩)] := by
  obtain ⟨recipe, prepared, read, ready, fit⟩ := Recipe.exists_of_prepareSmall? ""
    Recipe.plainOptions (fun recipe prepared =>
      match prepared.packager recipe .strict with
      | .error _ => false
      | .ok packager => decide (prepared.packageDir = ⟨"/pkg/package"⟩ ∧
          prepared.invocation.dirs.buildDir = ⟨"/pkg/build/Release"⟩ ∧
          "*.a" ∈ recipe.layout.libraryPatterns ∧
          ∀ rule ∈ packager.rules, (rule.src.Straight ∧ Outside
            ((⟨"/pkg/package"⟩ : Path).land smallTwins.here) (rule.src.land smallTwins.here)) ∧
            smallTwins.isDir rule.src = true)) (by decide +kernel)
  cases made : prepared.packager recipe .strict with
  | error failure => simp [made] at fit
  | ok packager =>
      simp only [made, decide_eq_true_eq] at fit
      obtain ⟨package_eq, build_eq, pattern, sources⟩ := fit
      have made' :
          ofRecipe recipe ⟨"/pkg/build/Release"⟩ prepared.evaluation.values.shared .strict =
            .ok packager := build_eq ▸ made
      obtain ⟨layout, world', packaged⟩ : ∃ layout world',
          (packager.package ⟨"/pkg/package"⟩).outcome { tree := smallTwins } =
            (.ok layout, world') :=
        package_succeeds made' smallTwins_linkFree (by decide +kernel) (by decide +kernel)
          (by decide +kernel) (by decide +kernel) (by decide +kernel)
          (fun rule member => (sources rule member).1) fun rule member => (sources rule member).2
      obtain ⟨files, increasing, member_iff, last, told, notices, replaced⟩ :=
        package_keeps_greatest made' smallTwins_linkFree (by decide +kernel) (by decide +kernel)
          (by decide +kernel) packaged smallLibrary
      have files_eq : files = [(⟨"/pkg/build/Release"⟩ : Path).descend smallWay,
          (⟨"/pkg/build/Release"⟩ : Path).descend smallOtherWay] := by
        have sorted := List.pairwise_pair.mpr
          ((Path.precedes_descend_iff ⟨"/pkg/build/Release"⟩ smallWay smallOtherWay).mpr
            (by decide))
        refine Path.eq_of_pairwise_precedes increasing sorted fun p => ?_
        rw [member_iff, List.mem_pair]
        constructor
        · rintro ⟨-, front, rfl, file⟩
          have source :
              smallTwins.find ⟨"/pkg/build/Release"⟩ = .ok (smallRelease, .directory) := by
            decide +kernel
          obtain ⟨e, found, regular⟩ :=
            (isFile_descend_iff smallTwins_linkFree source (by simp)).mp file
          exact (smallTwins_files found regular).imp
            (fun same => by rw [List.append_cancel_left same])
            fun same => by rw [List.append_cancel_left same]
        · have selected : Glob.Matches
              (libraryPatterns recipe.layout prepared.evaluation.values.shared) smallLibrary.text :=
            ⟨"*.a", List.mem_append_left _ pattern, _, rfl, by decide⟩
          rintro (rfl | rfl)
          · exact ⟨selected, smallWay.dropLast, rfl, by decide +kernel⟩
          · exact ⟨selected, smallOtherWay.dropLast, rfl, by decide +kernel⟩
      rw [files_eq] at last replaced
      obtain ⟨k, content, executable, found, stays⟩ := last _ rfl
      have second : smallTwins.find ((⟨"/pkg/build/Release"⟩ : Path).descend smallOtherWay) =
          .ok (smallRelease ++ smallOtherWay, .file "second".toUTF8 false) := by
        decide +kernel
      obtain ⟨-, same⟩ := Prod.mk.inj (Except.ok.inj (found.symm.trans second))
      refine ⟨recipe, prepared, packager, layout, world', read, ready, made, smallTwins_linkFree,
        ?_, ?_, ?_⟩
      · rw [package_eq, packaged]
      · rw [package_eq, stays, same]
      · rw [notices]
        exact replaced

end Packager
end PackageBuild
