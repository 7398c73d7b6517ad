import PackageBuild.Proofs.Packager.Output
/-!
# What copying adds

Copying that succeeds adds regular files at the paths it lists, as seen from the package directory,
and nothing else but directories. This is so whatever the package holds and wherever the sources
lie, because every step only writes at the path that it notes.
-/

namespace PackageBuild

open FileTree

namespace FileTree

/-- Whether one tree is another with files added at some locations, in place of nothing or of other
files. -/
structure Deposits (goals : Location → Prop) (t t' : FileTree) : Prop where
  /-- Relative paths start where they did. -/
  here : t'.here = t.here
  /-- No links are made. -/
  free : t.LinkFree → t'.LinkFree
  /-- All directories stay. -/
  directories : ∀ k, t.lookup? k = some .directory → t'.lookup? k = some .directory
  /-- All files stay files, and more are at the locations. -/
  holdsFile_iff : ∀ k, t'.HoldsFile k ↔ t.HoldsFile k ∨ goals k

variable {t t' t'' : FileTree} {goals more : Location → Prop} {p src dst : Path} {l : Location}

theorem Deposits.trans (first : Deposits goals t t') (second : Deposits more t' t'') :
    Deposits (fun k => goals k ∨ more k) t t'' where
  here := second.here.trans first.here
  free free := second.free (first.free free)
  directories k there := second.directories k (first.directories k there)
  holdsFile_iff k := by rw [second.holdsFile_iff, first.holdsFile_iff, or_assoc]

theorem Deposits.congr (deposits : Deposits goals t t') (same : ∀ k, goals k ↔ more k) :
    Deposits more t t' where
  here := deposits.here
  free := deposits.free
  directories := deposits.directories
  holdsFile_iff k := by rw [deposits.holdsFile_iff, same]

theorem Deposits.opens (deposits : Deposits goals t t') (opens : t.Opens p l) : t'.Opens p l :=
  opens.mono deposits.here deposits.directories

/-- Directories are no files. -/
theorem Grows.holdsFile_iff (grows : Grows t t') (k : Location) :
    t'.HoldsFile k ↔ t.HoldsFile k := by
  constructor
  · rintro ⟨content, executable, found⟩
    rcases grows.added found with before | directory
    · exact ⟨content, executable, before⟩
    · exact absurd directory (by simp)
  · rintro ⟨content, executable, found⟩
    exact ⟨content, executable, grows.kept found⟩

theorem Grows.deposits (grows : Grows t t') : Deposits (fun _ => False) t t' where
  here := grows.here
  free := grows.linkFree
  directories _ := grows.kept
  holdsFile_iff k := by rw [grows.holdsFile_iff, or_false]

theorem deposits_place {e : Entry} (parent : t.lookup? l.dropLast = some .directory)
    (other : t.lookup? l ≠ some .directory) (file : e.isFile = true) :
    Deposits (· = l) t (t.place l e parent other) where
  here := rfl
  free free := (spares_place parent other file).free free
  directories k there := by
    rw [lookup?_place, if_neg, there]
    rintro rfl
    exact other there
  holdsFile_iff k := by
    by_cases same : k = l
    · have placed : (t.place l e parent other).lookup? k = some e := by
        rw [lookup?_place, if_pos same]
      exact iff_of_true (holdsFile_of_isFile placed file) (Or.inr same)
    · rw [or_iff_left same, HoldsFile, lookup?_place, if_neg same, HoldsFile]

theorem locateFile_eq_ok {k : Location} (located : t.locateFile p = .ok k) :
    p.endsInSlash = false := by
  rw [locateFile] at located
  split at located
  · split at located <;> exact absurd located (by simp)
  · rename_i no_slash
    exact eq_false_of_ne_true no_slash

/-- A copy that succeeds has put the file that is found at the source in place at the destination,
whose path ends in no slash; a file copied to itself is left empty. -/
theorem copyContent_eq_ok (free : t.LinkFree) (copied : t.copyContent src dst = (.ok (), t')) :
    ∃ origin content executable parent other,
      t.find src = .ok (origin, .file content executable) ∧ dst.endsInSlash = false ∧
      t' = t.place (dst.land t.here)
        (.file (if origin = dst.land t.here then .empty else content) executable) parent other := by
  rw [copyContent] at copied
  split at copied
  · exact absurd (Prod.mk.inj copied).1 (by simp)
  · rename_i origin content executable found
    split at copied
    · exact absurd (Prod.mk.inj copied).1 (by simp)
    · rename_i goal located
      obtain rfl := eq_land_of_locateFile free located
      dsimp only at copied
      split at copied
      · rename_i t'' placed
        obtain ⟨parent, other, rfl⟩ := put_eq_ok placed
        obtain ⟨-, rfl⟩ := Prod.mk.inj copied
        exact ⟨origin, content, executable, parent, other, found, locateFile_eq_ok located, rfl⟩
      · exact absurd (Prod.mk.inj copied).1 (by simp)
  · exact absurd (Prod.mk.inj copied).1 (by simp)

end FileTree

namespace Action

variable {world world' : World} {src dst : Path}

theorem grows_of_makeDirectories {p : Path}
    (made : (makeDirectories p).outcome world = (.ok (), world')) :
    Grows world.tree world'.tree := by
  have paved := makeDirectories_paved (t := world.tree) p
  rw [outcome_change_eq_ok made] at paved
  exact paved.grows

/-- Changes to the files are not told. -/
theorem notices_of_change {context : String} {f : FileTree → FileTree.Changed}
    (changed : (change context f).outcome world = (.ok (), world')) :
    world'.notices = world.notices := by
  rw [outcome_change] at changed
  obtain ⟨-, rfl⟩ := Prod.mk.inj changed
  rfl

theorem copyFile_eq_ok (copied : (copyFile src dst).outcome world = (.ok (), world')) :
    ∃ ready, Grows world.tree ready ∧ ready.copyContent src dst = (.ok (), world'.tree) ∧
      world'.notices = world.notices := by
  rw [copyFile] at copied
  split at copied
  · obtain ⟨⟨⟩, middle, made, written⟩ := outcome_bind_eq_ok_iff.mp copied
    exact ⟨middle.tree, grows_of_makeDirectories made, outcome_change_eq_ok written,
      (notices_of_change written).trans (notices_of_change made)⟩
  · exact ⟨world.tree, .refl _, outcome_change_eq_ok copied, notices_of_change copied⟩

theorem deposits_of_copyFile (free : world.tree.LinkFree)
    (copied : (copyFile src dst).outcome world = (.ok (), world')) :
    dst.endsInSlash = false ∧
      Deposits (· = dst.land world.tree.here) world.tree world'.tree := by
  obtain ⟨ready, grows, written, -⟩ := copyFile_eq_ok copied
  obtain ⟨origin, content, executable, parent, other, -, no_slash, placed⟩ :=
    copyContent_eq_ok (grows.linkFree free) written
  have deposits : Deposits (· = dst.land ready.here) ready world'.tree := by
    rw [placed]
    exact deposits_place parent other rfl
  rw [grows.here] at deposits
  exact ⟨no_slash, (grows.deposits.trans deposits).congr fun k => by simp⟩

theorem spares_of_copyFile (free : world.tree.LinkFree)
    (copied : (copyFile src dst).outcome world = (.ok (), world')) :
    Spares (fun k => k ≠ dst.land world.tree.here) world.tree world'.tree := by
  have spares : Spares (fun k => k ≠ dst.land world.tree.here) world.tree
      ((copyFile src dst).outcome world).2.tree := keeps_copyFile (fun _ => id) world free rfl
  rwa [copied] at spares

theorem lookup?_of_copyFile {origin : Location} {e : Entry} (free : world.tree.LinkFree)
    (found : world.tree.find src = .ok (origin, e)) (elsewhere : origin ≠ dst.land world.tree.here)
    (copied : (copyFile src dst).outcome world = (.ok (), world')) :
    world'.tree.lookup? (dst.land world.tree.here) = some e := by
  obtain ⟨ready, grows, written, -⟩ := copyFile_eq_ok copied
  obtain ⟨origin', content, executable, parent, other, found', -, placed⟩ :=
    copyContent_eq_ok (grows.linkFree free) written
  obtain ⟨rfl, rfl⟩ := Prod.mk.inj (Except.ok.inj ((grows.find found).symm.trans found'))
  rw [placed, lookup?_place, grows.here, if_pos rfl, if_neg elsewhere]

end Action

namespace CopyRule

/-- Whatever a rule takes on its walk goes below its directory, or has a path that ends in a slash,
which happens to a source that is a file itself. -/
theorem leadsInto_target_or {rule : CopyRule} {dir : Name} (fills : rule.Fills dir) {found : Found}
    (met : found.path = rule.src.descend found.way) (taken : rule.takes found = true) :
    (rule.target found).LeadsInto dir (!rule.keepPath) ∨
      ∀ packageDir : Path, (packageDir.join (rule.target found)).endsInSlash = true := by
  obtain ⟨path, way, e⟩ := found
  obtain rfl : path = rule.src.descend way := met
  rcases List.eq_nil_or_concat way with rfl | ⟨front, name, rfl⟩
  · rw [Path.descend_nil] at taken ⊢
    by_cases keeps : rule.keepPath = true
    · right
      intro packageDir
      have alone := Path.under_descend rule.src []
      rw [Path.descend_nil, Path.descend_nil] at alone
      rw [target, if_pos keeps, fills, alone, Path.endsInSlash_join_name_slash]
    · left
      cases last : rule.src.fileName? with
      | none => simp [takes, last] at taken
      | some text =>
          obtain ⟨name, rfl⟩ := Path.exists_name_of_fileName? last
          refine ⟨[name], List.cons_ne_nil name [], fun _ => rfl, ?_⟩
          rw [target, if_neg keeps, fills, last, Option.getD_some]
          rfl
  · left
    rw [List.concat_eq_append, target_descend fills, goal_concat]
    refine ⟨_, by simp, fun direct => ?_, rfl⟩
    rw [Bool.not_eq_true', ← Bool.not_eq_true] at direct
    rw [if_neg direct]
    rfl

end CopyRule

namespace Packager

open PackageBuild.Action

variable {rule : CopyRule} {dir : Name} {packageDir : Path} {world world' : World}
  {before : FileTree}

/-- A step that copies one file does so and notes it, after a warning if it replaces an earlier
copy. -/
theorem copyOne_eq_ok {copies copies' : Copies} {found : Found}
    (copied : (copyOne rule packageDir copies found).outcome world = (.ok copies', world')) :
    copies' = noteCopy (rule.target found) found.path copies ∧ ∃ told : World,
      told.tree = world.tree ∧
      told.notices = world.notices ++
        ((copies.find? (·.1.same (rule.target found))).map fun entry =>
          Notice.warning (.overwrites found.path entry.2 (rule.target found))).toList ∧
      (copyFile found.path (packageDir.join (rule.target found))).outcome told =
        (.ok (), world') := by
  have rest {told : World} (outcome : (do
        copyFile found.path (packageDir.join (rule.target found))
        return noteCopy (rule.target found) found.path copies : Action Copies).outcome told =
          (.ok copies', world')) :
      copies' = noteCopy (rule.target found) found.path copies ∧
        (copyFile found.path (packageDir.join (rule.target found))).outcome told =
          (.ok (), world') := by
    obtain ⟨⟨⟩, last, first, noted⟩ := outcome_bind_eq_ok_iff.mp outcome
    simp only [outcome_pure, Prod.mk.injEq, Except.ok.injEq] at noted
    obtain ⟨rfl, rfl⟩ := noted
    exact ⟨rfl, first⟩
  rw [copyOne] at copied
  dsimp only at copied
  split at copied
  · rename_i earlier replaced
    obtain ⟨⟨⟩, told, warned, outcome⟩ := outcome_bind_eq_ok_iff.mp copied
    rw [outcome_warn, Prod.mk.injEq] at warned
    obtain ⟨noted, first⟩ := rest outcome
    exact ⟨noted, told, by rw [← warned.2], by rw [← warned.2, replaced]; rfl, first⟩
  · rename_i nothing
    obtain ⟨noted, first⟩ := rest copied
    refine ⟨noted, world, rfl, ?_, first⟩
    cases replaced : copies.find? (·.1.same (rule.target found)) with
    | none => simp
    | some entry => exact absurd replaced (nothing entry.1 entry.2)

/-- What has become of a tree by copying files to some paths in a directory of the package. -/
structure Stocked (packageDir : Path) (dir : Name) (direct : Bool) (paths : List Path)
    (before after : FileTree) : Prop where
  /-- All paths lead into the directory. -/
  leads : ∀ p ∈ paths, p.LeadsInto dir direct
  /-- There are files at the paths. -/
  deposits : Deposits (fun k => ∃ p ∈ paths, k = (packageDir.join p).land before.here) before after

theorem stocked_copyOne {copies copies' : Copies} {found : Found} (fills : rule.Fills dir)
    (free : before.LinkFree) (met : found.path = rule.src.descend found.way)
    (taken : rule.takes found = true)
    (stocked : Stocked packageDir dir (!rule.keepPath) (copies.map (·.1)) before world.tree)
    (copied : (copyOne rule packageDir copies found).outcome world = (.ok copies', world')) :
    Stocked packageDir dir (!rule.keepPath) (copies'.map (·.1)) before world'.tree := by
  obtain ⟨rfl, told, same, -, first⟩ := copyOne_eq_ok copied
  have free' := stocked.deposits.free free
  rw [← same] at free'
  obtain ⟨no_slash, deposits⟩ := deposits_of_copyFile free' first
  have leads : (rule.target found).LeadsInto dir (!rule.keepPath) := by
    rcases CopyRule.leadsInto_target_or fills met taken with leads | slash
    · exact leads
    · exact absurd (no_slash.symm.trans (slash packageDir)) (by simp)
  have listed (p : Path) : p ∈ (noteCopy (rule.target found) found.path copies).map (·.1) ↔
      p ∈ copies.map (·.1) ∨ p = rule.target found := by
    exact CopyRule.mem_noteCopy_iff
      (fun p member equal => (stocked.leads p member).eq_of_same leads equal) p
  rw [same, stocked.deposits.here] at deposits
  refine ⟨fun p member => ?_, (stocked.deposits.trans deposits).congr fun k => ?_⟩
  · rcases (listed p).mp member with earlier | rfl
    · exact stocked.leads p earlier
    · exact leads
  · simp only [listed, or_and_right, exists_or, exists_eq_left]

/-- Copying file after file adds all that is noted at the end. -/
theorem stocked_foldlM {copies copies' : Copies} {met : List Found} (fills : rule.Fills dir)
    (free : before.LinkFree)
    (each : ∀ found ∈ met, found.path = rule.src.descend found.way ∧ rule.takes found = true)
    (stocked : Stocked packageDir dir (!rule.keepPath) (copies.map (·.1)) before world.tree)
    (copied : (met.foldlM (copyOne rule packageDir) copies).outcome world =
      (.ok copies', world')) :
    Stocked packageDir dir (!rule.keepPath) (copies'.map (·.1)) before world'.tree := by
  induction met generalizing copies world with
  | nil =>
      rw [List.foldlM_nil, outcome_pure, Prod.mk.injEq, Except.ok.injEq] at copied
      obtain ⟨rfl, rfl⟩ := copied
      exact stocked
  | cons found met induction =>
      rw [List.foldlM_cons] at copied
      obtain ⟨noted, middle, first, rest⟩ := outcome_bind_eq_ok_iff.mp copied
      obtain ⟨path, taken⟩ := each found List.mem_cons_self
      exact induction (fun found member => each found (List.mem_cons_of_mem _ member))
        (stocked_copyOne fills free path taken stocked first) rest

theorem stocked_copyRule {guard : Option Location} {paths : List Path} (fills : rule.Fills dir)
    (free : world.tree.LinkFree)
    (copied : (copyRule rule packageDir guard).outcome world = (.ok paths, world')) :
    Stocked packageDir dir (!rule.keepPath) paths world.tree world'.tree := by
  obtain ⟨-, met, copies, -, taken, all, rfl⟩ := copyRule_eq_ok copied
  refine stocked_foldlM fills free taken ⟨by simp, ?_⟩ all
  exact (Grows.refl _).deposits.congr fun k => by simp

/-- Copying for some rules that succeeds goes rule by rule. -/
theorem copyRules_cons_eq_ok {guard : Option Location} {rules : List CopyRule}
    {lists : List Path × List Path}
    (copied : (copyRules packageDir guard (rule :: rules)).outcome world = (.ok lists, world')) :
    ∃ paths rest middle, (copyRule rule packageDir guard).outcome world = (.ok paths, middle) ∧
      (copyRules packageDir guard rules).outcome middle = (.ok rest, world') ∧
      lists = if rule.keepPath then (paths ++ rest.1, rest.2) else (rest.1, paths ++ rest.2) := by
  rw [copyRules] at copied
  obtain ⟨paths, middle, first, others⟩ := outcome_bind_eq_ok_iff.mp copied
  obtain ⟨rest, last, second, joined⟩ := outcome_bind_eq_ok_iff.mp others
  simp only [outcome_pure, Prod.mk.injEq, Except.ok.injEq] at joined
  obtain ⟨rfl, rfl⟩ := joined
  exact ⟨paths, rest, middle, first, second, rfl⟩

/-- What has become of a tree by copying for all rules, with the paths that are listed for headers
and for libraries. -/
structure Delivered (packageDir : Path) (lists : List Path × List Path)
    (before after : FileTree) : Prop where
  /-- All headers lead into the directory for headers. -/
  headers : ∀ p ∈ lists.1, p.LeadsInto includeName false
  /-- All libraries lead directly into the directory for libraries. -/
  libraries : ∀ p ∈ lists.2, p.LeadsInto libName true
  /-- There are files at the paths. -/
  deposits : Deposits (fun k => ∃ p, (p ∈ lists.1 ∨ p ∈ lists.2) ∧
    k = (packageDir.join p).land before.here) before after

/-- Copying for one rule after the other adds all that they list. -/
theorem delivered_copyRules {guard : Option Location} {rules : List CopyRule}
    {lists : List Path × List Path}
    (fills : ∀ rule ∈ rules, rule.Fills (if rule.keepPath then includeName else libName))
    (free : world.tree.LinkFree)
    (copied : (copyRules packageDir guard rules).outcome world = (.ok lists, world')) :
    Delivered packageDir lists world.tree world'.tree := by
  induction rules generalizing world lists with
  | nil =>
      rw [copyRules, outcome_pure, Prod.mk.injEq, Except.ok.injEq] at copied
      obtain ⟨rfl, rfl⟩ := copied
      exact ⟨by simp, by simp, (Grows.refl _).deposits.congr fun k => by simp⟩
  | cons rule rules induction =>
      obtain ⟨paths, rest, middle, first, second, rfl⟩ := copyRules_cons_eq_ok copied
      have stocked := stocked_copyRule (fills rule List.mem_cons_self) free first
      have delivered := induction (fun rule member => fills rule (List.mem_cons_of_mem _ member))
        (stocked.deposits.free free) second
      have deposits := stocked.deposits.trans delivered.deposits
      rw [stocked.deposits.here] at deposits
      have leads := stocked.leads
      by_cases keeps : rule.keepPath = true
      · simp only [keeps, if_true, Bool.not_true] at leads ⊢
        refine ⟨fun p member => ?_, delivered.libraries, deposits.congr fun k => ?_⟩
        · exact (List.mem_append.mp member).elim (leads p) (delivered.headers p)
        · simp only [List.mem_append, or_assoc, or_and_right, exists_or]
      · simp only [keeps, if_false, Bool.not_false, Bool.false_eq_true] at leads ⊢
        refine ⟨delivered.headers, fun p member => ?_, deposits.congr fun k => ?_⟩
        · exact (List.mem_append.mp member).elim (leads p) (delivered.libraries p)
        · simp only [List.mem_append, or_left_comm, or_and_right, exists_or]

end Packager
end PackageBuild
