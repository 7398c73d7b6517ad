import PackageBuild.Workspace
import PackageBuild.Proofs.FileTree.Resolution
import PackageBuild.Proofs.Path.Joining
/-!
# The nearest manifest

The search for a manifest goes from the working directory to its parent, to the parent of that, and
so on to the root or the empty path. Every parent has one component less, so the search comes to an
end after as many steps as there are components, and the first directory with a manifest is the
longest of them.
-/

namespace PackageBuild

/-! ## Parents of parents -/

namespace Path

variable {dir dir' : Path} {dirs : List Path}

/-- Only the root and the empty path have no parent. -/
theorem parent?_eq_none_iff :
    dir.parent? = none ↔ dir.components = [] ∨ dir.components = [.root] := by
  have others := dir.root_not_mem_tail_components
  have all : dir.components = (trimEnd dir.tokens).filterMap (·.1) :=
    (filterMap_trimEnd dir.tokens).symm
  rcases List.eq_nil_or_concat (trimEnd dir.tokens) with nothing | ⟨front, token, trimmed⟩
  · rw [nothing] at all
    simp [parent?, nothing, all]
  · obtain ⟨component, text⟩ := token
    rw [List.concat_eq_append] at trimmed
    obtain ⟨c, rfl⟩ := Option.ne_none_iff_exists'.mp (trimEnd_last_ne_none trimmed)
    rw [trimmed, List.filterMap_append] at all
    have ends : dir.components = front.filterMap (·.1) ++ [c] := all
    rw [ends] at others ⊢
    have known : dir.parent? = none ↔ c = .root := by
      rw [parent?, trimmed]
      cases c <;> simp
    rw [known]
    constructor
    · rintro rfl
      cases before : front.filterMap (·.1) with
      | nil => exact Or.inr rfl
      | cons first rest => exact absurd (by simp) (before ▸ others)
    · rintro (none_stands | rooted)
      · exact absurd none_stands (by simp)
      · have last := congrArg List.getLast? rooted
        rw [List.getLast?_concat] at last
        exact Option.some.inj last

/-- A path with a parent has one component more than the parent. -/
theorem exists_components_of_parent? (up : dir.parent? = some dir') :
    ∃ c, dir.components = dir'.components ++ [c] := by
  have proper : dir.components ≠ [] := by
    intro none_stands
    rw [parent?_eq_none_iff.mpr (Or.inl none_stands)] at up
    cases up
  exact ⟨_, by rw [components_parent? up, List.dropLast_concat_getLast proper]⟩

theorem isAbsolute_parent? (up : dir.parent? = some dir') : dir'.isAbsolute = dir.isAbsolute := by
  obtain ⟨c, whole⟩ := exists_components_of_parent? up
  rw [Bool.eq_iff_iff, ← head?_components_iff, ← head?_components_iff, whole]
  cases components : dir'.components with
  | cons first rest => simp
  | nil =>
      rw [components, List.nil_append] at whole
      have not_root : c ≠ .root := by
        rintro rfl
        rw [parent?_eq_none_iff.mpr (Or.inr whole)] at up
        cases up
      simp [not_root]

/-- A path, its parent, the parent of that and so on, up to one that has none. -/
inductive Lineage : Path → List Path → Prop where
  | top {dir : Path} (last : dir.parent? = none) : Lineage dir [dir]
  | climb {dir parent : Path} {dirs : List Path} (up : dir.parent? = some parent)
      (rest : Lineage parent dirs) : Lineage dir (dir :: dirs)

/-- Going up comes to an end, after no more steps than there are components. -/
theorem exists_lineage (dir : Path) :
    ∃ dirs, dir.Lineage dirs ∧ dirs.length ≤ dir.components.length + 1 := by
  induction steps : dir.components.length generalizing dir with
  | zero =>
      have last := parent?_eq_none_iff.mpr (Or.inl (List.length_eq_zero_iff.mp steps))
      exact ⟨[dir], .top last, by simp⟩
  | succ steps induction =>
      cases up : dir.parent? with
      | none => exact ⟨[dir], .top up, by simp⟩
      | some parent =>
          obtain ⟨c, whole⟩ := exists_components_of_parent? up
          rw [whole, List.length_append, List.length_singleton] at steps
          obtain ⟨dirs, rest, short⟩ := induction parent (Nat.succ.inj steps)
          exact ⟨dir :: dirs, .climb up rest, Nat.succ_le_succ short⟩

/-- The directories on the way up are those with the first components of a path, down to none or,
for an absolute path, to the root. -/
theorem Lineage.exists_mem_iff (lineage : dir.Lineage dirs) (cs : List Component) :
    (∃ d ∈ dirs, d.components = cs) ↔
      cs <+: dir.components ∧ (dir.isAbsolute = true → cs ≠ []) := by
  induction lineage with
  | top last =>
      rw [← head?_components_iff]
      rcases parent?_eq_none_iff.mp last with nothing | root
      · simp [nothing, eq_comm]
      · simp only [root, List.mem_singleton, exists_eq_left, List.head?_cons, true_implies,
          List.prefix_cons_iff, List.prefix_nil]
        constructor
        · rintro rfl
          exact ⟨Or.inr ⟨[], rfl, rfl⟩, List.cons_ne_nil _ _⟩
        · rintro ⟨empty | ⟨rest, whole, rfl⟩, proper⟩
          · exact absurd empty proper
          · exact whole.symm
  | @climb dir parent dirs up rest induction =>
      obtain ⟨c, whole⟩ := exists_components_of_parent? up
      rw [List.exists_mem_cons_iff, induction, isAbsolute_parent? up, whole,
        List.prefix_concat_iff]
      constructor
      · rintro (rfl | ⟨front, proper⟩)
        · exact ⟨Or.inl rfl, fun _ => by simp⟩
        · exact ⟨Or.inr front, proper⟩
      · rintro ⟨rfl | front, proper⟩
        · exact Or.inl rfl
        · exact Or.inr ⟨front, proper⟩

theorem Lineage.pairwise_longer (lineage : dir.Lineage dirs) :
    dirs.Pairwise fun d d' => d'.components.length < d.components.length := by
  induction lineage with
  | top => exact List.pairwise_singleton _ _
  | @climb dir parent dirs up rest induction =>
      obtain ⟨c, whole⟩ := exists_components_of_parent? up
      refine List.pairwise_cons.mpr ⟨fun d member => ?_, induction⟩
      have front := ((rest.exists_mem_iff d.components).mp ⟨d, member, rfl⟩).1
      rw [whole, List.length_append, List.length_singleton]
      exact Nat.lt_succ_of_le front.length_le

end Path

/-! ## The search -/

/-- Whether the manifest in a directory is a regular file; nothing else of that name counts. -/
def FileTree.HasManifest (t : FileTree) (dir : Path) : Prop :=
  ∃ l content executable,
    t.find (dir.joinText Manifest.fileName) = .ok (l, .file content executable)

theorem FileTree.isFile_iff {t : FileTree} {p : Path} :
    t.isFile p = true ↔ ∃ l content executable, t.find p = .ok (l, .file content executable) := by
  rw [isFile]
  cases t.find p with
  | error fault => simp [Except.toOption]
  | ok place =>
      obtain ⟨l, entry⟩ := place
      cases entry <;> simp [Except.toOption, Entry.isFile]

namespace Workspace

variable {t : FileTree} {dir path : Path} {dirs : List Path} {tries : Nat}

theorem manifestIn_eq_some_iff :
    manifestIn t dir = some path ↔ t.HasManifest dir ∧ path = dir.joinText Manifest.fileName := by
  rw [manifestIn, Option.ite_none_right_eq_some, FileTree.isFile_iff, Option.some.injEq, eq_comm,
    FileTree.HasManifest]

theorem manifestIn_eq_none_iff : manifestIn t dir = none ↔ ¬t.HasManifest dir := by
  simp [Option.eq_none_iff_forall_ne_some, manifestIn_eq_some_iff]

/-- The search goes up until it finds a manifest, and further tries find nothing else. -/
theorem nearest_eq_findSome? (lineage : dir.Lineage dirs) (enough : dirs.length ≤ tries) :
    nearest t tries dir = dirs.findSome? (manifestIn t) := by
  induction lineage generalizing tries with
  | top last =>
      obtain ⟨tries, rfl⟩ := Nat.exists_eq_add_of_le' enough
      rw [List.length_singleton, nearest, last, List.findSome?_singleton]
      cases manifestIn t _ <;> rfl
  | climb up rest induction =>
      obtain ⟨tries, rfl⟩ := Nat.exists_eq_add_of_le' enough
      rw [List.length_cons, ← Nat.add_assoc, nearest, up, List.findSome?_cons]
      cases manifestIn t _ with
      | none => exact induction (Nat.le_add_left _ _)
      | some path => rfl

/-- Of directories of which each is shorter than those before it, the first with a manifest is the
longest. -/
theorem findSome?_manifestIn_eq_some_iff
    (longer : dirs.Pairwise fun d d' => d'.components.length < d.components.length) :
    dirs.findSome? (manifestIn t) = some path ↔ ∃ d ∈ dirs, t.HasManifest d ∧
      path = d.joinText Manifest.fileName ∧
      ∀ d' ∈ dirs, t.HasManifest d' → d'.components.length ≤ d.components.length := by
  induction longer with
  | nil => simp
  | @cons d dirs shorter longer induction =>
      rw [List.findSome?_cons]
      cases here : manifestIn t d with
      | none =>
          have absent := manifestIn_eq_none_iff.mp here
          simp only [induction, List.mem_cons, exists_eq_or_imp, forall_eq_or_imp, absent,
            false_and, false_or, false_implies, true_and]
      | some found =>
          obtain ⟨has, rfl⟩ := manifestIn_eq_some_iff.mp here
          constructor
          · intro same
            refine ⟨d, List.mem_cons_self, has, (Option.some.inj same).symm, ?_⟩
            intro d' member _
            rcases List.mem_cons.mp member with rfl | behind
            · exact le_rfl
            · exact (shorter d' behind).le
          · rintro ⟨d', member, -, rfl, longest⟩
            rcases List.mem_cons.mp member with rfl | behind
            · rfl
            · exact absurd (longest d List.mem_cons_self has) (shorter d' behind).not_ge

/-- The search for a manifest comes to an end: on the way up from the working directory there are
no more directories than it has components, and one; they have its first components, down to the
root or to none; and more tries find nothing else. What is found is the manifest of the longest
directory on the way that has one as a regular file. Nothing is found, and the working directory is
named, exactly if there is no such directory. -/
theorem findManifest_nearest (w : Workspace) (t : FileTree) :
    ∃ dirs, w.cwd.Lineage dirs ∧ dirs.length ≤ w.cwd.components.length + 1 ∧
      (∀ cs, (∃ d ∈ dirs, d.components = cs) ↔
        cs <+: w.cwd.components ∧ (w.cwd.isAbsolute = true → cs ≠ [])) ∧
      (∀ tries, dirs.length ≤ tries →
        nearest t tries w.cwd = (w.findManifest t).toOption) ∧
      (∀ path, w.findManifest t = .ok path ↔ ∃ d ∈ dirs, t.HasManifest d ∧
        path = d.joinText Manifest.fileName ∧
        ∀ d' ∈ dirs, t.HasManifest d' → d'.components.length ≤ d.components.length) ∧
      ∀ fault, w.findManifest t = .error fault ↔
        fault = .manifestNotFound w.cwd ∧ ∀ d ∈ dirs, ¬t.HasManifest d := by
  obtain ⟨dirs, lineage, short⟩ := w.cwd.exists_lineage
  have searched {tries : Nat} (enough : dirs.length ≤ tries) :
      nearest t tries w.cwd = dirs.findSome? (manifestIn t) := nearest_eq_findSome? lineage enough
  refine ⟨dirs, lineage, short, lineage.exists_mem_iff, fun tries enough => ?_, fun path => ?_,
    fun fault => ?_⟩
  · rw [searched enough, findManifest, searched short]
    cases dirs.findSome? (manifestIn t) <;> rfl
  · rw [← findSome?_manifestIn_eq_some_iff lineage.pairwise_longer, findManifest, searched short]
    cases dirs.findSome? (manifestIn t) <;> simp
  · have none_iff : dirs.findSome? (manifestIn t) = none ↔ ∀ d ∈ dirs, ¬t.HasManifest d := by
      simp [List.findSome?_eq_none_iff, manifestIn_eq_none_iff]
    rw [← none_iff, findManifest, searched short]
    cases dirs.findSome? (manifestIn t) <;> simp [eq_comm]

/-- A directory of the manifest's name does not stop the search. -/
example : (findManifest { cwd := ⟨"/pkg/src"⟩, home := ⟨"/"⟩ } (.ofEntries [
    (Path.land [] ⟨"/pkg"⟩, .directory),
    (Path.land [] ⟨"/pkg/Gantry.toml"⟩, .file "".toUTF8 false),
    (Path.land [] ⟨"/pkg/src"⟩, .directory),
    (Path.land [] ⟨"/pkg/src/Gantry.toml"⟩, .directory)])).toOption =
      some ⟨"/pkg/Gantry.toml"⟩ := by decide +kernel

end Workspace
end PackageBuild
