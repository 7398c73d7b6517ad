import PackageBuild.Packager
import PackageBuild.Proofs.FileTree.Walking
import PackageBuild.Proofs.Outcome
/-!
# Packaging step by step

Packaging checks the sources, clears the package, makes its directory and copies file after file. A
property that goes step by step holds of packaging when it holds of what these steps do to the
files.
-/

namespace PackageBuild

open PackageBuild.Action

namespace Packager

/-- Whether packaging gets past the check for missing sources. -/
def Proceeds (policy : CopyPolicy) (rules : List CopyRule) (t : FileTree) : Prop :=
  policy = .lenient ∨ ∀ rule ∈ rules, t.isDir rule.src = true

theorem proceeds_cons_iff {policy : CopyPolicy} {rule : CopyRule} {rules : List CopyRule}
    {t : FileTree} (there : t.isDir rule.src = true) :
    Proceeds policy (rule :: rules) t ↔ Proceeds policy rules t := by
  simp [Proceeds, there]

/-- What the check tells about the rules whose sources are missing. -/
def missingNotices (rules : List CopyRule) (t : FileTree) : List Notice :=
  (rules.filter fun rule => !t.isDir rule.src).map fun rule =>
    .warning (.nothingCopied rule.category rule.src)

/-- The check keeps the rules whose sources are there and tells about the others. -/
theorem outcome_presentRules {policy : CopyPolicy} {rules : List CopyRule} {world : World}
    (proceeds : Proceeds policy rules world.tree) :
    ∃ world', world'.tree = world.tree ∧
      world'.notices = world.notices ++ missingNotices rules world.tree ∧
      (presentRules policy rules).outcome world =
        (.ok (rules.filter fun rule => world.tree.isDir rule.src), world') := by
  induction rules generalizing world with
  | nil => exact ⟨world, rfl, by simp [missingNotices], rfl⟩
  | cons rule rules induction =>
      rw [presentRules, outcome_bind_ok (outcome_look _)]
      cases there : world.tree.isDir rule.src with
      | true =>
          obtain ⟨world', same, told, rest⟩ := induction ((proceeds_cons_iff there).mp proceeds)
          refine ⟨world', same, by simpa [missingNotices, there] using told, ?_⟩
          rw [if_pos rfl, outcome_bind_ok rest, outcome_pure, List.filter_cons, if_pos there]
      | false =>
          obtain rfl : policy = .lenient := by
            rcases proceeds with lenient | present
            · exact lenient
            · exact absurd (present rule List.mem_cons_self) (by simp [there])
          let warned : World := { world with notices := world.notices ++
            [.warning (.nothingCopied rule.category rule.src)] }
          have warns : (missingSource .lenient rule).outcome world = (.ok (), warned) :=
            outcome_warn _
          obtain ⟨world', same, told, rest⟩ := @induction warned (Or.inl rfl)
          refine ⟨world', same, by simpa [missingNotices, there, warned] using told, ?_⟩
          rw [if_neg Bool.false_ne_true, outcome_bind_ok warns, rest, List.filter_cons,
            if_neg (by simp [there])]

theorem outcome_presentRules_of_missing {policy : CopyPolicy} {rules : List CopyRule}
    {world : World} (missing : ¬Proceeds policy rules world.tree) :
    ∃ failure, (presentRules policy rules).outcome world = (.error failure, world) := by
  obtain ⟨not_lenient, absent⟩ := not_or.mp missing
  obtain rfl : policy = .strict := by
    cases policy with
    | strict => rfl
    | lenient => exact absurd rfl not_lenient
  clear missing
  induction rules with
  | nil => exact absurd (by simp) absent
  | cons rule rules induction =>
      rw [presentRules, outcome_bind_ok (outcome_look _)]
      cases there : world.tree.isDir rule.src with
      | true =>
          obtain ⟨failure, refused⟩ := induction (by simpa [there] using absent)
          exact ⟨failure, by rw [if_pos rfl, outcome_bind_error refused]⟩
      | false =>
          rw [if_neg Bool.false_ne_true]
          exact ⟨_, outcome_bind_error (outcome_fail _)⟩

/-- A check that lets packaging go on has kept the rules whose sources are there and has told about
the others. -/
theorem presentRules_eq_ok {policy : CopyPolicy} {rules present : List CopyRule}
    {world world' : World}
    (decided : (presentRules policy rules).outcome world = (.ok present, world')) :
    present = rules.filter (fun rule => world.tree.isDir rule.src) ∧
      world'.tree = world.tree ∧
      world'.notices = world.notices ++ missingNotices rules world.tree := by
  by_cases proceeds : Proceeds policy rules world.tree
  · obtain ⟨after, same, told, outcome⟩ := outcome_presentRules proceeds
    rw [outcome] at decided
    simp only [Prod.mk.injEq, Except.ok.injEq] at decided
    obtain ⟨rfl, rfl⟩ := decided
    exact ⟨rfl, same, told⟩
  · obtain ⟨failure, outcome⟩ := outcome_presentRules_of_missing proceeds
    rw [outcome] at decided
    exact absurd (Prod.mk.inj decided).1 (by simp)

end Packager

namespace Action.Closed

open PackageBuild.Packager

variable {P : (α : Type) → Action α → Prop} {rule : CopyRule} {packageDir : Path}

theorem of_presentRules (closed : Closed P) {policy : CopyPolicy} (rules : List CopyRule)
    (missing : ∀ rule ∈ rules, P Unit (missingSource policy rule)) :
    P (List CopyRule) (presentRules policy rules) := by
  induction rules with
  | nil => exact closed.of_pure []
  | cons rule rules induction =>
      have others := induction fun rule member => missing rule (List.mem_cons_of_mem _ member)
      rw [presentRules]
      apply closed.of_bind (closed.of_look _)
      intro there _
      split
      · exact closed.of_bind others fun _ _ => closed.of_pure _
      · exact closed.of_bind (missing rule List.mem_cons_self) fun _ _ => others

theorem of_copyOne (closed : Closed P) {found : Found}
    (copied : P Unit (copyFile found.path (packageDir.join (rule.target found))))
    (copies : Copies) : P Copies (copyOne rule packageDir copies found) := by
  have rest : P Copies (do
      copyFile found.path (packageDir.join (rule.target found))
      return noteCopy (rule.target found) found.path copies) :=
    closed.of_bind copied fun _ _ => closed.of_pure _
  rw [copyOne]
  dsimp only
  split
  · exact closed.of_bind (closed.of_warn _) fun _ _ => rest
  · exact rest

theorem of_copyMet (closed : Closed P) {found : Found}
    (copied : rule.takes found = true →
      P Unit (copyFile found.path (packageDir.join (rule.target found))))
    (copies : Copies) : P Copies (copyMet rule packageDir copies found) := by
  rw [copyMet]
  split
  · rename_i taken
    exact closed.of_copyOne (copied (Bool.and_eq_true_iff.mp taken).2) copies
  · exact closed.of_pure copies

section Walk

variable (closed : Closed P)
  (copied : ∀ found : Found, found.path = rule.src.descend found.way → rule.takes found = true →
    P Unit (copyFile found.path (packageDir.join (rule.target found))))
include closed copied

theorem of_copyBelow (guard : Option Location) (top : Location) (depth : Nat) (way : Location)
    (copies : Copies) : P Copies (copyBelow rule packageDir guard top depth way copies) := by
  induction depth generalizing way copies with
  | zero => exact closed.of_pure copies
  | succ depth induction =>
      rw [copyBelow]
      apply closed.of_bind (closed.of_look _)
      intro children _
      apply closed.of_foldlM
      intro copies child _
      apply closed.of_bind (closed.of_copyMet (copied _ rfl) copies)
      intro copies _
      exact induction (way ++ [child.1]) copies

theorem of_copyRule (unwalkable : ∀ e, P (List Path) (fail (.walk rule.src e)))
    (guard : Option Location) : P (List Path) (copyRule rule packageDir guard) := by
  rw [copyRule]
  apply closed.of_bind (closed.of_look id)
  intro tree _
  split
  · exact unwalkable _
  · rename_i top entry _
    apply closed.of_bind
    · apply closed.of_foldlM
      intro copies found member
      exact closed.of_copyMet (copied _ (FileTree.path_of_mem_metAtStart member)) copies
    · intro copies _
      exact closed.of_bind (closed.of_copyBelow copied guard top _ [] copies)
        fun _ _ => closed.of_pure _

end Walk

theorem of_copyRules (closed : Closed P) (guard : Option Location) (rules : List CopyRule)
    (unwalkable : ∀ rule ∈ rules, ∀ e, P (List Path) (fail (.walk rule.src e)))
    (copied : ∀ rule ∈ rules, ∀ found : Found, found.path = rule.src.descend found.way →
      rule.takes found = true →
        P Unit (copyFile found.path (packageDir.join (rule.target found)))) :
    P (List Path × List Path) (copyRules packageDir guard rules) := by
  induction rules with
  | nil => exact closed.of_pure _
  | cons rule rules induction =>
      have others := induction (fun rule member => unwalkable rule (List.mem_cons_of_mem _ member))
        fun rule member => copied rule (List.mem_cons_of_mem _ member)
      rw [copyRules]
      apply closed.of_bind (closed.of_copyRule (copied rule List.mem_cons_self)
        (unwalkable rule List.mem_cons_self) guard)
      intro paths _
      exact closed.of_bind others fun _ _ => closed.of_pure _

/-- What goes step by step holds of packaging when it holds of every refusal, of every removal, of
making the package directory, and of copying what the rules take. -/
theorem of_package (closed : Closed P) {packager : Packager}
    (missing : ∀ rule ∈ packager.rules, P Unit (missingSource packager.policy rule))
    (removed : ∀ dst ∈ packager.destinations, P Unit (removeDirectory (packageDir.join dst)))
    (directory : P Unit (Action.makeDirectories packageDir))
    (unwalkable : ∀ rule ∈ packager.rules, ∀ e, P (List Path) (fail (.walk rule.src e)))
    (copied : ∀ rule ∈ packager.rules, ∀ found : Found,
      found.path = rule.src.descend found.way → rule.takes found = true →
        P Unit (copyFile found.path (packageDir.join (rule.target found)))) :
    P ArtifactLayout (packager.package packageDir) := by
  rw [package]
  apply closed.of_bind (closed.of_presentRules _ missing)
  rintro present ⟨world, world', decided⟩
  have of_rules : ∀ rule ∈ present, rule ∈ packager.rules := by
    rw [(presentRules_eq_ok decided).1]
    exact fun rule member => (List.mem_filter.mp member).1
  apply closed.of_bind (closed.of_forM _ removed)
  intro _ _
  apply closed.of_bind directory
  intro _ _
  apply closed.of_bind (closed.of_look _)
  intro guard _
  exact closed.of_bind (closed.of_copyRules guard present
    (fun rule member => unwalkable rule (of_rules rule member))
    fun rule member => copied rule (of_rules rule member)) fun _ _ => closed.of_pure _

end Action.Closed
end PackageBuild
