import PackageBuild.Proofs.Packager.Rules
import PackageBuild.Proofs.Staging
/-!
# Faults of the configuration

A fault of the recipe, the options, the settings or the signals ends a build before any command
runs. The patterns of the recipe are an exception: they are compiled when the outputs are packaged,
so a malformed one ends a build only after both commands have succeeded.
-/

namespace PackageBuild

namespace Exit

theorem cause_of_result {phase : BuildPhase} {command : Command} {exit : Exit} {failure : Failure}
    (fails : exit.result phase command = .error failure) :
    (∃ error, failure.cause = .build error) ∨ ∃ error, failure.cause = .os error := by
  unfold result at fails
  split at fails
  · exact absurd fails (by simp)
  all_goals
    cases fails
    simp [Failure.of]

end Exit

namespace PreparedBuild

open PackageBuild.Action

variable {prepared : PreparedBuild} {recipe : Recipe} {policy : CopyPolicy} {before after : World}
  {failure : Failure}

/-- Packaging the outputs fails for a malformed pattern, before it does anything, or like
packaging. -/
theorem outcome_packageOutputs_eq_error
    (fails : (prepared.packageOutputs recipe policy).outcome before = (.error failure, after)) :
    prepared.packager recipe policy = .error failure ∧ after = before ∨
      Packager.Fault failure.cause := by
  rw [packageOutputs] at fails
  cases made : prepared.packager recipe policy with
  | error refusal =>
      rw [made, outcome_bind_error (outcome_ofExcept _)] at fails
      cases fails
      exact Or.inl ⟨rfl, rfl⟩
  | ok packager =>
      rw [made, outcome_bind_ok (outcome_ofExcept _)] at fails
      have only := filesOnly_within ("failed to package " ++ recipe.name)
        (Packager.filesOnly_package packager prepared.packageDir)
      exact Or.inr (only.faults_cause (congrArg Prod.fst fails))

end PreparedBuild

namespace Recipe

open PackageBuild.Action

variable {recipe : Recipe} {opts : BuildOptions} {signals : Signals} {resolver : VersionResolver}
  {searchPath : List Path} {runner : Runner} {world last : World} {failure : Failure}

/-- A build that fails does so for a fault of the configuration before it does anything, for
another reason, or for a malformed pattern after both commands. -/
theorem fault_cases {earlier issued : List Command} {t t' : FileTree}
    (staged : Staged recipe opts signals resolver searchPath runner earlier t issued
      (.error failure) t') :
    (∃ fault, failure.cause = .recipe fault) ∧ issued = [] ∧ t' = t ∨
    (∀ fault, failure.cause ≠ .recipe fault) ∧ (∀ fault, failure.cause ≠ .pattern fault) ∨
    (∃ fault, failure.cause = .pattern fault) ∧ opts.package = true ∧
      ∃ plan, Ready recipe opts signals resolver searchPath t plan ∧
        Compiled runner earlier t plan t' ∧ issued = [plan.first, plan.second] ∧
        plan.prepared.packager recipe opts.copyPolicy = .error failure := by
  generalize ending : Except.error failure = result at staged
  cases staged with
  | unprepared refused =>
      cases ending
      exact Or.inl ⟨⟨_, rfl⟩, rfl, rfl⟩
  | toolless prepares is_project missing =>
      cases ending
      exact Or.inl ⟨⟨_, rfl⟩, rfl, rfl⟩
  | projectless prepares missing =>
      cases ending
      exact Or.inr (Or.inl ⟨by simp [Failure.of], by simp [Failure.of]⟩)
  | blocked ready paved =>
      cases ending
      exact Or.inr (Or.inl ⟨by simp [Failure.of], by simp [Failure.of]⟩)
  | unconfigured ready paved runs fails =>
      cases ending
      rcases Exit.cause_of_result fails with ⟨error, cause⟩ | ⟨error, cause⟩ <;>
        exact Or.inr (Or.inl ⟨by simp [cause], by simp [cause]⟩)
  | uncompiled ready configured runs fails =>
      cases ending
      rcases Exit.cause_of_result fails with ⟨error, cause⟩ | ⟨error, cause⟩ <;>
        exact Or.inr (Or.inl ⟨by simp [cause], by simp [cause]⟩)
  | unpackaged ready compiled left_out => cases ending
  | @packaged plan before after layout ready compiled wanted packages =>
      cases layout with
      | ok layout => cases ending
      | error failure =>
          cases ending
          rcases PreparedBuild.outcome_packageOutputs_eq_error packages with ⟨malformed, rfl⟩ | kind
          · exact Or.inr (Or.inr ⟨Packager.ofRecipe_eq_error malformed, wanted, plan, ready,
              compiled, rfl, malformed⟩)
          · refine Or.inr (Or.inl ⟨?_, ?_⟩) <;>
              · intro fault cause
                rw [cause] at kind
                cases kind

/-- A fault of the recipe, the options, the settings or the signals ends a build before any command
runs, with the files as they were. A malformed pattern ends it after both commands have succeeded,
with the files that they left. -/
theorem configuration_fault_of_build
    (fails : (recipe.build opts signals resolver searchPath runner).outcome world =
      (.error failure, last)) :
    (∀ fault, failure.cause = .recipe fault →
      last.commands = world.commands ∧ last.tree = world.tree) ∧
    ((∃ fault, failure.cause = .pattern fault) ↔ opts.package = true ∧
      ∃ plan, Ready recipe opts signals resolver searchPath world.tree plan ∧
        Compiled runner world.commands world.tree plan last.tree ∧
        last.commands = world.commands ++ [plan.first, plan.second] ∧
        plan.prepared.packager recipe opts.copyPolicy = .error failure) := by
  obtain ⟨result, last', outcome, issued, commands, staged⟩ :=
    exists_staged recipe opts signals resolver searchPath runner world
  obtain ⟨rfl, rfl⟩ := Prod.mk.inj (outcome.symm.trans fails)
  rcases fault_cases staged with ⟨⟨fault, cause⟩, rfl, tree⟩ | ⟨no_fault, no_pattern⟩ |
    ⟨pattern, wanted, plan, ready, compiled, rfl, malformed⟩
  · rw [List.append_nil] at commands
    refine ⟨fun _ _ => ⟨commands, tree⟩, ?_⟩
    constructor
    · rintro ⟨other, pattern⟩
      exact absurd (cause.symm.trans pattern) (by simp)
    · rintro ⟨-, plan, -, -, issued, -⟩
      rw [commands] at issued
      simp at issued
  · refine ⟨fun fault cause => absurd cause (no_fault fault), ?_⟩
    constructor
    · rintro ⟨fault, pattern⟩
      exact absurd pattern (no_pattern fault)
    · rintro ⟨-, plan, -, -, -, malformed⟩
      exact Packager.ofRecipe_eq_error malformed
  · refine ⟨fun fault cause => ?_, fun _ => ⟨wanted, plan, ready, compiled, commands, malformed⟩,
      fun _ => pattern⟩
    obtain ⟨other, pattern⟩ := pattern
    exact absurd (cause.symm.trans pattern) (by simp)

/-- The small project before it is built, with a file that can stand for CMake. -/
def smallSources : FileTree :=
  .ofEntries [
    (Path.land [] ⟨"/pkg"⟩, .directory),
    (Path.land [] ⟨"/pkg/CMakeLists.txt"⟩, .file "project(mini)".toUTF8 false),
    (Path.land [] ⟨"/pkg/cmake"⟩, .file .empty true)]

/-- A runner whose commands succeed and change nothing. -/
def smallRunner : Runner := fun _ _ t => { exit := .code 0, tree := t }

/-- What a test says of the failed build of a small manifest holds of the build of the recipe that
it parses to. -/
theorem exists_of_failed_build (declaration : String) (opts : BuildOptions)
    (test : Failure → World → Bool)
    (found : ((prepareSmall? declaration plainOptions).any fun build =>
      match (build.1.build opts {} {} [] smallRunner).outcome { tree := smallSources } with
      | (.error failure, last) => test failure last
      | (.ok _, _) => false) = true) :
    ∃ recipe failure last, FromSmall declaration recipe ∧
      (recipe.build opts {} {} [] smallRunner).outcome { tree := smallSources } =
        (.error failure, last) ∧ test failure last = true := by
  obtain ⟨recipe, _, read, -, tested⟩ := exists_of_prepareSmall? declaration plainOptions
    (fun recipe _ =>
      match (recipe.build opts {} {} [] smallRunner).outcome { tree := smallSources } with
      | (.error failure, last) => test failure last
      | (.ok _, _) => false) found
  split at tested
  · rename_i failure last outcome
    exact ⟨recipe, failure, last, read, outcome, tested⟩
  · exact absurd tested Bool.false_ne_true

/-- Without CMake the small project is left as it was. -/
theorem small_build_without_cmake :
    ∃ recipe failure last, FromSmall "" recipe ∧
      (recipe.build plainOptions {} {} [] smallRunner).outcome { tree := smallSources } =
        (.error failure, last) ∧
      failure.cause = .recipe .cmakeNotFound ∧ last.commands = [] ∧ last.tree = smallSources := by
  obtain ⟨recipe, failure, last, read, outcome, cause⟩ := exists_of_failed_build "" plainOptions
    (fun failure _ => decide (failure.cause = .recipe .cmakeNotFound)) (by decide +kernel)
  have cause := of_decide_eq_true cause
  exact ⟨recipe, failure, last, read, outcome, cause,
    (configuration_fault_of_build outcome).1 _ cause⟩

/-- A malformed pattern of the small project is found only after both commands. -/
theorem small_build_with_malformed_pattern :
    ∃ recipe failure last,
      FromSmall "[layout]\nlibrary_patterns = [\"[\"]" recipe ∧
      (recipe.build { plainOptions with cmake := some ⟨"/pkg/cmake"⟩ } {} {} []
        smallRunner).outcome { tree := smallSources } = (.error failure, last) ∧
      (∃ fault, failure.cause = .pattern fault) ∧
      ¬(last.commands = [] ∧ last.tree = smallSources) := by
  obtain ⟨recipe, failure, last, read, outcome, tested⟩ := exists_of_failed_build
    "[layout]\nlibrary_patterns = [\"[\"]" { plainOptions with cmake := some ⟨"/pkg/cmake"⟩ }
    (fun failure last => match failure.cause with
      | .pattern _ => last.commands.length == 2
      | _ => false) (by decide +kernel)
  split at tested
  · rename_i fault cause
    refine ⟨recipe, failure, last, read, outcome, ⟨fault, cause⟩, ?_⟩
    rintro ⟨silent, -⟩
    simp [silent] at tested
  · exact absurd tested Bool.false_ne_true

end Recipe
end PackageBuild
