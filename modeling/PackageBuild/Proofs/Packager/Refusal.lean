import PackageBuild.Build
import PackageBuild.Proofs.Packager.Determinacy
import PackageBuild.Proofs.Packager.Output
import PackageBuild.Proofs.PreparationFaults
/-!
# Packaging that is refused

The patterns of a recipe are compiled, and under the strict policy its sources are looked for,
before anything is removed or made. So packaging that is refused for a malformed pattern or for a
missing source has done nothing. The shared patterns of a recipe are compiled only for a build that
asks for a shared library.
-/

namespace PackageBuild

/-! ## Malformed patterns -/

namespace CopyRule

/-- How a text that is no pattern is refused. -/
inductive Malformed (text : String) : Failure → Prop
  | intro {fault : PatternError} (refused : Glob.parse text = .error fault) :
      Malformed text ((Failure.of (.pattern fault)).within ("invalid file pattern: " ++ text))

theorem exists_malformed_iff {text : String} :
    (∃ failure, Malformed text failure) ↔ ∃ fault, Glob.parse text = .error fault := by
  constructor
  · rintro ⟨_, ⟨refused⟩⟩
    exact ⟨_, refused⟩
  · rintro ⟨fault, refused⟩
    exact ⟨_, .intro refused⟩

theorem compile_eq_error_iff {patterns : List String} {failure : Failure} :
    compile patterns = .error failure ↔ FirstFault Malformed patterns failure := by
  refine mapM_eq_error_iff fun text failure => ?_
  cases parsed : Glob.parse text with
  | error fault =>
      constructor
      · rintro ⟨⟩
        exact .intro parsed
      · rintro ⟨refused⟩
        obtain rfl := Except.error.inj (parsed.symm.trans refused)
        rfl
  | ok glob =>
      constructor
      · rintro ⟨⟩
      · rintro ⟨refused⟩
        exact absurd (parsed.symm.trans refused) (by simp)

/-- The source of a rule as it is reported when it is missing. -/
def source (rule : CopyRule) : MissingSource := ⟨rule.category, rule.src⟩

end CopyRule

namespace MissingSource

/-- How a source directory that is not there is refused. -/
inductive Absent (t : FileTree) (source : MissingSource) : Failure → Prop
  | intro (missing : t.isDir source.directory = false) : Absent t source (.of (.package source))

theorem exists_absent_iff {t : FileTree} {source : MissingSource} :
    (∃ failure, source.Absent t failure) ↔ t.isDir source.directory = false := by
  constructor
  · rintro ⟨_, ⟨missing⟩⟩
    exact missing
  · exact fun missing => ⟨_, .intro missing⟩

end MissingSource

namespace Packager

open PackageBuild.Action

/-- The patterns that are compiled for a recipe, in their order. -/
def patterns (layout : LayoutConfig) (shared : Bool) : List String :=
  headerPatterns layout ++ libraryPatterns layout shared

theorem mem_patterns_iff {layout : LayoutConfig} {shared : Bool} {text : String} :
    text ∈ patterns layout shared ↔
      text ∈ headerPatterns layout ∨ text ∈ layout.libraryPatterns ∨
        shared = true ∧ text ∈ layout.sharedLibraryPatterns := by
  cases shared <;> simp [patterns, libraryPatterns]

/-- The sources of a recipe in the order of its rules. -/
def sources (recipe : Recipe) (buildDir : Path) : List MissingSource :=
  [⟨"headers", recipe.root.join recipe.layout.includeDir⟩, ⟨"libraries", buildDir⟩]

section OfRecipe

variable {recipe : Recipe} {buildDir : Path} {shared : Bool} {policy : CopyPolicy}
  {packager : Packager} {failure : Failure}

theorem ofRecipe_eq_error_iff :
    ofRecipe recipe buildDir shared policy = .error failure ↔
      FirstFault CopyRule.Malformed (patterns recipe.layout shared) failure := by
  rw [patterns, firstFault_append_iff, ofRecipe]
  simp only [← CopyRule.compile_eq_error_iff]
  cases CopyRule.compile (headerPatterns recipe.layout) with
  | error fault => simp [bind, Except.bind]
  | ok headers =>
      cases CopyRule.compile (libraryPatterns recipe.layout shared) <;>
        simp [bind, Except.bind, pure, Except.pure]

theorem map_source_of_ofRecipe (made : ofRecipe recipe buildDir shared policy = .ok packager) :
    packager.policy = policy ∧
      packager.rules.map CopyRule.source = sources recipe buildDir := by
  obtain ⟨headers, libraries, -, -, rfl⟩ := ofRecipe_eq_ok made
  exact ⟨rfl, rfl⟩

end OfRecipe

theorem outcome_presentRules_strict {rules : List CopyRule} {world : World} {failure : Failure}
    (first : FirstFault (fun rule => rule.source.Absent world.tree) rules failure) :
    (presentRules .strict rules).outcome world = (.error failure, world) := by
  induction rules with
  | nil => exact absurd first not_firstFault_nil
  | cons rule rules induction =>
      rw [presentRules, outcome_bind_ok (outcome_look _)]
      rcases firstFault_cons_iff.mp first with absent | ⟨there, later⟩
      · cases absent with
        | intro missing =>
            have missing : world.tree.isDir rule.src = false := missing
            rw [if_neg (ne_true_of_eq_false missing)]
            exact outcome_bind_error (outcome_fail (.package rule.source))
      · have there : world.tree.isDir rule.src = true :=
          eq_true_of_ne_false fun missing => there _ (.intro missing)
        rw [if_pos there, outcome_bind_error (induction later)]

end Packager

namespace PreparedBuild

open PackageBuild.Action

/-- The failure that packaging the outputs is refused with, on the files as they are: for the first
malformed pattern, or else, under the strict policy, for the first source that is missing. -/
inductive Refuses (prepared : PreparedBuild) (recipe : Recipe) (policy : CopyPolicy)
    (t : FileTree) : Failure → Prop
  | malformed {failure : Failure}
      (first : FirstFault CopyRule.Malformed
        (Packager.patterns recipe.layout prepared.evaluation.values.shared) failure) :
      Refuses prepared recipe policy t failure
  | missing {failure : Failure} (strict : policy = .strict)
      (wellformed : ∀ text ∈ Packager.patterns recipe.layout prepared.evaluation.values.shared,
        ∃ glob, Glob.parse text = .ok glob)
      (first : FirstFault (MissingSource.Absent t)
        (Packager.sources recipe prepared.invocation.dirs.buildDir) failure) :
      Refuses prepared recipe policy t (failure.within ("failed to package " ++ recipe.name))

variable (prepared : PreparedBuild) (recipe : Recipe) (policy : CopyPolicy)

theorem exists_refuses_iff (t : FileTree) :
    (∃ failure, prepared.Refuses recipe policy t failure) ↔
      (∃ text ∈ Packager.patterns recipe.layout prepared.evaluation.values.shared,
        ∃ fault, Glob.parse text = .error fault) ∨
      policy = .strict ∧ ∃ source ∈ Packager.sources recipe prepared.invocation.dirs.buildDir,
        t.isDir source.directory = false := by
  simp only [← CopyRule.exists_malformed_iff, ← MissingSource.exists_absent_iff,
    ← exists_firstFault_iff]
  constructor
  · rintro ⟨failure, refuses⟩
    cases refuses with
    | malformed first => exact Or.inl ⟨_, first⟩
    | missing strict _ first => exact Or.inr ⟨strict, _, first⟩
  · rintro (⟨failure, first⟩ | ⟨strict, failure, first⟩)
    · exact ⟨failure, .malformed first⟩
    · by_cases malformed : ∃ failure, FirstFault CopyRule.Malformed
          (Packager.patterns recipe.layout prepared.evaluation.values.shared) failure
      · obtain ⟨failure, first⟩ := malformed
        exact ⟨failure, .malformed first⟩
      · refine ⟨_, .missing strict (fun text member => ?_) first⟩
        cases parsed : Glob.parse text with
        | ok glob => exact ⟨glob, rfl⟩
        | error fault =>
            exact absurd (exists_firstFault_iff.mpr ⟨text, member, _, .intro parsed⟩) malformed

variable {prepared recipe policy}

theorem exists_packager
    (wellformed : ∀ text ∈ Packager.patterns recipe.layout prepared.evaluation.values.shared,
      ∃ glob, Glob.parse text = .ok glob) (policy : CopyPolicy) :
    ∃ packager, prepared.packager recipe policy = .ok packager := by
  cases made : prepared.packager recipe policy with
  | ok packager => exact ⟨packager, rfl⟩
  | error failure =>
      obtain ⟨text, member, malformed⟩ :=
        exists_firstFault_iff.mp ⟨failure, Packager.ofRecipe_eq_error_iff.mp made⟩
      obtain ⟨fault, refused⟩ := CopyRule.exists_malformed_iff.mp malformed
      obtain ⟨glob, parsed⟩ := wellformed text member
      exact absurd (parsed.symm.trans refused) (by simp)

/-- Packaging that is refused does nothing. -/
theorem Refuses.outcome {world : World} {failure : Failure}
    (refuses : prepared.Refuses recipe policy world.tree failure) :
    (prepared.packageOutputs recipe policy).outcome world = (.error failure, world) := by
  rw [packageOutputs]
  cases refuses with
  | malformed first =>
      rw [packager, Packager.ofRecipe_eq_error_iff.mpr first]
      exact outcome_bind_error (outcome_ofExcept _)
  | missing strict wellformed first =>
      obtain ⟨packager, made⟩ := exists_packager wellformed policy
      obtain ⟨same, rules⟩ := Packager.map_source_of_ofRecipe made
      rw [← rules, firstFault_map_iff] at first
      have refused := Packager.outcome_presentRules_strict first
      rw [made, outcome_bind_ok (outcome_ofExcept _), outcome_within, Packager.package, same,
        strict, outcome_bind_error refused]
      rfl

/-- Packaging the outputs is refused exactly if a pattern of the recipe is malformed, one for shared
libraries counting only when one is asked for, or the policy is strict and a source is missing. It
then fails for the first malformed pattern, or else for the first missing source, and all is as it
was before. The lenient policy never lets it fail for a missing source. -/
theorem refused_packageOutputs (prepared : PreparedBuild) (recipe : Recipe) (policy : CopyPolicy)
    (world : World) :
    ((∃ failure, prepared.Refuses recipe policy world.tree failure) ↔
      (∃ text fault, Glob.parse text = .error fault ∧
        (text ∈ Packager.headerPatterns recipe.layout ∨ text ∈ recipe.layout.libraryPatterns ∨
          prepared.evaluation.values.shared = true ∧
            text ∈ recipe.layout.sharedLibraryPatterns)) ∨
      policy = .strict ∧
        (world.tree.isDir (recipe.root.join recipe.layout.includeDir) = false ∨
          world.tree.isDir prepared.invocation.dirs.buildDir = false)) ∧
    (∀ failure, prepared.Refuses recipe policy world.tree failure →
      (prepared.packageOutputs recipe policy).outcome world = (.error failure, world)) ∧
    (policy = .lenient → ∀ failure last,
      (prepared.packageOutputs recipe policy).outcome world = (.error failure, last) →
        ∀ source, failure.cause ≠ .package source) := by
  refine ⟨?_, fun _ => Refuses.outcome, ?_⟩
  · rw [exists_refuses_iff]
    simp only [Packager.mem_patterns_iff, Packager.sources, List.mem_cons, List.not_mem_nil,
      or_false, exists_eq_or_imp, exists_eq_left]
    simp only [← exists_and_left, and_comm]
  · rintro rfl failure last fails source cause
    rw [packageOutputs] at fails
    cases made : prepared.packager recipe .lenient with
    | error refusal =>
        rw [made, outcome_bind_error (outcome_ofExcept _)] at fails
        obtain ⟨fault, pattern⟩ := Packager.ofRecipe_eq_error made
        cases fails
        exact absurd (pattern.symm.trans cause) (by simp)
    | ok packager =>
        rw [made, outcome_bind_ok (outcome_ofExcept _)] at fails
        have lenient := (Packager.map_source_of_ofRecipe made).1
        have only : FilesOnly Packager.CopyFault (packager.package prepared.packageDir) :=
          Packager.filesOnly_package_of (fun strict => absurd (lenient.symm.trans strict) (by simp))
            (fun _ kind => kind) prepared.packageDir
        have kind := (filesOnly_within _ only).faults_cause (congrArg Prod.fst fails)
        rw [cause] at kind
        cases kind

/-- A malformed pattern for shared libraries does not keep the static small project from being
packaged. -/
theorem small_malformed_shared_pattern :
    ∃ recipe prepared layout last,
      Recipe.FromSmall "[layout]\nshared_library_patterns = [\"[\"]" recipe ∧
      recipe.prepare Recipe.plainOptions {} {} = .ok prepared ∧
      "[" ∈ recipe.layout.sharedLibraryPatterns ∧ (∃ fault, Glob.parse "[" = .error fault) ∧
      (prepared.packageOutputs recipe .strict).outcome { tree := Packager.smallProject } =
        (.ok layout, last) := by
  obtain ⟨recipe, prepared, read, ready, fit⟩ := Recipe.exists_of_prepareSmall?
    "[layout]\nshared_library_patterns = [\"[\"]" Recipe.plainOptions (fun recipe prepared =>
      match prepared.packager recipe .strict with
      | .error _ => false
      | .ok packager =>
        let t := Packager.smallProject
        let l := prepared.packageDir.land t.here
        decide ("[" ∈ recipe.layout.sharedLibraryPatterns ∧
          prepared.packageDir.isAbsolute = true ∧ prepared.packageDir.Straight ∧
          t.lookup? l = some .directory ∧ ¬t.HoldsFile (l ++ [Packager.includeName]) ∧
          ¬t.HoldsFile (l ++ [Packager.libName]) ∧
          (∀ rule ∈ packager.rules, rule.src.Straight ∧ FileTree.Outside l (rule.src.land t.here)) ∧
          ∀ rule ∈ packager.rules, t.isDir rule.src = true)) (by decide +kernel)
  cases made : prepared.packager recipe .strict with
  | error failure => simp [made] at fit
  | ok packager =>
      simp only [made, decide_eq_true_eq] at fit
      obtain ⟨listed, absolute, straight, directory, no_include_file, no_lib_file, sources,
        present⟩ := fit
      obtain ⟨layout, last, packaged⟩ : ∃ layout last,
          (packager.package prepared.packageDir).outcome { tree := Packager.smallProject } =
            (.ok layout, last) :=
        Packager.package_succeeds made Packager.smallProject_linkFree absolute straight directory
          no_include_file no_lib_file sources present
      refine ⟨recipe, prepared, layout, last, read, ready, listed, ⟨_, rfl⟩, ?_⟩
      rw [packageOutputs, made, outcome_bind_ok (outcome_ofExcept _), outcome_within, packaged]
      rfl

end PreparedBuild
end PackageBuild
