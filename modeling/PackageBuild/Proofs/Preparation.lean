import PackageBuild.Preparation
import PackageBuild.Proofs.Outcome
/-!
# What a successful preparation yields

A prepared build carries the evaluated recipe unchanged into its invocation, together with the
directories that the caller asked for.
-/

namespace PackageBuild

namespace Invocation

variable {descriptor : PackageDescriptor} {options : OptionValues} {dirs : BuildDirs}
  {signals : Signals} {i : Invocation}

theorem ofSignals_eq_ok_iff : ofSignals descriptor options dirs signals = .ok i ↔
    signals.coreCount = .ok i.jobs ∧
      (i.jobs.isSome = true → NativeTool.ofGenerator dirs.generator ≠ .nmake) ∧
      i = ⟨descriptor, options, dirs, i.jobs⟩ := by
  rw [ofSignals, bind_eq_ok_iff]
  constructor
  · rintro ⟨jobs, counted, made⟩
    dsimp only at made
    split at made
    · cases made
    · rename_i takes
      obtain rfl := Except.ok.inj made
      exact ⟨counted, fun some_jobs nmake => takes (by simp [some_jobs, nmake]), rfl⟩
  · rintro ⟨counted, takes, whole⟩
    refine ⟨i.jobs, counted, ?_⟩
    have not_refused : ¬(i.jobs.isSome &&
        decide (NativeTool.ofGenerator dirs.generator = .nmake)) = true := by
      simpa using takes
    rw [if_neg not_refused]
    exact congrArg Except.ok whole.symm

/-- An invocation that is made carries what it was made from. -/
theorem ofSignals_eq_ok (made : ofSignals descriptor options dirs signals = .ok i) :
    i.descriptor = descriptor ∧ i.options = options ∧ i.dirs = dirs ∧
      signals.coreCount = .ok i.jobs := by
  obtain ⟨counted, -, whole⟩ := ofSignals_eq_ok_iff.mp made
  rw [whole]
  exact ⟨rfl, rfl, rfl, counted⟩

end Invocation

namespace Recipe

variable {recipe : Recipe} {opts : BuildOptions} {signals : Signals} {resolver : VersionResolver}
  {settings : Settings} {overrides : List OptionOverride} {evaluation : Evaluation}
  {prepared : PreparedBuild}

/-- An evaluated recipe consists of the descriptor for the version that is chosen, the options of
the system, values for them and the requirements. -/
theorem evaluate_eq_ok_iff :
    recipe.evaluate settings signals resolver overrides = .ok evaluation ↔
      resolver.resolve signals recipe.package.version = .ok evaluation.descriptor.version ∧
      (recipe.options.normalize settings.os).resolve overrides = .ok evaluation.values ∧
      evaluation = ⟨.ofMetadata recipe.package evaluation.descriptor.version settings,
        recipe.options.normalize settings.os, evaluation.values, recipe.requires.toList⟩ := by
  simp only [evaluate, bind_eq_ok_iff]
  constructor
  · rintro ⟨version, chosen, values, resolved, made⟩
    obtain rfl := Except.ok.inj made
    exact ⟨chosen, resolved, rfl⟩
  · rintro ⟨chosen, resolved, whole⟩
    exact ⟨_, chosen, _, resolved, congrArg Except.ok whole.symm⟩

/-- An evaluated recipe has the options of the system and values for them. -/
theorem evaluate_eq_ok
    (evaluated : recipe.evaluate settings signals resolver overrides = .ok evaluation) :
    evaluation.options = recipe.options.normalize settings.os ∧
      evaluation.options.resolve overrides = .ok evaluation.values := by
  obtain ⟨-, resolved, whole⟩ := evaluate_eq_ok_iff.mp evaluated
  have options := congrArg Evaluation.options whole
  exact ⟨options, options ▸ resolved⟩

/-- A prepared build consists of the evaluated recipe, the invocation made from it and the package
directory. -/
theorem prepare_eq_ok (ready : recipe.prepare opts signals resolver = .ok prepared) :
    recipe.evaluate opts.settings signals resolver opts.overrides = .ok prepared.evaluation ∧
      Invocation.ofSignals prepared.evaluation.descriptor prepared.evaluation.values
        (recipe.buildDirs opts) signals = .ok prepared.invocation ∧
      prepared.packageDir = recipe.packageDirFor opts.packageDir := by
  unfold prepare at ready
  obtain ⟨evaluation, evaluated, ready⟩ := bind_eq_ok_iff.mp ready
  obtain ⟨invocation, made, ready⟩ := bind_eq_ok_iff.mp ready
  obtain rfl := Except.ok.inj ready
  exact ⟨evaluated, made, rfl⟩

/-- The invocation of a prepared build carries the evaluated option values. -/
theorem options_of_prepare (ready : recipe.prepare opts signals resolver = .ok prepared) :
    prepared.invocation.options = prepared.evaluation.values :=
  (Invocation.ofSignals_eq_ok (prepare_eq_ok ready).2.1).2.1

/-- The text of a small manifest that declares one option. -/
def smallManifest (declaration : String) : String :=
  "[package]\nname = \"mini\"\nversion = \"0.1\"\n[options]\n" ++ declaration ++ "\n"

/-- Where the small manifest lies. -/
def smallPath : Path := ⟨"/pkg/Gantry.toml"⟩

/-- Whether a recipe is what the small manifest with a declaration holds, whatever counts as an
address. -/
def FromSmall (declaration : String) (recipe : Recipe) : Prop :=
  ∀ isUrl, parse isUrl (smallManifest declaration) smallPath = .ok recipe

/-- A release build on Linux without further wishes. -/
def plainOptions : BuildOptions := { settings := ⟨.linux, "gcc", .release, "x86_64"⟩ }

/-- The recipe that a small manifest holds and the build that it asks for without signals, if there
is one. -/
def prepareSmall? (declaration : String) (opts : BuildOptions) : Option (Recipe × PreparedBuild) :=
  match parse (fun _ => false) (smallManifest declaration) smallPath with
  | .error _ => none
  | .ok recipe => (recipe.prepare opts {} {}).toOption.map fun prepared => (recipe, prepared)

theorem metadataFault?_of_addressless {package : PackageMetadata}
    (well : Manifest.metadataFault? (fun _ => false) package = none) (isUrl : String → Bool) :
    Manifest.metadataFault? isUrl package = none := by
  unfold Manifest.metadataFault? at well ⊢
  split at well
  · cases well
  · rename_i named
    rw [if_neg named]
    split at well
    · cases well
    · rename_i versioned
      rw [if_neg versioned]
      cases given : package.url with
      | none => rfl
      | some url => simp [given] at well

theorem parse_of_addressless {content : String} {path : Path}
    (read : parse (fun _ => false) content path = .ok recipe) (isUrl : String → Bool) :
    parse isUrl content path = .ok recipe := by
  unfold parse at read ⊢
  cases decoded : Manifest.parse content with
  | error cause =>
      rw [decoded] at read
      cases read
  | ok manifest =>
      simp only [decoded, mapError_eq_ok_iff] at read ⊢
      unfold ofManifest at read ⊢
      cases fault : Manifest.metadataFault? (fun _ => false) manifest.package with
      | some fault' =>
          rw [fault] at read
          cases read
      | none =>
          rw [fault] at read
          rwa [metadataFault?_of_addressless fault isUrl]

/-- What holds of the build of a small manifest holds of a build prepared from what it parses to. -/
theorem exists_of_prepareSmall? (declaration : String) (opts : BuildOptions)
    (test : Recipe → PreparedBuild → Bool)
    (found : ((prepareSmall? declaration opts).any fun build => test build.1 build.2) = true) :
    ∃ recipe prepared, FromSmall declaration recipe ∧
      recipe.prepare opts {} {} = .ok prepared ∧ test recipe prepared = true := by
  unfold prepareSmall? at found
  cases read : parse (fun _ => false) (smallManifest declaration) smallPath with
  | error fault => simp [read] at found
  | ok recipe =>
      cases ready : recipe.prepare opts {} {} with
      | error fault => simp [read, ready, Except.toOption] at found
      | ok prepared =>
          exact ⟨recipe, prepared, parse_of_addressless read, ready,
            by simpa [read, ready, Except.toOption] using found⟩

end Recipe
end PackageBuild
