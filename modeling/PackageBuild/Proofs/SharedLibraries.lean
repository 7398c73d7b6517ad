import PackageBuild.Build
import PackageBuild.Proofs.Packager.Rules
import PackageBuild.Proofs.OptionVariables
import Mathlib.Data.List.Basic
/-!
# Shared libraries, configured and packaged

The first step of a build asks CMake for a shared library through a cache variable, and packaging
looks for shared libraries when the option `shared` is a switch that is on. The variable can be set
in other ways too, and this module says exactly when the two agree.
-/

namespace PackageBuild

namespace Invocation

/-- The argument that asks for a shared library. -/
def sharedDefinition : String := "-DBUILD_SHARED_LIBS=ON"

theorem definition_eq_shared_iff (key value : String) :
    definition (key, value) = sharedDefinition ↔ key = "BUILD_SHARED_LIBS" ∧ value = "ON" := by
  constructor
  · intro same
    have chars : "BUILD_SHARED_LIBS".toList ++ '=' :: "ON".toList =
        key.toList ++ '=' :: value.toList := by
      have := congrArg String.toList same.symm
      simpa [definition, sharedDefinition] using this
    obtain ⟨key_eq, -, value_eq⟩ :=
      (List.append_cons_inj_of_notMem (by decide) (by decide)).mp chars
    exact ⟨(String.toList_inj.mp key_eq).symm, (String.toList_inj.mp value_eq).symm⟩
  · rintro ⟨rfl, rfl⟩
    rfl

theorem cacheValue_eq_on_iff (value : OptionValue) :
    cacheValue value = "ON" ↔ value = .bool true ∨ value = .text "ON" := by
  cases value with
  | bool flag => cases flag <;> simp [cacheValue]
  | text value => simp [cacheValue]

/-- The option through which an invocation asks for a shared library, under either of its names. -/
def asksByOption (i : Invocation) (option : String) : Prop :=
  i.options.get? option = some (.bool true) ∨ i.options.get? option = some (.text "ON")

theorem shared_mem_optionVariables_iff (i : Invocation) :
    ("BUILD_SHARED_LIBS", "ON") ∈ i.optionVariables ↔
      i.asksByOption OptionValues.sharedName ∨ i.asksByOption "BUILD_SHARED_LIBS" := by
  have named (option : String) : i.asksByOption option ↔
      ∃ value, i.options.get? option = some value ∧ cacheValue value = "ON" := by
    simp only [cacheValue_eq_on_iff, asksByOption]
    constructor
    · rintro (switch | text)
      · exact ⟨_, switch, Or.inl rfl⟩
      · exact ⟨_, text, Or.inr rfl⟩
    · rintro ⟨value, found, rfl | rfl⟩
      · exact Or.inl found
      · exact Or.inr found
  have renamed : (OptionValues.sharedName, "BUILD_SHARED_LIBS") ∈ renamedOptions := by decide
  simp only [mem_optionVariables_iff, cacheKey?_eq_some_iff_of_renamed renamed, named]
  constructor
  · rintro ⟨option, value, found, rfl | rfl, on⟩
    · exact Or.inl ⟨value, found, on⟩
    · exact Or.inr ⟨value, found, on⟩
  · rintro (⟨value, found, on⟩ | ⟨value, found, on⟩)
    · exact ⟨_, value, found, Or.inl rfl, on⟩
    · exact ⟨_, value, found, Or.inr rfl, on⟩

theorem shared_mem_cacheVariables_iff (i : Invocation) :
    ("BUILD_SHARED_LIBS", "ON") ∈ i.cacheVariables ↔
      ("BUILD_SHARED_LIBS", "ON") ∈ i.optionVariables := by
  have fixed : ("BUILD_SHARED_LIBS", "ON") ∉ i.fixedVariables := by
    simp [fixedVariables, testsVariable]
  have prefixes : ("BUILD_SHARED_LIBS", "ON") ∉ i.prefixVariables := by
    unfold prefixVariables
    split <;> simp
  simp only [cacheVariables, List.mem_append, fixed, prefixes, false_or, or_false]

/-- The first step asks for a shared library through one of two options, or in the spelling of a
directory or of the generator. -/
theorem shared_mem_configureArgs_iff (i : Invocation) :
    sharedDefinition ∈ i.configureArgs ↔
      i.asksByOption OptionValues.sharedName ∨ i.asksByOption "BUILD_SHARED_LIBS" ∨
        i.dirs.sourceDir.text = sharedDefinition ∨ i.dirs.buildDir.text = sharedDefinition ∨
        i.dirs.generator = some sharedDefinition := by
  have defined : sharedDefinition ∈ i.cacheVariables.map definition ↔
      i.asksByOption OptionValues.sharedName ∨ i.asksByOption "BUILD_SHARED_LIBS" := by
    rw [← shared_mem_optionVariables_iff, ← shared_mem_cacheVariables_iff, List.mem_map]
    constructor
    · rintro ⟨⟨key, value⟩, member, same⟩
      obtain ⟨rfl, rfl⟩ := (definition_eq_shared_iff key value).mp same
      exact member
    · intro member
      exact ⟨_, member, rfl⟩
  have directories : sharedDefinition ∈ ["-S", i.dirs.sourceDir.text, "-B", i.dirs.buildDir.text] ↔
      i.dirs.sourceDir.text = sharedDefinition ∨ i.dirs.buildDir.text = sharedDefinition := by
    simp [sharedDefinition, eq_comm]
  have generators : sharedDefinition ∈ i.generatorArgs ↔
      i.dirs.generator = some sharedDefinition := by
    rw [generatorArgs]
    cases i.dirs.generator with
    | none => simp
    | some generator => simp [sharedDefinition, eq_comm]
  rw [configureArgs, List.mem_append, List.mem_append, defined, directories, generators, or_comm,
    or_assoc, or_assoc]

end Invocation

namespace OptionValues

theorem shared_eq_true_iff (values : OptionValues) :
    values.shared = true ↔ values.get? sharedName = some (.bool true) := by
  rw [shared]
  cases values.get? sharedName with
  | none => simp
  | some value => cases value <;> simp [OptionValue.asBool]

end OptionValues

namespace PreparedBuild

/-- Whether the first step is asked for a shared library by other means than a switch `shared` that
is on: by a text for that option, by an option that has the name of the variable, or by a directory
or a generator that spells the argument. -/
def AsksOtherwise (prepared : PreparedBuild) : Prop :=
  prepared.evaluation.values.get? OptionValues.sharedName = some (.text "ON") ∨
    prepared.invocation.asksByOption "BUILD_SHARED_LIBS" ∨
    prepared.invocation.dirs.sourceDir.text = Invocation.sharedDefinition ∨
    prepared.invocation.dirs.buildDir.text = Invocation.sharedDefinition ∨
    prepared.invocation.dirs.generator = some Invocation.sharedDefinition

theorem shared_mem_configureArgs_iff_shared {recipe : Recipe} {opts : BuildOptions}
    {signals : Signals} {resolver : VersionResolver} {prepared : PreparedBuild}
    (ready : recipe.prepare opts signals resolver = .ok prepared) :
    Invocation.sharedDefinition ∈ prepared.invocation.configureArgs ↔
      prepared.evaluation.values.shared = true ∨ prepared.AsksOtherwise := by
  rw [Invocation.shared_mem_configureArgs_iff, OptionValues.shared_eq_true_iff, AsksOtherwise,
    Invocation.asksByOption, Recipe.options_of_prepare ready, or_assoc]

/-- Packaging takes libraries by the shared patterns of a recipe besides the common ones exactly if
the option `shared` is a switch that is on, and this agrees with the request for a shared library
among the arguments of the first step exactly if that request is not made by other means alone. -/
theorem shared_agreement_iff {recipe : Recipe} {opts : BuildOptions} {signals : Signals}
    {resolver : VersionResolver} {prepared : PreparedBuild}
    (ready : recipe.prepare opts signals resolver = .ok prepared) :
    (∀ policy packager, prepared.packager recipe policy = .ok packager →
      ∃ headers libraries, packager.rules = [headers, libraries] ∧
        ∀ name, libraries.selects name = true ↔ Glob.Matches recipe.layout.libraryPatterns name ∨
          prepared.evaluation.values.shared = true ∧
            Glob.Matches recipe.layout.sharedLibraryPatterns name) ∧
    ((prepared.evaluation.values.shared = true ↔
        Invocation.sharedDefinition ∈ prepared.invocation.configureArgs) ↔
      (prepared.AsksOtherwise → prepared.evaluation.values.shared = true)) := by
  constructor
  · intro policy packager made
    obtain ⟨headers, libraries, -, compiled, rfl⟩ := Packager.ofRecipe_eq_ok made
    refine ⟨_, _, rfl, fun name => ?_⟩
    rw [CopyRule.selects_iff compiled, Packager.matches_libraryPatterns]
  · rw [shared_mem_configureArgs_iff_shared ready, iff_self_or]

/-- A build with `shared` switched on is configured and packaged as shared. -/
theorem shared_agreement_switched_on :
    ∃ recipe prepared,
      Recipe.FromSmall "shared = \x7b values = [true, false], default = true \x7d" recipe ∧
      recipe.prepare Recipe.plainOptions {} {} = .ok prepared ∧
      prepared.evaluation.values.shared = true ∧
      Invocation.sharedDefinition ∈ prepared.invocation.configureArgs := by
  obtain ⟨recipe, prepared, read, ready, on⟩ := Recipe.exists_of_prepareSmall?
    "shared = \x7b values = [true, false], default = true \x7d" Recipe.plainOptions
    (fun _ prepared => prepared.evaluation.values.shared) (by decide +kernel)
  exact ⟨recipe, prepared, read, ready, on,
    ((shared_agreement_iff ready).2.mpr fun _ => on).mp on⟩

/-- A recipe whose option `shared` is the text `ON` is configured as shared and packaged as
static. -/
theorem shared_text_disagrees :
    ∃ recipe prepared,
      Recipe.FromSmall "shared = \x7b values = [\"ON\", \"OFF\"], default = \"ON\" \x7d" recipe ∧
      recipe.prepare Recipe.plainOptions {} {} = .ok prepared ∧
      ¬ (prepared.evaluation.values.shared = true ↔
        Invocation.sharedDefinition ∈ prepared.invocation.configureArgs) := by
  obtain ⟨recipe, prepared, read, ready, differ⟩ := Recipe.exists_of_prepareSmall?
    "shared = \x7b values = [\"ON\", \"OFF\"], default = \"ON\" \x7d" Recipe.plainOptions
    (fun _ prepared => decide (¬ (prepared.evaluation.values.shared = true ↔
      Invocation.sharedDefinition ∈ prepared.invocation.configureArgs))) (by decide +kernel)
  exact ⟨recipe, prepared, read, ready, of_decide_eq_true differ⟩

end PreparedBuild
end PackageBuild
