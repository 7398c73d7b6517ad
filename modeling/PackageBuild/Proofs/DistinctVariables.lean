import Mathlib.Data.List.Pairwise
import PackageBuild.Proofs.CacheReading
import PackageBuild.Proofs.OptionInfluence
/-!
# Variables that are defined twice

The first step defines two fixed variables, one for each option, and one for the installed
dependencies. Options have different names, but they may be named for a variable that is defined
anyway, and two of them are passed under other names than their own. This module says exactly when a
variable is defined twice, and that otherwise each has the one value that is meant for it.
-/

namespace PackageBuild

namespace CacheReading

/-- Whether nothing in a name ends it early. -/
def Plain (name : String) : Prop := ∀ c ∈ name.toList, endsName c = false

-- Goes through the characters of the name, and not through all characters there are.
instance (name : String) : Decidable (Plain name) := List.decidableBAll _ name.toList

theorem Plain.nameRead_eq {name : String} (plain : Plain name) : nameRead name = name :=
  (nameRead_eq_iff plain name).mpr (Or.inl rfl)

theorem Plain.valueRead_eq {name : String} (plain : Plain name) (value : String) :
    valueRead name value = value := by
  have no_sign : name.toList.dropWhile (· != '=') = [] := by
    rw [List.dropWhile_eq_nil_iff]
    intro c member
    have passes := plain c member
    rw [endsName, Bool.or_eq_false_iff] at passes
    rw [bne, passes.2, Bool.not_false]
  rw [valueRead, no_sign]

end CacheReading

namespace Invocation

variable {i : Invocation} {schema : OptionSchema} {option other key value : String}

/-- The keys in the order in which the variables are passed. -/
def keys (i : Invocation) : List String := i.cacheVariables.map Prod.fst

/-! ## Keys of variables -/

theorem mem_names_iff (covers : schema.Covers i.options) :
    option ∈ i.options.toList.map Prod.fst ↔ (schema.get? option).isSome = true := by
  rw [← covers, Option.isSome_iff_exists, List.mem_map]
  constructor
  · rintro ⟨⟨name, value⟩, member, rfl⟩
    exact ⟨value, OptionValues.mem_toList_iff.mp member⟩
  · rintro ⟨value, has⟩
    exact ⟨(option, value), OptionValues.mem_toList_iff.mpr has, rfl⟩

theorem mem_keys_optionVariables_iff (covers : schema.Covers i.options) :
    key ∈ i.optionVariables.map Prod.fst ↔
      ∃ option, (schema.get? option).isSome = true ∧ cacheKey? option = some key := by
  simp only [keys_optionVariables, List.mem_filterMap, mem_names_iff covers]

theorem mem_keys_optionVariables_iff_of_plain (covers : schema.Covers i.options)
    (plain : key ∉ renamedOptions.map Prod.snd) (passed : cacheKey? key = some key) :
    key ∈ i.optionVariables.map Prod.fst ↔ (schema.get? key).isSome = true := by
  simp only [mem_keys_optionVariables_iff covers, cacheKey?_eq_some_iff_of_plain plain passed,
    exists_eq_right]

theorem nodup_keys_optionVariables_iff (covers : schema.Covers i.options) :
    (i.optionVariables.map Prod.fst).Nodup ↔ ∀ option key, (option, key) ∈ renamedOptions →
      (schema.get? option).isSome = true → ¬(schema.get? key).isSome = true := by
  have names : (i.options.toList.map Prod.fst).Nodup :=
    OptionValues.nodup_of_ordered i.options.ordered_names
  have symmetric : Std.Symm fun a b => ∀ k, cacheKey? a = some k → ∀ k', cacheKey? b = some k' →
      k ≠ k' := ⟨fun a b apart k keyed k' keyed' => (apart k' keyed' k keyed).symm⟩
  rw [keys_optionVariables, List.Nodup, List.pairwise_filterMap]
  constructor
  · intro apart option key renamed declared again
    obtain ⟨different, keyed, keyed'⟩ := cacheKey?_of_renamed renamed
    exact apart.forall ((mem_names_iff covers).mpr declared) ((mem_names_iff covers).mpr again)
      different key keyed key keyed' rfl
  · intro alone
    refine names.pairwise_of_forall_ne fun a member b member' different k keyed k' keyed' => ?_
    rintro rfl
    rw [mem_names_iff covers] at member member'
    rcases renamed_of_same_key different keyed keyed' with ⟨renamed, rfl⟩ | ⟨renamed, rfl⟩
    · exact alone _ _ renamed member member'
    · exact alone _ _ renamed member' member

/-- Why a variable is defined twice: the schema has an option for the build type, for the variable
of a renamed option besides that option itself, or for the installed dependencies when there are
some. -/
inductive Clash (schema : OptionSchema) (prefixPath : List Path) : String → Prop where
  | buildType (declared : (schema.get? "CMAKE_BUILD_TYPE").isSome = true) :
      Clash schema prefixPath "CMAKE_BUILD_TYPE"
  | renamed {option key : String} (passed : (option, key) ∈ renamedOptions)
      (declared : (schema.get? option).isSome = true)
      (again : (schema.get? key).isSome = true) : Clash schema prefixPath key
  | prefixes (installed : prefixPath ≠ [])
      (declared : (schema.get? "CMAKE_PREFIX_PATH").isSome = true) :
      Clash schema prefixPath "CMAKE_PREFIX_PATH"

theorem not_tests_mem_keys (covers : schema.Covers i.options) :
    testsVariable ∉ i.optionVariables.map Prod.fst := by
  have not_renamed : testsVariable ∉ renamedOptions.map Prod.snd := by decide
  rw [mem_keys_optionVariables_iff covers]
  rintro ⟨option, -, keyed⟩
  rcases cacheKey?_eq_some_iff.mp keyed with renamed | ⟨⟨-, other⟩, named⟩
  · exact not_renamed (List.mem_map_of_mem (f := Prod.snd) renamed)
  · exact other named

/-- The keys of all variables differ exactly if those of the options do, and are none of the fixed
ones. -/
theorem nodup_keys_iff_of_options (covers : schema.Covers i.options) :
    i.keys.Nodup ↔ (i.optionVariables.map Prod.fst).Nodup ∧
      "CMAKE_BUILD_TYPE" ∉ i.optionVariables.map Prod.fst ∧
      (i.dirs.prefixPath ≠ [] → "CMAKE_PREFIX_PATH" ∉ i.optionVariables.map Prod.fst) := by
  have tests := not_tests_mem_keys covers
  have keys_eq : i.keys = testsVariable :: "CMAKE_BUILD_TYPE" ::
      (i.optionVariables.map Prod.fst ++ i.prefixVariables.map Prod.fst) := by
    simp [keys, cacheVariables, fixedVariables]
  rw [keys_eq]
  generalize i.optionVariables.map Prod.fst = options at tests ⊢
  have fixed : testsVariable ≠ "CMAKE_BUILD_TYPE" ∧ testsVariable ≠ "CMAKE_PREFIX_PATH" ∧
      "CMAKE_BUILD_TYPE" ≠ "CMAKE_PREFIX_PATH" := by
    decide
  cases installed : i.dirs.prefixPath with
  | nil =>
      have none_installed : i.prefixVariables = [] := by simp [prefixVariables, installed]
      simp [none_installed, tests, fixed.1, and_comm]
  | cons path paths =>
      have one_installed : i.prefixVariables.map Prod.fst = ["CMAKE_PREFIX_PATH"] := by
        simp [prefixVariables, installed]
      rw [one_installed, List.nodup_cons, List.nodup_cons, List.nodup_append_comm]
      simp [tests, fixed, and_comm, and_left_comm]

/-- The keys of all variables differ unless one of them clashes. -/
theorem nodup_keys_iff (covers : schema.Covers i.options) :
    i.keys.Nodup ↔ ∀ key, ¬Clash schema i.dirs.prefixPath key := by
  rw [nodup_keys_iff_of_options covers, nodup_keys_optionVariables_iff covers,
    mem_keys_optionVariables_iff_of_plain covers (by decide) (by decide),
    mem_keys_optionVariables_iff_of_plain covers (by decide) (by decide)]
  constructor
  · rintro ⟨renamed, build_type, prefixes⟩ key
      (declared | ⟨passed, declared, again⟩ | ⟨installed, declared⟩)
    · exact build_type declared
    · exact renamed _ _ passed declared again
    · exact prefixes installed declared
  · intro free
    exact ⟨fun option key passed declared again => free _ (.renamed passed declared again),
      fun declared => free _ (.buildType declared),
      fun installed declared => free _ (.prefixes installed declared)⟩

/-! ## Values of variables -/

/-- The value that is meant for each variable. -/
inductive Meant (settings : Settings) (values : OptionValues) (prefixPath : List Path) :
    String → String → Prop where
  | tests : Meant settings values prefixPath testsVariable "Off"
  | buildType : Meant settings values prefixPath "CMAKE_BUILD_TYPE" settings.buildType.display
  | option {option key : String} {value : OptionValue} (has : values.get? option = some value)
      (passed : cacheKey? option = some key) :
      Meant settings values prefixPath key (cacheValue value)
  | prefixes (installed : prefixPath ≠ []) :
      Meant settings values prefixPath "CMAKE_PREFIX_PATH"
        (Text.join ";" (prefixPath.map Path.text))

theorem mem_cacheVariables_of_meant
    (meant : Meant i.descriptor.settings i.options i.dirs.prefixPath key value) :
    (key, value) ∈ i.cacheVariables := by
  rw [cacheVariables, List.mem_append, List.mem_append]
  cases meant with
  | tests => exact Or.inl (Or.inl (by simp [fixedVariables]))
  | buildType => exact Or.inl (Or.inl (by simp [fixedVariables, buildTypeName]))
  | option has passed =>
      exact Or.inl (Or.inr ((mem_optionVariables_iff i).mpr ⟨_, _, has, passed, rfl⟩))
  | prefixes installed => exact Or.inr (by simp [prefixVariables, installed])

/-- A variable whose key is no other's is defined by one value only. -/
theorem mem_cacheVariables_iff (nodup : i.keys.Nodup) (defined : (key, value) ∈ i.cacheVariables)
    (value' : String) : (key, value') ∈ i.cacheVariables ↔ value' = value := by
  constructor
  · intro defined'
    exact congrArg Prod.snd (List.inj_on_of_nodup_map nodup defined' defined rfl)
  · rintro rfl
    exact defined

theorem plain_of_mem_keys (covers : schema.Covers i.options)
    (plain : ∀ option, (schema.get? option).isSome = true → CacheReading.Plain option) :
    ∀ key ∈ i.keys, CacheReading.Plain key := by
  have fixed : ∀ key ∈ testsVariable :: "CMAKE_BUILD_TYPE" :: "CMAKE_PREFIX_PATH" ::
      renamedOptions.map Prod.snd, CacheReading.Plain key := by decide
  intro key member
  rw [keys, cacheVariables, List.map_append, List.map_append, List.mem_append,
    List.mem_append] at member
  rcases member with (in_fixed | in_options) | in_prefixes
  · refine fixed key ?_
    rcases List.mem_cons.mp in_fixed with rfl | in_fixed
    · simp
    · simp [List.mem_singleton.mp in_fixed]
  · obtain ⟨option, declared, keyed⟩ := (mem_keys_optionVariables_iff covers).mp in_options
    rcases cacheKey?_eq_some_iff.mp keyed with renamed | ⟨-, rfl⟩
    · have target := List.mem_map_of_mem (f := Prod.snd) renamed
      exact fixed key (by simp only [List.mem_cons, target, or_true])
    · exact plain option declared
  · refine fixed key ?_
    rw [prefixVariables] at in_prefixes
    split at in_prefixes
    · cases in_prefixes
    · simp [List.mem_singleton.mp in_prefixes]

theorem valuesOf_eq_singleton (nodup : i.keys.Nodup)
    (plain : ∀ key ∈ i.keys, CacheReading.Plain key)
    (defined : (key, value) ∈ i.cacheVariables) :
    CacheReading.valuesOf key (i.cacheVariables.map definition) = [value] := by
  have read : ∀ setting ∈ i.cacheVariables, CacheReading.nameRead setting.1 = setting.1 :=
    fun setting member => (plain _ (List.mem_map_of_mem member)).nameRead_eq
  have own : CacheReading.valueRead key value = value :=
    (plain _ (List.mem_map_of_mem (f := Prod.fst) defined)).valueRead_eq value
  have once : (i.cacheVariables.filter fun setting =>
      CacheReading.nameRead setting.1 == key).Perm [(key, value)] := by
    refine (List.perm_ext_iff_of_nodup ((List.Nodup.of_map Prod.fst nodup).filter _)
      (List.nodup_singleton _)).mpr fun setting => ?_
    rw [List.mem_filter, List.mem_singleton, beq_iff_eq]
    constructor
    · rintro ⟨member, named⟩
      rw [read setting member] at named
      exact List.inj_on_of_nodup_map nodup member defined named
    · rintro rfl
      exact ⟨defined, read _ defined⟩
  rw [CacheReading.valuesOf_definitions, List.perm_singleton.mp once, List.map_singleton, own]

end Invocation

namespace PreparedBuild

variable {recipe : Recipe} {opts : BuildOptions} {signals : Signals} {resolver : VersionResolver}
  {prepared : PreparedBuild}

open Invocation in
/-- The keys of the cache variables differ unless a recipe declares an option that clashes with
another variable. If they do then the value that is meant for a variable is the only one with its
key, and if moreover no option has a name that is read as a shorter one then CMake reads one
definition of each variable. -/
theorem distinct_keys_iff (ready : recipe.prepare opts signals resolver = .ok prepared) :
    (prepared.invocation.keys.Nodup ↔
      ∀ key, ¬Clash prepared.evaluation.options opts.prefixPath key) ∧
    (prepared.invocation.keys.Nodup → ∀ key value,
      Meant opts.settings prepared.evaluation.values opts.prefixPath key value →
      (∀ other, (key, other) ∈ prepared.invocation.cacheVariables ↔ other = value) ∧
      ((∀ option, (prepared.evaluation.options.get? option).isSome = true →
          CacheReading.Plain option) →
        CacheReading.valuesOf key (prepared.invocation.cacheVariables.map definition) =
          [value])) := by
  obtain ⟨evaluated, made, -⟩ := Recipe.prepare_eq_ok ready
  obtain ⟨descriptor, options, dirs, -⟩ := ofSignals_eq_ok made
  have covers : prepared.evaluation.options.Covers prepared.invocation.options := by
    rw [options, (Recipe.evaluate_eq_ok evaluated).1]
    exact Recipe.covers_of_evaluate evaluated
  have prefixPath : prepared.invocation.dirs.prefixPath = opts.prefixPath := by rw [dirs]; rfl
  have settings : prepared.invocation.descriptor.settings = opts.settings := by
    rw [descriptor, (Recipe.evaluate_eq_ok_iff.mp evaluated).2.2]
    rfl
  refine ⟨prefixPath ▸ nodup_keys_iff covers, fun nodup key value meant => ?_⟩
  rw [← settings, ← prefixPath, ← options] at meant
  have defined := mem_cacheVariables_of_meant meant
  exact ⟨mem_cacheVariables_iff nodup defined,
    fun plain => valuesOf_eq_singleton nodup (plain_of_mem_keys covers plain) defined⟩

/-- The variables for a recipe with one option are defined once each, also when there are installed
dependencies. -/
theorem small_keys_distinct :
    ∃ recipe prepared,
      Recipe.FromSmall "shared = \x7b values = [true, false], default = true \x7d" recipe ∧
      recipe.prepare { Recipe.plainOptions with prefixPath := [⟨"/deps/gmp"⟩] } {} {} =
        .ok prepared ∧
      prepared.invocation.keys.Nodup ∧
      CacheReading.valuesOf "CMAKE_PREFIX_PATH"
        (prepared.invocation.cacheVariables.map Invocation.definition) = ["/deps/gmp"] := by
  obtain ⟨recipe, prepared, read, ready, names⟩ := Recipe.exists_of_prepareSmall?
    "shared = \x7b values = [true, false], default = true \x7d"
    { Recipe.plainOptions with prefixPath := [⟨"/deps/gmp"⟩] }
    (fun _ prepared => decide (prepared.evaluation.options.names = ["shared"])) (by decide +kernel)
  have only : ∀ option, (prepared.evaluation.options.get? option).isSome = true →
      option = "shared" := by
    intro option declared
    rw [← List.mem_singleton, ← of_decide_eq_true names, OptionSchema.names,
      Std.ExtTreeMap.mem_keys, Std.ExtTreeMap.mem_iff_isSome_getElem?]
    exact declared
  obtain ⟨distinct, meant⟩ := distinct_keys_iff ready
  have nodup : prepared.invocation.keys.Nodup := by
    refine distinct.mpr ?_
    rintro key (declared | ⟨passed, declared, again⟩ | ⟨-, declared⟩)
    · exact absurd (only _ declared) (by decide)
    · obtain rfl := only _ again
      have target : "shared" ∈ Invocation.renamedOptions.map Prod.snd :=
        List.mem_map_of_mem (f := Prod.snd) passed
      exact absurd target (by decide)
    · exact absurd (only _ declared) (by decide)
  refine ⟨recipe, prepared, read, ready, nodup,
    (meant nodup _ _ (.prefixes (by simp))).2 fun option declared => ?_⟩
  rw [only option declared]
  decide

/-- An option named for the build type is passed besides the build type of the settings, and takes
its place. -/
theorem small_build_type_twice :
    ∃ recipe prepared,
      Recipe.FromSmall
        "CMAKE_BUILD_TYPE = \x7b values = [\"Debug\", \"Release\"], default = \"Debug\" \x7d"
        recipe ∧
      recipe.prepare Recipe.plainOptions {} {} = .ok prepared ∧
      ¬prepared.invocation.keys.Nodup ∧
      Recipe.plainOptions.settings.buildType.display = "Release" ∧
      CacheReading.valueOf? "CMAKE_BUILD_TYPE" prepared.invocation.configureArgs =
        some "Debug" := by
  obtain ⟨recipe, prepared, read, ready, twice⟩ := Recipe.exists_of_prepareSmall?
    "CMAKE_BUILD_TYPE = \x7b values = [\"Debug\", \"Release\"], default = \"Debug\" \x7d"
    Recipe.plainOptions
    (fun _ prepared => decide (¬prepared.invocation.keys.Nodup ∧ CacheReading.valueOf?
      "CMAKE_BUILD_TYPE" prepared.invocation.configureArgs = some "Debug")) (by decide +kernel)
  obtain ⟨repeated, debug⟩ := of_decide_eq_true twice
  exact ⟨recipe, prepared, read, ready, repeated, rfl, debug⟩

end PreparedBuild
end PackageBuild
