import PackageBuild.Proofs.Preparation
/-!
# Options as cache variables

The value of each option is passed as a cache variable, in the order of the options' names. The
variable has the name of its option, except that two options are passed under other names and that
the option named for the tests' variable is not passed.
-/

namespace PackageBuild

namespace OptionValues

variable {values : OptionValues} {name : String} {value : OptionValue}

theorem mem_toList_iff : (name, value) ∈ values.toList ↔ values.get? name = some value :=
  Std.ExtTreeMap.mem_toList_iff_getElem?_eq_some

theorem ordered_names (values : OptionValues) :
    (values.toList.map Prod.fst).Pairwise fun a b => compare a b = .lt :=
  List.pairwise_map.mpr Std.ExtTreeMap.ordered_keys_toList

theorem nodup_of_ordered {names : List String}
    (ordered : names.Pairwise fun a b => compare a b = .lt) : names.Nodup := by
  refine ordered.imp fun {a b} before => ?_
  rintro rfl
  simp [Std.ReflOrd.compare_self] at before

end OptionValues

namespace Invocation

variable {option other key value : String}

/-- The options that are passed under other names than their own. -/
def renamedOptions : List (String × String) :=
  [(OptionValues.sharedName, "BUILD_SHARED_LIBS"),
    (OptionSchema.fpicName, "CMAKE_POSITION_INDEPENDENT_CODE")]

theorem cacheKey?_eq_some_iff : cacheKey? option = some key ↔
    (option, key) ∈ renamedOptions ∨
      (option ∉ renamedOptions.map Prod.fst ∧ option ≠ testsVariable) ∧ option = key := by
  unfold cacheKey?
  split
  · rename_i shared
    subst shared
    simp [renamedOptions, OptionValues.sharedName, OptionSchema.fpicName, eq_comm]
  · split
    · rename_i fpic
      subst fpic
      simp [renamedOptions, OptionValues.sharedName, OptionSchema.fpicName, eq_comm]
    · split <;> simp_all [renamedOptions]

theorem cacheKey?_eq_none_iff : cacheKey? option = none ↔ option = testsVariable := by
  unfold cacheKey?
  split
  · rename_i shared
    subst shared
    decide
  · split
    · rename_i fpic
      subst fpic
      decide
    · simp

theorem cacheKey?_of_renamed (renamed : (option, key) ∈ renamedOptions) :
    option ≠ key ∧ cacheKey? option = some key ∧ cacheKey? key = some key := by
  have checked : ∀ pair ∈ renamedOptions, pair.1 ≠ pair.2 ∧ cacheKey? pair.1 = some pair.2 ∧
      cacheKey? pair.2 = some pair.2 := by decide
  exact checked _ renamed

theorem renamed_injective (renamed : (option, key) ∈ renamedOptions)
    (renamed' : (other, key) ∈ renamedOptions) : option = other := by
  have checked : ∀ pair ∈ renamedOptions, ∀ pair' ∈ renamedOptions, pair.2 = pair'.2 →
      pair.1 = pair'.1 := by decide
  exact checked _ renamed _ renamed' rfl

theorem renamed_of_same_key (different : option ≠ other) (keyed : cacheKey? option = some key)
    (keyed' : cacheKey? other = some key) :
    (option, key) ∈ renamedOptions ∧ other = key ∨
      (other, key) ∈ renamedOptions ∧ option = key := by
  rcases cacheKey?_eq_some_iff.mp keyed with renamed | ⟨-, rfl⟩
  · rcases cacheKey?_eq_some_iff.mp keyed' with renamed' | ⟨-, named⟩
    · exact absurd (renamed_injective renamed renamed') different
    · exact Or.inl ⟨renamed, named⟩
  · rcases cacheKey?_eq_some_iff.mp keyed' with renamed' | ⟨-, named⟩
    · exact Or.inr ⟨renamed', rfl⟩
    · exact absurd named.symm different

/-- The options passed under the key of a renamed option are that one and the one named for it. -/
theorem cacheKey?_eq_some_iff_of_renamed (renamed : (other, key) ∈ renamedOptions) :
    cacheKey? option = some key ↔ option = other ∨ option = key := by
  obtain ⟨-, keyed, keyed'⟩ := cacheKey?_of_renamed renamed
  constructor
  · intro passed
    rcases cacheKey?_eq_some_iff.mp passed with renamed' | ⟨-, named⟩
    · exact Or.inl (renamed_injective renamed' renamed)
    · exact Or.inr named
  · rintro (rfl | rfl)
    · exact keyed
    · exact keyed'

theorem cacheKey?_eq_some_iff_of_plain (plain : key ∉ renamedOptions.map Prod.snd)
    (passed : cacheKey? key = some key) : cacheKey? option = some key ↔ option = key := by
  constructor
  · intro keyed
    rcases cacheKey?_eq_some_iff.mp keyed with renamed | ⟨-, named⟩
    · exact absurd (List.mem_map_of_mem (f := Prod.snd) renamed) plain
    · exact named
  · rintro rfl
    exact passed

theorem mem_optionVariables_iff (i : Invocation) : (key, value) ∈ i.optionVariables ↔
    ∃ option chosen, i.options.get? option = some chosen ∧ cacheKey? option = some key ∧
      cacheValue chosen = value := by
  simp only [optionVariables, List.mem_filterMap, Option.map_eq_some_iff, Prod.mk.injEq,
    Prod.exists, OptionValues.mem_toList_iff]
  constructor
  · rintro ⟨option, chosen, has, _, keyed, rfl, carried⟩
    exact ⟨option, chosen, has, keyed, carried⟩
  · rintro ⟨option, chosen, has, keyed, carried⟩
    exact ⟨option, chosen, has, key, keyed, rfl, carried⟩

theorem keys_optionVariables (i : Invocation) :
    i.optionVariables.map Prod.fst = (i.options.toList.map Prod.fst).filterMap cacheKey? := by
  rw [optionVariables, List.map_filterMap, List.filterMap_map]
  congr 1
  funext entry
  simp [Function.comp_def]

end Invocation
end PackageBuild
