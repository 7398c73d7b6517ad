import Mathlib.Data.List.Nodup
import PackageBuild.Proofs.OptionResolution
import PackageBuild.Proofs.OptionVariables
/-!
# What the value of one option changes

Two builds of a recipe that differ in the value of one option are configured by arguments that
differ in one place, the definition of that option's variable, and are built by the same arguments.
The option that has the name of the tests' variable changes nothing.
-/

namespace PackageBuild

namespace OptionValue

/-- Whether two values are both switches or both texts. -/
inductive SameKind : OptionValue → OptionValue → Prop where
  | bools (value other : Bool) : SameKind (.bool value) (.bool other)
  | texts (value other : String) : SameKind (.text value) (.text other)

theorem SameKind.eq_of_cacheValue_eq {value other : OptionValue} (kind : SameKind value other)
    (same : Invocation.cacheValue value = Invocation.cacheValue other) : value = other := by
  cases kind with
  | bools value other => cases value <;> cases other <;> simp_all [Invocation.cacheValue]
  | texts value other => exact congrArg OptionValue.text same

end OptionValue

namespace OptionValues

variable {values others : OptionValues} {name : String} {value other : OptionValue}

theorem eq_toList_of_ordered {entries : List (String × OptionValue)}
    (ordered : (entries.map Prod.fst).Pairwise fun a b => compare a b = .lt)
    (listed : ∀ name value, (name, value) ∈ entries ↔ values.get? name = some value) :
    entries = values.toList := by
  have ordered' := values.ordered_names
  have perm : entries.Perm values.toList := by
    refine (List.perm_ext_iff_of_nodup (.of_map Prod.fst (nodup_of_ordered ordered))
      (.of_map Prod.fst (nodup_of_ordered ordered'))).mpr ?_
    rintro ⟨name, value⟩
    rw [listed, mem_toList_iff]
  refine perm.eq_of_pairwise (fun a b _ _ before after => ?_) (List.pairwise_map.mp ordered)
    (List.pairwise_map.mp ordered')
  exact absurd before (Std.OrientedCmp.not_lt_of_lt after)

/-- Values that differ for one name have the same entries but for that one, which stands in the same
place. -/
theorem exists_toList_split (has : values.get? name = some value)
    (has' : others.get? name = some other)
    (alike : ∀ option, option ≠ name → others.get? option = values.get? option) :
    ∃ front back, values.toList = front ++ (name, value) :: back ∧
      others.toList = front ++ (name, other) :: back := by
  obtain ⟨front, back, split⟩ := List.append_of_mem (mem_toList_iff.mpr has)
  have ordered := values.ordered_names
  rw [split, List.map_append, List.map_cons] at ordered
  have fresh : name ∉ front.map Prod.fst ++ back.map Prod.fst :=
    (List.nodup_middle.mp (nodup_of_ordered ordered)).notMem
  -- The order of the names is that of the first values, so it is enough to compare what is listed.
  refine ⟨front, back, split, (eq_toList_of_ordered ?_ fun option found => ?_).symm⟩
  · rwa [List.map_append, List.map_cons]
  · by_cases named : option = name
    · subst named
      have absent (entry : OptionValue) : (option, entry) ∉ front ∧ (option, entry) ∉ back := by
        rw [← not_or, ← List.mem_append]
        intro member
        rw [← List.map_append] at fresh
        exact fresh (List.mem_map_of_mem (f := Prod.fst) member)
      simp [absent, has', eq_comm]
    · have kept : (option, found) ∈ front ++ (name, other) :: back ↔
          (option, found) ∈ front ++ (name, value) :: back := by
        simp [named]
      rw [kept, ← split, mem_toList_iff, alike option named]

end OptionValues

/-- Whether two lists of arguments differ at most at one position. -/
def AgreeBut (position : Nat) (args others : List String) : Prop :=
  others.length = args.length ∧ ∀ place, place ≠ position → others[place]? = args[place]?

theorem agreeBut_append_cons (front back : List String) (arg other : String) :
    AgreeBut front.length (front ++ arg :: back) (front ++ other :: back) := by
  refine ⟨by simp, fun place elsewhere => ?_⟩
  rcases Nat.lt_or_gt_of_ne elsewhere with before | behind
  · rw [List.getElem?_append_left before, List.getElem?_append_left before]
  · have beyond : front.length ≤ place := Nat.le_of_lt behind
    obtain ⟨more, distance⟩ := Nat.exists_eq_add_of_lt behind
    rw [List.getElem?_append_right beyond, List.getElem?_append_right beyond,
      show place - front.length = more + 1 by omega, List.getElem?_cons_succ,
      List.getElem?_cons_succ]

namespace Invocation

variable {i : Invocation} {values values' : OptionValues} {name key : String}
  {value value' : OptionValue}

theorem definition_inj {text text' : String}
    (same : definition (key, text) = definition (key, text')) : text = text' := by
  simp only [definition, ← String.toList_inj, String.toList_append,
    List.append_cancel_left_eq] at same
  exact String.toList_inj.mp same

/-- The cache variables that carry some entries. -/
def carriers (entries : List (String × OptionValue)) : List (String × String) :=
  entries.filterMap fun (option, value) =>
    (cacheKey? option).map fun key => (key, cacheValue value)

/-- The argument that passes the value of an option, if any does. -/
def optionArgs (option : String) (value : OptionValue) : List String :=
  ((cacheKey? option).map fun key => definition (key, cacheValue value)).toList

theorem map_definition_carriers (front back : List (String × OptionValue)) (name : String)
    (value : OptionValue) : (carriers (front ++ (name, value) :: back)).map definition =
      (carriers front).map definition ++ optionArgs name value ++
        (carriers back).map definition := by
  cases keyed : cacheKey? name <;> simp [carriers, optionArgs, keyed]

theorem exists_configureArgs_eq (i : Invocation) : ∃ front back, ∀ values,
    { i with options := values }.configureArgs =
      front ++ (carriers values.toList).map definition ++ back := by
  refine ⟨["-S", i.dirs.sourceDir.text, "-B", i.dirs.buildDir.text] ++ i.generatorArgs ++
    i.fixedVariables.map definition, i.prefixVariables.map definition, fun values => ?_⟩
  simp only [configureArgs, cacheVariables, List.map_append, List.append_assoc]
  rfl

/-- Values that differ for one option are passed by arguments that differ for this option. -/
theorem exists_configureArgs_split (i : Invocation) (has : values.get? name = some value)
    (has' : values'.get? name = some value')
    (alike : ∀ option, option ≠ name → values'.get? option = values.get? option) :
    ∃ front back,
      { i with options := values }.configureArgs = front ++ optionArgs name value ++ back ∧
      { i with options := values' }.configureArgs = front ++ optionArgs name value' ++ back := by
  obtain ⟨before, behind, split, split'⟩ := OptionValues.exists_toList_split has has' alike
  obtain ⟨front, back, args⟩ := i.exists_configureArgs_eq
  have passed {values : OptionValues} {value : OptionValue}
      (split : values.toList = before ++ (name, value) :: behind) :
      { i with options := values }.configureArgs = front ++ (carriers before).map definition ++
        optionArgs name value ++ ((carriers behind).map definition ++ back) := by
    rw [args, split, map_definition_carriers]
    simp only [List.append_assoc]
  exact ⟨_, _, passed split, passed split'⟩

theorem configureArgs_eq_of_keyless (i : Invocation) (keyless : cacheKey? name = none)
    (has : values.get? name = some value) (has' : values'.get? name = some value')
    (alike : ∀ option, option ≠ name → values'.get? option = values.get? option) :
    { i with options := values' }.configureArgs = { i with options := values }.configureArgs := by
  obtain ⟨front, back, args, args'⟩ := i.exists_configureArgs_split has has' alike
  rw [args, args', optionArgs, optionArgs, keyless]
  rfl

/-- An option that is passed has influence on one argument, the one that defines its variable. -/
theorem exists_position (i : Invocation) (keyed : cacheKey? name = some key)
    (has : values.get? name = some value) (has' : values'.get? name = some value')
    (alike : ∀ option, option ≠ name → values'.get? option = values.get? option) :
    ∃ position,
      AgreeBut position { i with options := values }.configureArgs
        { i with options := values' }.configureArgs ∧
      { i with options := values }.configureArgs[position]? =
        some (definition (key, cacheValue value)) ∧
      { i with options := values' }.configureArgs[position]? =
        some (definition (key, cacheValue value')) := by
  obtain ⟨front, back, args, args'⟩ := i.exists_configureArgs_split has has' alike
  have own (value : OptionValue) :
      optionArgs name value = [definition (key, cacheValue value)] := by
    rw [optionArgs, keyed]
    rfl
  rw [own, List.append_assoc, List.singleton_append] at args args'
  rw [args, args']
  exact ⟨front.length, agreeBut_append_cons front back _ _, by simp, by simp⟩

end Invocation

namespace Recipe

variable {recipe : Recipe} {opts : BuildOptions} {signals : Signals} {resolver : VersionResolver}
  {settings : Settings} {overrides others : List OptionOverride}
  {evaluation evaluation' : Evaluation} {prepared prepared' : PreparedBuild}

theorem descriptor_eq_of_evaluate
    (evaluated : recipe.evaluate settings signals resolver overrides = .ok evaluation)
    (evaluated' : recipe.evaluate settings signals resolver others = .ok evaluation') :
    evaluation'.descriptor = evaluation.descriptor := by
  obtain ⟨chosen, -, whole⟩ := evaluate_eq_ok_iff.mp evaluated
  obtain ⟨chosen', -, whole'⟩ := evaluate_eq_ok_iff.mp evaluated'
  rw [whole, whole', Except.ok.inj (chosen'.symm.trans chosen)]

theorem invocation_eq_of_prepare (ready : recipe.prepare opts signals resolver = .ok prepared)
    (ready' : recipe.prepare { opts with overrides := others } signals resolver = .ok prepared') :
    prepared'.invocation =
      { prepared.invocation with options := prepared'.evaluation.values } := by
  obtain ⟨evaluated, made, -⟩ := prepare_eq_ok ready
  obtain ⟨evaluated', made', -⟩ := prepare_eq_ok ready'
  obtain ⟨descriptor, -, dirs, counted⟩ := Invocation.ofSignals_eq_ok made
  obtain ⟨descriptor', options', dirs', counted'⟩ := Invocation.ofSignals_eq_ok made'
  have jobs := Except.ok.inj (counted'.symm.trans counted)
  have descriptors := descriptor_eq_of_evaluate evaluated evaluated'
  cases invocation : prepared'.invocation
  simp_all [buildDirs]

theorem covers_of_evaluate
    (evaluated : recipe.evaluate settings signals resolver overrides = .ok evaluation) :
    (recipe.options.normalize settings.os).Covers evaluation.values :=
  OptionSchema.covers_resolve (evaluate_eq_ok_iff.mp evaluated).2.1

open Invocation in
/-- Two builds whose overrides come to the same values but for one option are built by the same
arguments, and are configured by the same number of them. These agree everywhere if the option is
not there or has the name of the tests' variable, and otherwise everywhere but where the variable of
the option is defined; there they differ whenever the two values do and are of one kind. -/
theorem one_argument_differs {name : String}
    (ready : recipe.prepare opts signals resolver = .ok prepared)
    (ready' : recipe.prepare { opts with overrides := others } signals resolver = .ok prepared')
    (alike : ∀ option, option ≠ name →
      prepared'.evaluation.values.get? option = prepared.evaluation.values.get? option) :
    prepared'.invocation.buildArgs = prepared.invocation.buildArgs ∧
    prepared'.invocation.configureArgs.length = prepared.invocation.configureArgs.length ∧
    (name = testsVariable ∨ prepared.evaluation.values.get? name = none →
      prepared'.invocation.configureArgs = prepared.invocation.configureArgs) ∧
    (name ≠ testsVariable → ∀ value, prepared.evaluation.values.get? name = some value →
      ∃ value' key position, prepared'.evaluation.values.get? name = some value' ∧
        cacheKey? name = some key ∧
        AgreeBut position prepared.invocation.configureArgs prepared'.invocation.configureArgs ∧
        prepared.invocation.configureArgs[position]? = some (definition (key, cacheValue value)) ∧
        prepared'.invocation.configureArgs[position]? =
          some (definition (key, cacheValue value')) ∧
        (value.SameKind value' → value ≠ value' →
          prepared'.invocation.configureArgs[position]? ≠
            prepared.invocation.configureArgs[position]?)) := by
  have invocation : prepared.invocation =
      { prepared.invocation with options := prepared.evaluation.values } := by
    rw [← options_of_prepare ready]
  have invocation' := invocation_eq_of_prepare ready ready'
  have declared : (prepared'.evaluation.values.get? name).isSome =
      (prepared.evaluation.values.get? name).isSome := by
    rw [covers_of_evaluate (prepare_eq_ok ready').1, covers_of_evaluate (prepare_eq_ok ready).1]
  refine ⟨invocation' ▸ rfl, ?_⟩
  cases has : prepared.evaluation.values.get? name with
  | none =>
      have same : prepared'.evaluation.values = prepared.evaluation.values := by
        refine OptionValues.ext_get? fun option => ?_
        by_cases named : option = name
        · rw [named, has, ← Option.not_isSome_iff_eq_none, declared, has]
          simp
        · exact alike option named
      rw [invocation', same, ← invocation]
      exact ⟨rfl, fun _ => rfl, nofun⟩
  | some value =>
      obtain ⟨value', has'⟩ : ∃ value', prepared'.evaluation.values.get? name = some value' := by
        rw [← Option.isSome_iff_exists, declared, has, Option.isSome_some]
      cases keyed : cacheKey? name with
      | none =>
          have equal := prepared.invocation.configureArgs_eq_of_keyless keyed has has' alike
          rw [← invocation, ← invocation'] at equal
          exact ⟨congrArg List.length equal, fun _ => equal,
            fun other => absurd (cacheKey?_eq_none_iff.mp keyed) other⟩
      | some key =>
          have not_tests : name ≠ testsVariable := by
            rw [ne_eq, ← cacheKey?_eq_none_iff, keyed]
            simp
          obtain ⟨position, agree, here, there⟩ :=
            prepared.invocation.exists_position keyed has has' alike
          rw [← invocation, ← invocation'] at agree
          rw [← invocation] at here
          rw [← invocation'] at there
          refine ⟨agree.1, fun excluded => absurd excluded (by simp [not_tests]), fun _ _ is => ?_⟩
          obtain rfl := Option.some.inj is
          refine ⟨value', key, position, has', rfl, agree, here, there, fun kind differ => ?_⟩
          rw [here, there, ne_eq, Option.some.injEq]
          exact fun equal => differ (kind.eq_of_cacheValue_eq (definition_inj equal.symm))

/-- An override for `shared` changes the definition of the variable for shared libraries and no
other argument. -/
theorem small_shared_differs :
    ∃ recipe prepared prepared',
      FromSmall "shared = \x7b values = [true, false], default = false \x7d" recipe ∧
      recipe.prepare plainOptions {} {} = .ok prepared ∧
      recipe.prepare { plainOptions with overrides := [⟨"shared", "true"⟩] } {} {} =
        .ok prepared' ∧
      (∀ option, option ≠ OptionValues.sharedName →
        prepared'.evaluation.values.get? option = prepared.evaluation.values.get? option) ∧
      prepared'.invocation.buildArgs = prepared.invocation.buildArgs ∧
      ∃ position,
        AgreeBut position prepared.invocation.configureArgs prepared'.invocation.configureArgs ∧
        prepared.invocation.configureArgs[position]? = some "-DBUILD_SHARED_LIBS=OFF" ∧
        prepared'.invocation.configureArgs[position]? = some "-DBUILD_SHARED_LIBS=ON" := by
  obtain ⟨recipe, prepared, read, ready, fit⟩ := exists_of_prepareSmall?
    "shared = \x7b values = [true, false], default = false \x7d" plainOptions
    (fun recipe prepared =>
      match recipe.prepare { plainOptions with overrides := [⟨"shared", "true"⟩] } {} {} with
      | .ok prepared' => decide (prepared.evaluation.values.toList = [("shared", .bool false)] ∧
          prepared'.evaluation.values.toList = [("shared", .bool true)])
      | .error _ => false) (by decide +kernel)
  dsimp only at fit
  split at fit
  · rename_i prepared' ready'
    obtain ⟨values, values'⟩ := of_decide_eq_true fit
    have alike : ∀ option, option ≠ OptionValues.sharedName →
        prepared'.evaluation.values.get? option = prepared.evaluation.values.get? option := by
      intro option other
      have unnamed : option ≠ "shared" := other
      ext value
      rw [← OptionValues.mem_toList_iff, ← OptionValues.mem_toList_iff, values, values']
      simp [unnamed]
    have has : prepared.evaluation.values.get? OptionValues.sharedName = some (.bool false) := by
      simp [← OptionValues.mem_toList_iff, values, OptionValues.sharedName]
    have has' : prepared'.evaluation.values.get? OptionValues.sharedName = some (.bool true) := by
      simp [← OptionValues.mem_toList_iff, values', OptionValues.sharedName]
    obtain ⟨built, -, -, differs⟩ := one_argument_differs ready ready' alike
    obtain ⟨value', key, position, is, keyed, agree, here, there, -⟩ := differs (by decide) _ has
    obtain rfl := Option.some.inj (is.symm.trans has')
    obtain rfl := Option.some.inj (keyed.symm.trans
      (rfl : Invocation.cacheKey? OptionValues.sharedName = some "BUILD_SHARED_LIBS"))
    exact ⟨recipe, prepared, prepared', read, ready, ready', alike, built, position, agree, here,
      there⟩
  · cases fit

end Recipe
end PackageBuild
