import PackageBuild.Proofs.OptionVariables
import Mathlib.Data.List.TakeWhile
/-!
# What CMake reads in the arguments of the first step

CMake takes the name of a variable up to the first colon or equals sign of a definition, and lets a
later definition of a name replace an earlier one. Read this way, the variable that keeps the tests
of a package out of the build stays off unless the name of an option respells it.
-/

namespace PackageBuild

namespace CacheReading

/-- Whether a character ends the name of a variable in a definition. -/
def endsName (c : Char) : Bool := c == ':' || c == '='

/-- The name and the value in the text after `-D`: the name goes up to the first colon or equals
sign, the value starts after the first equals sign, and a type may stand in between. -/
def readSetting? (cs : List Char) : Option (String × String) :=
  match cs.dropWhile (· != '=') with
  | [] => none
  | _ :: value => some (String.ofList (cs.takeWhile fun c => !endsName c), String.ofList value)

/-- The variable and the value that an argument defines. -/
def readDefinition? (arg : String) : Option (String × String) :=
  match arg.toList with
  | '-' :: 'D' :: setting => readSetting? setting
  | _ => none

/-- The values that arguments give to a variable, in order. -/
def valuesOf (name : String) (args : List String) : List String :=
  ((args.filterMap readDefinition?).filter (·.1 == name)).map (·.2)

/-- The value a variable has in the end: later definitions replace earlier ones. -/
def valueOf? (name : String) (args : List String) : Option String :=
  (valuesOf name args).getLast?

theorem valuesOf_append (name : String) (front back : List String) :
    valuesOf name (front ++ back) = valuesOf name front ++ valuesOf name back := by
  simp [valuesOf]

/-- The name CMake reads in a definition with a key. -/
def nameRead (key : String) : String := String.ofList (key.toList.takeWhile fun c => !endsName c)

/-- The value CMake reads in a definition of a key: what follows an equals sign in the key belongs
to it. -/
def valueRead (key value : String) : String :=
  match key.toList.dropWhile (· != '=') with
  | [] => value
  | _ :: more => String.ofList (more ++ '=' :: value.toList)

theorem takeWhile_append_stop {p : Char → Bool} {stop : Char} (stops : p stop = false)
    (front back : List Char) :
    (front ++ stop :: back).takeWhile p = front.takeWhile p := by
  rw [List.takeWhile_append, List.takeWhile_cons_of_neg (by simp [stops]), List.append_nil]
  split
  · rename_i whole
    exact ((List.takeWhile_prefix p).eq_of_length whole).symm
  · rfl

theorem dropWhile_append_stop {p : Char → Bool} {stop : Char} (stops : p stop = false)
    (front back : List Char) :
    (front ++ stop :: back).dropWhile p = front.dropWhile p ++ stop :: back := by
  rw [List.dropWhile_append, List.dropWhile_cons_of_neg (by simp [stops])]
  split
  · rename_i nothing_left
    rw [List.isEmpty_iff.mp nothing_left, List.nil_append]
  · rfl

theorem readDefinition?_definition (key value : String) :
    readDefinition? (Invocation.definition (key, value)) =
      some (nameRead key, valueRead key value) := by
  have chars : (Invocation.definition (key, value)).toList =
      '-' :: 'D' :: (key.toList ++ '=' :: value.toList) := by
    simp [Invocation.definition]
  rw [readDefinition?, chars]
  simp only [readSetting?]
  rw [dropWhile_append_stop (by decide), takeWhile_append_stop (by decide), nameRead, valueRead]
  cases key.toList.dropWhile (· != '=') with
  | nil => simp
  | cons c more => simp

/-! ## Respellings -/

/-- Whether a name spells a variable and goes on with a type or with a value. -/
def respells (name key : String) : Bool :=
  (name ++ ":").toList.isPrefixOf key.toList || (name ++ "=").toList.isPrefixOf key.toList

theorem takeWhile_eq_iff {p : Char → Bool} {word : List Char} (holds : ∀ c ∈ word, p c = true)
    (cs : List Char) :
    cs.takeWhile p = word ↔
      cs = word ∨ ∃ stop rest, p stop = false ∧ cs = word ++ stop :: rest := by
  constructor
  · intro taken
    have split := List.takeWhile_append_dropWhile (p := p) (l := cs)
    rw [taken] at split
    cases dropped : cs.dropWhile p with
    | nil =>
        left
        rw [← split, dropped, List.append_nil]
    | cons stop rest =>
        right
        have stops : p stop = false := by
          have := List.head?_dropWhile_not p cs
          simpa [dropped] using this
        exact ⟨stop, rest, stops, by rw [← split, dropped]⟩
  · rintro (rfl | ⟨stop, rest, stops, rfl⟩)
    · exact List.takeWhile_eq_self_iff.mpr holds
    · rw [takeWhile_append_stop stops]
      exact List.takeWhile_eq_self_iff.mpr holds

/-- CMake reads a variable off a key that is its name or respells it. -/
theorem nameRead_eq_iff {name : String} (plain : ∀ c ∈ name.toList, endsName c = false)
    (key : String) : nameRead key = name ↔ key = name ∨ respells name key = true := by
  have word : ∀ c ∈ name.toList, (!endsName c) = true := by
    intro c member
    simp [plain c member]
  have spelled : nameRead key = name ↔
      key.toList.takeWhile (fun c => !endsName c) = name.toList := by
    rw [nameRead, ← String.toList_inj, String.toList_ofList]
  rw [spelled, takeWhile_eq_iff word, String.toList_inj]
  apply or_congr Iff.rfl
  simp only [respells, Bool.or_eq_true, List.isPrefixOf_iff_prefix, String.toList_append]
  constructor
  · rintro ⟨stop, rest, stops, chars⟩
    have ends : stop = ':' ∨ stop = '=' := by
      rw [Bool.not_eq_false', endsName, Bool.or_eq_true, beq_iff_eq, beq_iff_eq] at stops
      exact stops
    rcases ends with rfl | rfl
    · exact Or.inl ⟨rest, by simp [chars]⟩
    · exact Or.inr ⟨rest, by simp [chars]⟩
  · rintro (⟨rest, chars⟩ | ⟨rest, chars⟩)
    · exact ⟨':', rest, by decide, by simp [← chars]⟩
    · exact ⟨'=', rest, by decide, by simp [← chars]⟩

theorem valueRead_eq_iff {wanted : String} (plain : '=' ∉ wanted.toList) (key value : String) :
    valueRead key value = wanted ↔ '=' ∉ key.toList ∧ value = wanted := by
  rw [valueRead]
  cases dropped : key.toList.dropWhile (· != '=') with
  | nil =>
      have none_equals : '=' ∉ key.toList := by
        intro member
        have := List.dropWhile_eq_nil_iff.mp dropped '=' member
        simp at this
      simp [none_equals]
  | cons c more =>
      have some_equals : '=' ∈ key.toList := by
        by_contra absent
        have gone : key.toList.dropWhile (· != '=') = [] := by
          rw [List.dropWhile_eq_nil_iff]
          intro d member
          simpa using fun same : d = '=' => absent (same ▸ member)
        simp [gone] at dropped
      constructor
      · rintro rfl
        simp at plain
      · rintro ⟨absent, -⟩
        exact absurd some_equals absent

/-! ## The variable of the tests -/

open Invocation

/-- The last option, by name, whose name respells the variable that keeps tests out. -/
def lastRespelling? (values : OptionValues) : Option (String × OptionValue) :=
  (values.toList.filter fun entry => respells testsVariable entry.1).getLast?

theorem valuesOf_definitions (name : String) (settings : List (String × String)) :
    valuesOf name (settings.map definition) =
      (settings.filter fun setting => nameRead setting.1 == name).map fun setting =>
        valueRead setting.1 setting.2 := by
  induction settings with
  | nil => rfl
  | cons setting settings induction =>
      rw [List.map_cons, ← List.singleton_append, valuesOf_append, induction]
      by_cases named : nameRead setting.1 = name
      · simp [valuesOf, readDefinition?_definition setting.1 setting.2, named]
      · simp [valuesOf, readDefinition?_definition setting.1 setting.2, named]

theorem cacheKey?_reads_tests {option key : String} (keyed : cacheKey? option = some key) :
    nameRead key = testsVariable ↔ respells testsVariable option = true := by
  have none_ends : (testsVariable.toList.all fun c => !endsName c) = true := by decide
  have plain : ∀ c ∈ testsVariable.toList, endsName c = false := by
    intro c member
    simpa using List.all_eq_true.mp none_ends c member
  have renamings : ∀ pair ∈ renamedOptions, respells testsVariable pair.1 = false ∧
      pair.2 ≠ testsVariable ∧ respells testsVariable pair.2 = false := by decide
  rw [nameRead_eq_iff plain]
  rcases cacheKey?_eq_some_iff.mp keyed with renamed | ⟨⟨-, other⟩, rfl⟩
  · simp [renamings _ renamed]
  · simp [other]

theorem cacheKey?_eq_some_of_respells {option : String}
    (respelled : respells testsVariable option = true) : cacheKey? option = some option := by
  have names : ∀ name ∈ testsVariable :: renamedOptions.map Prod.fst,
      respells testsVariable name = false := by decide
  refine cacheKey?_eq_some_iff.mpr (Or.inr ⟨⟨fun renamed => ?_, ?_⟩, rfl⟩)
  · simp [names _ (List.mem_cons_of_mem _ renamed)] at respelled
  · rintro rfl
    simp [names _ List.mem_cons_self] at respelled

theorem valuesOf_optionVariables (i : Invocation) :
    valuesOf testsVariable (i.optionVariables.map definition) =
      (i.options.toList.filter fun entry => respells testsVariable entry.1).map fun entry =>
        valueRead entry.1 (cacheValue entry.2) := by
  rw [valuesOf_definitions, optionVariables]
  induction i.options.toList with
  | nil => rfl
  | cons entry entries induction =>
      obtain ⟨option, value⟩ := entry
      cases keyed : cacheKey? option with
      | none =>
          have kept_out : respells testsVariable option = false := by
            by_contra respelled
            rw [cacheKey?_eq_some_of_respells (by simpa using respelled)] at keyed
            simp at keyed
          simpa [keyed, kept_out] using induction
      | some key =>
          have reads := cacheKey?_reads_tests keyed
          cases respelled : respells testsVariable option with
          | false =>
              have other : nameRead key ≠ testsVariable := by
                rw [ne_eq, reads, respelled]
                decide
              simpa [keyed, respelled, other] using induction
          | true =>
              have same : nameRead key = testsVariable := reads.mpr respelled
              have key_eq : key = option := by
                rw [cacheKey?_eq_some_of_respells respelled] at keyed
                exact (Option.some.inj keyed).symm
              subst key_eq
              simpa [keyed, respelled, same] using induction

/-- The last values that the arguments of the first step give to the variable of the tests. -/
theorem valuesOf_configureArgs (i : Invocation) :
    ∃ earlier, valuesOf testsVariable i.configureArgs =
      earlier ++ "Off" :: (i.options.toList.filter fun entry =>
        respells testsVariable entry.1).map fun entry =>
          valueRead entry.1 (cacheValue entry.2) := by
  have tests : nameRead testsVariable = testsVariable := by decide +kernel
  have build_type : nameRead "CMAKE_BUILD_TYPE" ≠ testsVariable := by decide +kernel
  have prefix_path : nameRead "CMAKE_PREFIX_PATH" ≠ testsVariable := by decide +kernel
  have fixed : valuesOf testsVariable (i.fixedVariables.map definition) = ["Off"] := by
    rw [valuesOf_definitions]
    have off : valueRead testsVariable "Off" = "Off" := rfl
    simpa [fixedVariables, tests, build_type] using off
  have prefixes : valuesOf testsVariable (i.prefixVariables.map definition) = [] := by
    rw [valuesOf_definitions, prefixVariables]
    split
    · rfl
    · simp [prefix_path]
  refine ⟨valuesOf testsVariable
    (["-S", i.dirs.sourceDir.text, "-B", i.dirs.buildDir.text] ++ i.generatorArgs), ?_⟩
  rw [configureArgs, cacheVariables, List.map_append, List.map_append, valuesOf_append _ (_ ++ _),
    valuesOf_append _ (_ ++ _) (List.map _ _), valuesOf_append _ (List.map _ _), fixed, prefixes,
    valuesOf_optionVariables, List.append_nil, List.singleton_append]

/-- The variable of the tests is off unless a respelling of it says otherwise. -/
theorem valueOf?_tests (i : Invocation) :
    valueOf? testsVariable i.configureArgs =
      some (((lastRespelling? i.options).map fun entry =>
        valueRead entry.1 (cacheValue entry.2)).getD "Off") := by
  obtain ⟨earlier, values⟩ := valuesOf_configureArgs i
  rw [valueOf?, values, lastRespelling?, List.getLast?_append, List.getLast?_cons, Option.some_or,
    List.getLast?_map]

theorem cacheValue_eq_off_iff (value : OptionValue) :
    cacheValue value = "Off" ↔ value = .text "Off" := by
  cases value with
  | bool flag => cases flag <;> simp [cacheValue]
  | text value => simp [cacheValue]

/-- Package tests stay off exactly if the last option whose name respells their variable, if there
is one, has no equals sign in its name and says so itself. -/
theorem tests_off_iff {recipe : Recipe} {opts : BuildOptions} {signals : Signals}
    {resolver : VersionResolver} {prepared : PreparedBuild}
    (ready : recipe.prepare opts signals resolver = .ok prepared) :
    valueOf? testsVariable prepared.invocation.configureArgs = some "Off" ↔
      ∀ option value, lastRespelling? prepared.evaluation.values = some (option, value) →
        '=' ∉ option.toList ∧ value = .text "Off" := by
  rw [valueOf?_tests, Recipe.options_of_prepare ready]
  cases last : lastRespelling? prepared.evaluation.values with
  | none => simp
  | some entry =>
      obtain ⟨option, value⟩ := entry
      have plain : '=' ∉ "Off".toList := by decide
      simp [valueRead_eq_iff plain, cacheValue_eq_off_iff]

/-- Tests stay off for a recipe whose only option is named for something else. -/
theorem tests_off_plain :
    ∃ recipe prepared,
      Recipe.FromSmall "lto = \x7b values = [true, false], default = true \x7d" recipe ∧
      recipe.prepare Recipe.plainOptions {} {} = .ok prepared ∧
      valueOf? testsVariable prepared.invocation.configureArgs = some "Off" := by
  obtain ⟨recipe, prepared, read, ready, respelling⟩ := Recipe.exists_of_prepareSmall?
    "lto = \x7b values = [true, false], default = true \x7d" Recipe.plainOptions
    (fun _ prepared => decide (lastRespelling? prepared.evaluation.values = none))
    (by decide +kernel)
  refine ⟨recipe, prepared, read, ready, (tests_off_iff ready).mpr ?_⟩
  intro option value last
  rw [of_decide_eq_true respelling] at last
  exact absurd last (by simp)

/-- An option named for the variable and a type turns the tests on. -/
theorem tests_on_respelled :
    ∃ recipe prepared,
      Recipe.FromSmall
        "\"PACKAGE_TESTS:BOOL\" = \x7b values = [true, false], default = true \x7d" recipe ∧
      recipe.prepare Recipe.plainOptions {} {} = .ok prepared ∧
      valueOf? testsVariable prepared.invocation.configureArgs = some "ON" := by
  obtain ⟨recipe, prepared, read, ready, value⟩ := Recipe.exists_of_prepareSmall?
    "\"PACKAGE_TESTS:BOOL\" = \x7b values = [true, false], default = true \x7d" Recipe.plainOptions
    (fun _ prepared =>
      decide (valueOf? testsVariable prepared.invocation.configureArgs = some "ON"))
    (by decide +kernel)
  exact ⟨recipe, prepared, read, ready, of_decide_eq_true value⟩

end CacheReading
end PackageBuild
