import PackageBuild.Proofs.PreparationFaults
import PackageBuild.Proofs.SystemNames
/-!
# Position-independent code

Windows has no position-independent code. Whatever a recipe declares for the option `fPIC`, a build
for Windows is prepared as if the option did not exist; for any other system the declared options
are taken as they are.
-/

namespace PackageBuild

namespace Os

/-- Whether a text spells Windows: one of three names in any case, with blanks around it or not. -/
def NamesWindows (text : String) : Prop :=
  ∃ name ∈ ["windows", "win32", "win64"], Text.sameIgnoringCase (Text.trim text) name = true

theorem ofName_eq_windows_iff {name : String} :
    ofName name = .windows ↔
      ∃ spelling ∈ ["windows", "win32", "win64"], Text.sameIgnoringCase name spelling = true := by
  have listed_iff (spelling : String) : (spelling, Os.windows) ∈ spellings ↔
      spelling ∈ ["windows", "win32", "win64"] := by simp [spellings]
  rw [ofName_eq_iff]
  constructor
  · rintro (⟨listed, same⟩ | _)
    exact ⟨_, (listed_iff _).mp listed, same⟩
  · rintro ⟨spelling, listed, same⟩
    exact .known ((listed_iff spelling).mpr listed) same

theorem parse_eq_windows_iff {text : String} :
    parse text = .ok .windows ↔ NamesWindows text := by
  rw [NamesWindows, ← ofName_eq_windows_iff]
  unfold parse
  dsimp only
  split
  · rename_i empty
    simp only [empty, reduceCtorEq, false_iff]
    decide
  · simp

end Os

namespace OptionSchema

variable {schema other : OptionSchema} {os : Os} {override : OptionOverride}
  {overrides : List OptionOverride} {values : OptionValues}

theorem ext_get? (same : ∀ name, schema.get? name = other.get? name) : schema = other := by
  obtain ⟨decls, _⟩ := schema
  obtain ⟨decls', _⟩ := other
  obtain rfl : decls = decls' := Std.ExtTreeMap.ext_getElem? fun name => same name
  rfl

theorem get?_normalize (os : Os) (schema : OptionSchema) (name : String) :
    (schema.normalize os).get? name =
      if os = .windows ∧ name = fpicName then none else schema.get? name := by
  have hidden : (!(os.isWindows && name == fpicName)) =
      !decide (os = .windows ∧ name = fpicName) := by
    rw [Bool.decide_and]
    rfl
  simp only [get?, normalize, Std.ExtTreeMap.getElem?_filter', hidden]
  split
  · rename_i windows
    simp [windows]
  · rename_i kept
    cases schema.decls[name]? <;> simp [kept]

theorem normalize_eq_self (other_system : os ≠ .windows) (schema : OptionSchema) :
    schema.normalize os = schema := by
  refine ext_get? fun name => ?_
  rw [get?_normalize, if_neg fun windows => other_system windows.1]

theorem normalize_windows_eq (same : ∀ name, name ≠ fpicName → other.get? name = schema.get? name) :
    other.normalize .windows = schema.normalize .windows := by
  refine ext_get? fun name => ?_
  rw [get?_normalize, get?_normalize]
  by_cases fpic : name = fpicName
  · rw [if_pos ⟨rfl, fpic⟩, if_pos ⟨rfl, fpic⟩]
  · rw [if_neg (fpic ·.2), if_neg (fpic ·.2), same name fpic]

/-! ## The options that have values -/

/-- Whether exactly the options of a schema have values. -/
def Covers (schema : OptionSchema) (values : OptionValues) : Prop :=
  ∀ name, (values.get? name).isSome = (schema.get? name).isSome

theorem covers_defaults (schema : OptionSchema) : schema.Covers schema.defaults := by
  intro name
  simp [defaults, OptionValues.get?, get?, Std.ExtTreeMap.getElem?_map]

theorem covers_apply {values' : OptionValues} (covers : schema.Covers values)
    (applied : schema.apply values override = .ok values') : schema.Covers values' := by
  unfold apply at applied
  obtain ⟨value, chosen, applied⟩ := bind_eq_ok_iff.mp applied
  obtain rfl := Except.ok.inj applied
  have named : (schema.get? override.name).isSome = true := by
    unfold choose at chosen
    split at chosen
    · cases chosen
    · rename_i declared
      rw [declared, Option.isSome_some]
  intro name
  simp only [OptionValues.get?, Std.ExtTreeMap.getElem?_insert]
  split
  · rename_i same
    rw [← Std.LawfulEqCmp.eq_of_compare same, named, Option.isSome_some]
  · exact covers name

theorem covers_resolve (resolved : schema.resolve overrides = .ok values) :
    schema.Covers values := by
  suffices run : ∀ start, schema.Covers start →
      overrides.foldlM schema.apply start = .ok values → schema.Covers values from
    run schema.defaults (covers_defaults schema) resolved
  clear resolved
  induction overrides with
  | nil =>
      rintro start covers ⟨⟩
      exact covers
  | cons override overrides induction =>
      intro start covers applied
      rw [List.foldlM_cons] at applied
      obtain ⟨middle, first, rest⟩ := bind_eq_ok_iff.mp applied
      exact induction middle (covers_apply covers first) rest

theorem exists_resolve_eq_error (absent : schema.get? override.name = none)
    (member : override ∈ overrides) : ∃ fault, schema.resolve overrides = .error fault := by
  simp only [resolve_eq_error_iff]
  exact exists_firstFault_iff.mpr ⟨override, member, _, .unknown absent⟩

end OptionSchema

namespace Recipe

/-- Whether two recipes differ at most in how they declare one option, or in whether they do. -/
def AlikeBut (name : String) (recipe other : Recipe) : Prop :=
  other = { recipe with options := other.options } ∧
    ∀ option, option ≠ name → other.options.get? option = recipe.options.get? option

variable {recipe other : Recipe} {settings : Settings} {opts : BuildOptions} {signals : Signals}
  {resolver : VersionResolver} {overrides : List OptionOverride} {evaluation : Evaluation}

theorem prepare_eq_of_alike (alike : AlikeBut OptionSchema.fpicName recipe other)
    (windows : opts.settings.os = .windows) :
    other.prepare opts signals resolver = recipe.prepare opts signals resolver := by
  obtain ⟨differ, same⟩ := alike
  have options := OptionSchema.normalize_windows_eq same
  rw [differ]
  unfold prepare evaluate
  rw [windows, options]
  rfl

theorem exists_prepare_eq_error {override : OptionOverride}
    (absent : (recipe.options.normalize opts.settings.os).get? override.name = none)
    (member : override ∈ opts.overrides) :
    ∃ fault, recipe.prepare opts signals resolver = .error fault := by
  cases outcome : recipe.prepare opts signals resolver with
  | error fault => exact ⟨fault, rfl⟩
  | ok prepared =>
      obtain ⟨options, resolved⟩ := evaluate_eq_ok (prepare_eq_ok outcome).1
      rw [options] at resolved
      obtain ⟨fault, refused⟩ := OptionSchema.exists_resolve_eq_error absent member
      exact absurd (resolved.symm.trans refused) (by simp)

/-- For Windows, however spelled, recipes that differ in their option `fPIC` alone are prepared to
the same outcome, which knows no such option and accepts no override for it. For any other system a
recipe is evaluated with the options that it declares, and exactly these have values. -/
theorem fpic_without_influence {text : String} {opts : BuildOptions}
    (parsed : Os.parse text = .ok opts.settings.os) (signals : Signals)
    (resolver : VersionResolver) :
    (Os.NamesWindows text → ∀ recipe other, AlikeBut OptionSchema.fpicName recipe other →
      other.prepare opts signals resolver = recipe.prepare opts signals resolver ∧
      (∀ prepared, recipe.prepare opts signals resolver = .ok prepared →
        prepared.evaluation.options.get? OptionSchema.fpicName = none ∧
        prepared.evaluation.values.get? OptionSchema.fpicName = none ∧
        prepared.invocation.options.get? OptionSchema.fpicName = none) ∧
      ∀ override ∈ opts.overrides, override.name = OptionSchema.fpicName →
        ∃ fault, recipe.prepare opts signals resolver = .error fault) ∧
    (¬Os.NamesWindows text → ∀ recipe evaluation,
      evaluate recipe opts.settings signals resolver opts.overrides = .ok evaluation →
      evaluation.options = recipe.options ∧
      ∀ name, (evaluation.values.get? name).isSome = (recipe.options.get? name).isSome) := by
  have spelled : opts.settings.os = .windows ↔ Os.NamesWindows text := by
    rw [← Os.parse_eq_windows_iff, parsed, Except.ok.injEq]
  rw [← spelled]
  constructor
  · intro windows recipe other alike
    have absent :
        (recipe.options.normalize opts.settings.os).get? OptionSchema.fpicName = none := by
      rw [OptionSchema.get?_normalize, if_pos ⟨windows, rfl⟩]
    refine ⟨prepare_eq_of_alike alike windows, fun prepared ready => ?_,
      fun override member named => exists_prepare_eq_error (named ▸ absent) member⟩
    obtain ⟨options, resolved⟩ := evaluate_eq_ok (prepare_eq_ok ready).1
    have undeclared : prepared.evaluation.options.get? OptionSchema.fpicName = none := by
      rw [options, absent]
    have valueless : prepared.evaluation.values.get? OptionSchema.fpicName = none := by
      rw [← Option.isNone_iff_eq_none, ← Option.not_isSome, OptionSchema.covers_resolve resolved,
        undeclared]
      rfl
    exact ⟨undeclared, valueless, by rw [options_of_prepare ready, valueless]⟩
  · intro other_system recipe evaluation evaluated
    obtain ⟨options, resolved⟩ := evaluate_eq_ok evaluated
    rw [OptionSchema.normalize_eq_self other_system] at options
    exact ⟨options, fun name => options ▸ OptionSchema.covers_resolve resolved name⟩

/-- The declaration of `fPIC` in the small manifest is no difference for ` WIN64 `, and for Linux it
is taken as it is. -/
theorem small_fpic_without_influence :
    ∃ recipe, FromSmall "fPIC = \x7b values = [true, false], default = true \x7d" recipe ∧
      recipe.options.get? OptionSchema.fpicName = some (OptionDecl.switch true) ∧
      (let other := { recipe with options := recipe.options.normalize .windows }
       let opts := { plainOptions with settings := ⟨.windows, "msvc", .release, "x86_64"⟩ }
       other.options.get? OptionSchema.fpicName = none ∧
       AlikeBut OptionSchema.fpicName recipe other ∧
       Os.parse " WIN64 " = .ok opts.settings.os ∧ Os.NamesWindows " WIN64 " ∧
       other.prepare opts {} {} = recipe.prepare opts {} {}) ∧
      Os.parse "linux" = .ok plainOptions.settings.os ∧ ¬Os.NamesWindows "linux" ∧
      ∃ evaluation, recipe.evaluate plainOptions.settings {} {} [] = .ok evaluation ∧
        evaluation.options = recipe.options := by
  obtain ⟨recipe, prepared, read, ready, declared⟩ := exists_of_prepareSmall?
    "fPIC = \x7b values = [true, false], default = true \x7d" plainOptions
    (fun recipe _ =>
      decide (recipe.options.get? OptionSchema.fpicName = some (OptionDecl.switch true)))
    (by decide +kernel)
  have alike : AlikeBut OptionSchema.fpicName recipe
      { recipe with options := recipe.options.normalize .windows } :=
    ⟨rfl, fun option other => by
      rw [OptionSchema.get?_normalize, if_neg (other ·.2)]⟩
  have windows : Os.NamesWindows " WIN64 " := ⟨"win64", by decide, by decide +kernel⟩
  have win64 := Os.parse_eq_windows_iff.mpr windows
  have linux : Os.parse "linux" = .ok .linux := by rfl
  have other : ¬Os.NamesWindows "linux" := by
    rw [← Os.parse_eq_windows_iff, linux]
    simp
  have evaluated := (prepare_eq_ok ready).1
  refine ⟨recipe, read, of_decide_eq_true declared,
    ⟨?_, alike, win64, windows, ((fpic_without_influence win64 {} {}).1 windows _ _ alike).1⟩,
    linux, other, prepared.evaluation, evaluated,
    ((fpic_without_influence linux {} {}).2 other _ _ evaluated).1⟩
  simp [OptionSchema.get?_normalize]

end Recipe
end PackageBuild
