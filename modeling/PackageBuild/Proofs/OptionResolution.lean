import Mathlib.Data.List.Induction
import PackageBuild.Proofs.PositionIndependence
/-!
# What overrides come to

Overrides are respected one after the other, and each replaces what an earlier one chose for the
same option. So an option ends with the first of its values that the last override for it names, or
with its default when there is none, and the order of overrides for different options is of no
account.
-/

namespace PackageBuild

namespace OptionValue

/-- Whether a text names a value: a switch in any case of its letters, a text exactly. -/
inductive Spelled (text : String) : OptionValue → Prop where
  | on (letters : text.toList.map Char.toLower = ['t', 'r', 'u', 'e']) : Spelled text (.bool true)
  | off (letters : text.toList.map Char.toLower = ['f', 'a', 'l', 's', 'e']) :
      Spelled text (.bool false)
  | exactly : Spelled text (.text text)

theorem matchesText_iff {text : String} {value : OptionValue} :
    value.matchesText text = true ↔ value.Spelled text := by
  cases value with
  | bool switch =>
      cases switch with
      | true =>
          refine beq_iff_eq.trans ⟨.on, fun spelled => ?_⟩
          cases spelled with
          | on letters => exact letters
      | false =>
          refine beq_iff_eq.trans ⟨.off, fun spelled => ?_⟩
          cases spelled with
          | off letters => exact letters
  | text value =>
      refine beq_iff_eq.trans ⟨?_, ?_⟩
      · rintro rfl
        exact .exactly
      · rintro ⟨⟩
        rfl

end OptionValue

namespace OptionDecl

/-- Whether a value is the first of those of an option that a text names. -/
def FirstSpelled (decl : OptionDecl) (text : String) (value : OptionValue) : Prop :=
  ∃ front back, decl.values = front ++ value :: back ∧ value.Spelled text ∧
    ∀ earlier ∈ front, ¬earlier.Spelled text

variable {decl : OptionDecl} {text : String} {value : OptionValue}

theorem valueNamed?_eq_some_iff :
    decl.valueNamed? text = some value ↔ decl.FirstSpelled text value := by
  rw [valueNamed?, List.find?_eq_some_iff_append]
  simp only [OptionValue.matchesText_iff, Bool.not_eq_true', ← Bool.not_eq_true, FirstSpelled]
  constructor
  · rintro ⟨named, front, back, listed, silent⟩
    exact ⟨front, back, listed, named, silent⟩
  · rintro ⟨front, back, listed, named, silent⟩
    exact ⟨named, front, back, listed, silent⟩

theorem FirstSpelled.mem (first : decl.FirstSpelled text value) : value ∈ decl.values := by
  obtain ⟨front, back, listed, -⟩ := first
  simp [listed]

theorem FirstSpelled.spelled (first : decl.FirstSpelled text value) : value.Spelled text := by
  obtain ⟨-, -, -, spelled, -⟩ := first
  exact spelled

end OptionDecl

namespace OptionOverride

/-- The last of some overrides that is for an option. -/
def last? (name : String) (overrides : List OptionOverride) : Option OptionOverride :=
  (overrides.filter (·.name = name)).getLast?

theorem last?_concat (name : String) (overrides : List OptionOverride)
    (override : OptionOverride) :
    last? name (overrides ++ [override]) =
      if override.name = name then some override else last? name overrides := by
  rw [last?, List.filter_append]
  by_cases named : override.name = name
  · rw [if_pos named, List.filter_cons_of_pos (by simpa using named), List.filter_nil,
      List.getLast?_concat]
  · rw [if_neg named, List.filter_cons_of_neg (by simpa using named), List.filter_nil,
      List.append_nil, last?]

end OptionOverride

namespace OptionValues

theorem ext_get? {values others : OptionValues}
    (same : ∀ name, values.get? name = others.get? name) : values = others := by
  obtain ⟨values⟩ := values
  obtain ⟨others⟩ := others
  obtain rfl : values = others := Std.ExtTreeMap.ext_getElem? fun name => same name
  rfl

end OptionValues

namespace OptionSchema

variable {schema : OptionSchema} {override : OptionOverride}
  {overrides others : List OptionOverride} {values : OptionValues} {name : String}
  {value : OptionValue}

/-! ## Overrides that fit -/

/-- Whether an override is for an option of a schema and names one of its values. -/
def Fits (schema : OptionSchema) (override : OptionOverride) : Prop :=
  ∃ decl, schema.get? override.name = some decl ∧
    ∃ value ∈ decl.values, value.Spelled override.value

theorem exists_misfit_iff : (∃ fault, schema.Misfit override fault) ↔ ¬schema.Fits override := by
  constructor
  · rintro ⟨fault, misfit⟩ ⟨decl, declared, value, member, spelled⟩
    cases misfit with
    | unknown absent => simp [absent] at declared
    | outside declared' unmatched =>
        obtain rfl := Option.some.inj (declared.symm.trans declared')
        exact absurd (OptionValue.matchesText_iff.mpr spelled) (by simp [unmatched value member])
  · intro unfit
    cases declared : schema.get? override.name with
    | none => exact ⟨_, .unknown declared⟩
    | some decl =>
        refine ⟨_, .outside declared fun value member => ?_⟩
        rw [← Bool.not_eq_true, OptionValue.matchesText_iff]
        exact fun spelled => unfit ⟨decl, declared, value, member, spelled⟩

/-- Overrides come to something exactly if each of them fits. -/
theorem exists_resolve_eq_ok_iff :
    (∃ values, schema.resolve overrides = .ok values) ↔
      ∀ override ∈ overrides, schema.Fits override := by
  have refused : (∃ fault, schema.resolve overrides = .error fault) ↔
      ∃ override ∈ overrides, ¬schema.Fits override := by
    simp only [resolve_eq_error_iff, exists_firstFault_iff, exists_misfit_iff]
  have fit : (∀ override ∈ overrides, schema.Fits override) ↔
      ¬∃ fault, schema.resolve overrides = .error fault := by
    simp only [refused, not_exists, not_and, not_not]
  rw [fit]
  cases schema.resolve overrides <;> simp

/-! ## The value of each option -/

/-- Whether an option has a value under some overrides. -/
inductive Settles (schema : OptionSchema) (overrides : List OptionOverride) (name : String) :
    OptionValue → Prop where
  | untouched {decl : OptionDecl} (declared : schema.get? name = some decl)
      (none_named : OptionOverride.last? name overrides = none) :
      Settles schema overrides name decl.default
  | overridden {decl : OptionDecl} {override : OptionOverride} {value : OptionValue}
      (declared : schema.get? name = some decl)
      (last : OptionOverride.last? name overrides = some override)
      (first : decl.FirstSpelled override.value value) : Settles schema overrides name value

theorem Settles.congr (settles : schema.Settles overrides name value)
    (same : OptionOverride.last? name others = OptionOverride.last? name overrides) :
    schema.Settles others name value := by
  cases settles with
  | untouched declared none_named => exact .untouched declared (same.trans none_named)
  | overridden declared last first => exact .overridden declared (same.trans last) first

theorem Settles.mem (settles : schema.Settles overrides name value) :
    ∃ decl, schema.get? name = some decl ∧ value ∈ decl.values := by
  cases settles with
  | untouched declared _ => exact ⟨_, declared, schema.default_mem declared⟩
  | overridden declared _ first => exact ⟨_, declared, first.mem⟩

theorem get?_defaults (schema : OptionSchema) (name : String) :
    schema.defaults.get? name = (schema.get? name).map (·.default) := by
  simp [defaults, OptionValues.get?, get?, Std.ExtTreeMap.getElem?_map]

/-- An override sets its option to the first value that it names, and nothing else. -/
theorem apply_eq_ok {values' : OptionValues}
    (applied : schema.apply values override = .ok values') :
    ∃ decl value, schema.get? override.name = some decl ∧
      decl.FirstSpelled override.value value ∧
      ∀ name,
        values'.get? name = if override.name = name then some value else values.get? name := by
  unfold apply at applied
  obtain ⟨value, chosen, applied⟩ := bind_eq_ok_iff.mp applied
  obtain rfl := Except.ok.inj applied
  unfold choose at chosen
  split at chosen
  · cases chosen
  · rename_i decl declared
    split at chosen
    · rename_i named
      obtain rfl := Except.ok.inj chosen
      refine ⟨decl, _, declared, OptionDecl.valueNamed?_eq_some_iff.mp named, fun name => ?_⟩
      simp only [OptionValues.get?, Std.ExtTreeMap.getElem?_insert, Std.compare_eq_iff_eq]
    · cases chosen

theorem resolve_concat (overrides : List OptionOverride) (override : OptionOverride) :
    schema.resolve (overrides ++ [override]) =
      schema.resolve overrides >>= (schema.apply · override) := by
  simp [resolve, List.foldlM_append]

/-- Overrides that come to something settle every option. -/
theorem get?_eq_some_iff_of_resolve (resolved : schema.resolve overrides = .ok values) :
    values.get? name = some value ↔ schema.Settles overrides name value := by
  induction overrides using List.reverseRecOn generalizing values value with
  | nil =>
      obtain rfl := Except.ok.inj resolved
      rw [get?_defaults, Option.map_eq_some_iff]
      constructor
      · rintro ⟨decl, declared, rfl⟩
        exact .untouched declared rfl
      · rintro (⟨declared, -⟩ | ⟨-, last, -⟩)
        · exact ⟨_, declared, rfl⟩
        · cases last
  | append_singleton overrides override induction =>
      rw [resolve_concat] at resolved
      obtain ⟨before, earlier, applied⟩ := bind_eq_ok_iff.mp resolved
      obtain ⟨decl, chosen, declared, first, get?_eq⟩ := apply_eq_ok applied
      have last := OptionOverride.last?_concat name overrides override
      rw [get?_eq]
      split at last
      · rename_i named
        subst named
        rw [if_pos rfl, Option.some.injEq]
        constructor
        · rintro rfl
          exact .overridden declared last first
        · rintro (⟨-, none_named⟩ | ⟨declared', last', first'⟩)
          · exact absurd (last.symm.trans none_named) (by simp)
          · obtain rfl := Option.some.inj (declared.symm.trans declared')
            obtain rfl := Option.some.inj (last.symm.trans last')
            rw [← OptionDecl.valueNamed?_eq_some_iff] at first first'
            exact Option.some.inj (first.symm.trans first')
      · rename_i other
        rw [if_neg other, induction earlier]
        exact ⟨(·.congr last), (·.congr last.symm)⟩

/-- What overrides come to depends on the order of those for the same option only. -/
theorem resolve_eq_of_filter_eq (resolved : schema.resolve overrides = .ok values)
    (same : ∀ name, others.filter (·.name = name) = overrides.filter (·.name = name)) :
    schema.resolve others = .ok values := by
  have fit := exists_resolve_eq_ok_iff.mp ⟨values, resolved⟩
  obtain ⟨values', resolved'⟩ := exists_resolve_eq_ok_iff.mpr fun override member => by
    have in_filter : override ∈ others.filter (·.name = override.name) := by simpa using member
    rw [same] at in_filter
    exact fit override (List.mem_filter.mp in_filter).1
  obtain rfl : values' = values := OptionValues.ext_get? fun name => by
    have last : OptionOverride.last? name others = OptionOverride.last? name overrides :=
      congrArg List.getLast? (same name)
    refine Option.ext fun value => ?_
    rw [get?_eq_some_iff_of_resolve resolved', get?_eq_some_iff_of_resolve resolved]
    exact ⟨(·.congr last.symm), (·.congr last)⟩
  exact resolved'

/-- For every system, overrides come to something exactly if each names an option and one of its
values. Then exactly the options of the system have values, each one of those declared for it: the
first that the last override for it names, or the default. Overrides for different options may
change places. Otherwise the first override that does not fit is refused. -/
theorem resolve_decided_by_last (schema : OptionSchema) (os : Os)
    (overrides : List OptionOverride) :
    ((∃ values, (schema.normalize os).resolve overrides = .ok values) ↔
      ∀ override ∈ overrides, (schema.normalize os).Fits override) ∧
    (∀ values, (schema.normalize os).resolve overrides = .ok values →
      (schema.normalize os).Covers values ∧
      (∀ name value, values.get? name = some value →
        ∃ decl, (schema.normalize os).get? name = some decl ∧ value ∈ decl.values) ∧
      (∀ name value, values.get? name = some value ↔
        (schema.normalize os).Settles overrides name value) ∧
      ∀ others : List OptionOverride,
        (∀ name, others.filter (·.name = name) = overrides.filter (·.name = name)) →
        (schema.normalize os).resolve others = .ok values) ∧
    ∀ fault, (schema.normalize os).resolve overrides = .error fault ↔
      FirstFault (schema.normalize os).Misfit overrides fault := by
  refine ⟨exists_resolve_eq_ok_iff, fun values resolved => ⟨covers_resolve resolved,
    fun name value has => ?_, fun name value => get?_eq_some_iff_of_resolve resolved,
    fun others => resolve_eq_of_filter_eq resolved⟩, fun fault => resolve_eq_error_iff⟩
  exact ((get?_eq_some_iff_of_resolve resolved).mp has).mem

end OptionSchema

namespace Recipe

/-- Two options, one of which has values of both kinds. -/
def mixedOptions : String :=
  "mode = \x7b values = [\"fast\", true, \"True\"], default = \"True\" \x7d\n" ++
    "shared = \x7b values = [true, false], default = false \x7d"

/-- Overrides for two options that take turns. -/
def turns : List OptionOverride := [⟨"mode", "fast"⟩, ⟨"shared", "TRUE"⟩, ⟨"mode", "True"⟩]

/-- On Windows the small package takes the last override for each option: the switch of `mode`,
which stands before the text that is spelled the same, and that of `shared`. -/
theorem small_overrides_take_turns :
    ∃ recipe values, FromSmall mixedOptions recipe ∧
      (let schema := recipe.options.normalize .windows
       (∀ override ∈ turns, schema.Fits override) ∧
       schema.resolve turns = .ok values ∧ schema.Covers values ∧
       schema.Settles turns "mode" (.bool true) ∧ schema.Settles turns "shared" (.bool true) ∧
       schema.resolve [⟨"mode", "fast"⟩, ⟨"mode", "True"⟩, ⟨"shared", "TRUE"⟩] = .ok values ∧
       ∃ fault, schema.resolve (turns ++ [⟨"mode", "Fast"⟩, ⟨"fPIC", "true"⟩]) = .error fault ∧
         FirstFault schema.Misfit (turns ++ [⟨"mode", "Fast"⟩, ⟨"fPIC", "true"⟩]) fault) := by
  obtain ⟨recipe, -, read, -, fit⟩ := exists_of_prepareSmall? mixedOptions plainOptions
    (fun recipe _ =>
      let schema := recipe.options.normalize .windows
      match schema.resolve turns,
        schema.resolve (turns ++ [⟨"mode", "Fast"⟩, ⟨"fPIC", "true"⟩]) with
      | .ok values, .error _ => decide (values.get? "mode" = some (.bool true) ∧
          values.get? "shared" = some (.bool true))
      | .ok _, .ok _ => false
      | .error _, _ => false) (by decide +kernel)
  dsimp only at fit
  split at fit
  · rename_i values fault resolved refused
    obtain ⟨mode, shared⟩ := of_decide_eq_true fit
    obtain ⟨fits, settled, -⟩ := recipe.options.resolve_decided_by_last .windows turns
    obtain ⟨covers, -, settles, reordered⟩ := settled values resolved
    refine ⟨recipe, values, read, fits.mp ⟨values, resolved⟩, resolved, covers,
      (settles _ _).mp mode, (settles _ _).mp shared, reordered _ fun name => ?_, fault, refused,
      ((recipe.options.resolve_decided_by_last .windows _).2.2 fault).mp refused⟩
    by_cases named : "mode" = name
    · subst named
      decide
    · simp [turns, List.filter_cons, named]
  · cases fit
  · cases fit

end Recipe
end PackageBuild
