import PackageBuild.Proofs.OptionResolution
/-!
# Choosing a value by its text

An override is read from a text of the form `name=value`, cut at its first equals sign and without
blanks around its parts. So a value is chosen by the text that shows it exactly if neither the cut
nor the trimming takes anything away, and no value before it is named by the same text.
-/

namespace PackageBuild

namespace Text

/-- Whether a text is not empty and has no blanks at its ends. -/
def Tidy (text : String) : Prop := text ≠ "" ∧ trim text = text

instance (text : String) : Decidable (Tidy text) := inferInstanceAs (Decidable (_ ∧ _))

theorem mem_of_mem_trimmed {c : Char} {cs : List Char} (member : c ∈ trimmed cs) : c ∈ cs := by
  rw [trimmed, List.mem_reverse] at member
  have kept := (List.dropWhile_sublist _).subset member
  rw [List.mem_reverse] at kept
  exact (List.dropWhile_sublist _).subset kept

end Text

namespace OptionValue

/-- The text that shows a value names it, so that only a value before it can stand in its way. -/
theorem spelled_display (value : OptionValue) : value.Spelled value.display := by
  cases value with
  | bool switch =>
      cases switch with
      | true => exact .on (by decide)
      | false => exact .off (by decide)
  | text value => exact .exactly

/-- The text of a value without the blanks at its ends names that value only if it has none. -/
theorem trim_display_of_spelled {value : OptionValue}
    (spelled : value.Spelled (Text.trim value.display)) :
    Text.trim value.display = value.display := by
  cases value with
  | bool switch => cases switch <;> rfl
  | text value =>
      generalize trimmed : Text.trim (display (.text value)) = text at spelled
      cases spelled
      rfl

end OptionValue

namespace OptionOverride

theorem parse_eq_ok_iff {text : String} {override : OptionOverride} :
    parse text = .ok override ↔ ∃ before after, Text.cut '=' text = some (before, after) ∧
      Text.trim before = override.name ∧ Text.trim after = override.value ∧
      override.name ≠ "" ∧ override.value ≠ "" := by
  unfold parse
  split
  · rename_i uncut
    simp [uncut]
  · rename_i before after cut
    simp only [cut, Option.some.injEq, Prod.mk.injEq]
    constructor
    · intro read
      split at read
      · cases read
      · rename_i written
        cases read
        exact ⟨before, after, ⟨rfl, rfl⟩, rfl, rfl, not_or.mp written⟩
    · rintro ⟨_, _, ⟨rfl, rfl⟩, named, valued, some_name, some_value⟩
      rw [if_neg (by rw [named, valued]; exact not_or.mpr ⟨some_name, some_value⟩), named, valued]

/-- A text that starts with a name and an equals sign is an override for that name exactly if the
name has no equals sign and is tidy, and something else than blanks follows. -/
theorem parse_named_iff {name value : String} {override : OptionOverride} :
    parse (name ++ "=" ++ value) = .ok override ∧ override.name = name ↔
      ('=' ∉ name.toList ∧ Text.Tidy name) ∧ Text.trim value ≠ "" ∧
        override = ⟨name, Text.trim value⟩ := by
  have chars : (name ++ "=" ++ value).toList = name.toList ++ '=' :: value.toList := by simp
  rw [parse_eq_ok_iff]
  constructor
  · rintro ⟨⟨before, after, cut, named, valued, some_name, some_value⟩, rfl⟩
    obtain ⟨absent, text_eq⟩ := Text.cut_eq_some_iff.mp cut
    have no_sign : '=' ∉ override.name.toList := by
      rw [← named, Text.toList_trim]
      exact fun member => absent (Text.mem_of_mem_trimmed member)
    have uncut := Text.cut_eq_some_iff.mpr ⟨no_sign, chars⟩
    obtain ⟨rfl, rfl⟩ := Prod.mk.inj (Option.some.inj (cut.symm.trans uncut))
    refine ⟨⟨no_sign, some_name, named⟩, by rwa [valued], ?_⟩
    rw [valued]
  · rintro ⟨⟨no_sign, some_name, tidy⟩, some_value, rfl⟩
    exact ⟨⟨name, value, Text.cut_eq_some_iff.mpr ⟨no_sign, chars⟩, tidy, rfl, some_name,
      some_value⟩, rfl⟩

end OptionOverride

namespace OptionSchema

/-- Whether the text of an option and a value is an override for that option which sets it to that
value and leaves every other option at its default. -/
def Selects (schema : OptionSchema) (name : String) (value : OptionValue) : Prop :=
  ∃ override values, OptionOverride.parse (name ++ "=" ++ value.display) = .ok override ∧
    override.name = name ∧ schema.resolve [override] = .ok values ∧
    values.get? name = some value ∧
    ∀ other, other ≠ name → values.get? other = (schema.get? other).map (·.default)

variable {schema : OptionSchema} {decl : OptionDecl} {override : OptionOverride} {name : String}
  {value : OptionValue}

/-- One override leaves all options but its own at their defaults. -/
theorem resolve_singleton_iff (declared : schema.get? override.name = some decl) :
    (∃ values, schema.resolve [override] = .ok values ∧ values.get? override.name = some value ∧
        ∀ other, other ≠ override.name →
          values.get? other = (schema.get? other).map (·.default)) ↔
      decl.FirstSpelled override.value value := by
  have alone : schema.resolve [override] = schema.apply schema.defaults override :=
    resolve_concat [] override
  constructor
  · rintro ⟨values, resolved, set, -⟩
    obtain ⟨decl', chosen, declared', first, get?_eq⟩ := apply_eq_ok (alone ▸ resolved)
    obtain rfl := Option.some.inj (declared.symm.trans declared')
    rw [get?_eq, if_pos rfl] at set
    rwa [← Option.some.inj set]
  · intro first
    obtain ⟨values, resolved⟩ : ∃ values, schema.resolve [override] = .ok values := by
      obtain ⟨front, back, listed, spelled, -⟩ := first
      rw [exists_resolve_eq_ok_iff]
      intro single member
      rw [List.mem_singleton.mp member]
      exact ⟨decl, declared, value, by simp [listed], spelled⟩
    obtain ⟨decl', chosen, declared', first', get?_eq⟩ := apply_eq_ok (alone ▸ resolved)
    obtain rfl := Option.some.inj (declared.symm.trans declared')
    rw [← OptionDecl.valueNamed?_eq_some_iff] at first first'
    refine ⟨values, resolved, ?_, fun other different => ?_⟩
    · rw [get?_eq, if_pos rfl, ← first', first]
    · rw [get?_eq, if_neg (Ne.symm different), get?_defaults]

/-- A value of an option is chosen by its text exactly if the name of the option has no equals sign,
neither text is empty or has blanks at its ends, and the value is the first that its text names. -/
theorem selects_by_text_iff (declared : schema.get? name = some decl) (value : OptionValue) :
    schema.Selects name value ↔
      ('=' ∉ name.toList ∧ Text.Tidy name) ∧ Text.Tidy value.display ∧
        decl.FirstSpelled value.display value := by
  constructor
  · rintro ⟨override, values, read, named, resolved, set, rest⟩
    obtain ⟨plain, some_value, rfl⟩ := OptionOverride.parse_named_iff.mp ⟨read, named⟩
    have first : decl.FirstSpelled (Text.trim value.display) value :=
      (resolve_singleton_iff declared).mp ⟨values, resolved, set, rest⟩
    have tidy := OptionValue.trim_display_of_spelled first.spelled
    rw [tidy] at first some_value
    exact ⟨plain, ⟨some_value, tidy⟩, first⟩
  · rintro ⟨plain, ⟨some_value, tidy⟩, first⟩
    rw [← tidy] at some_value
    obtain ⟨read, named⟩ := OptionOverride.parse_named_iff.mpr ⟨plain, some_value, rfl⟩
    rw [tidy] at read
    obtain ⟨values, resolved, set, rest⟩ :=
      (@resolve_singleton_iff schema decl ⟨name, value.display⟩ value declared).mpr first
    exact ⟨_, values, read, rfl, resolved, set, rest⟩

end OptionSchema

namespace Recipe

/-- Of the values of `mode` the switch is chosen by its text, and the text that is spelled the same
and stands behind it is not. -/
theorem small_switch_selected :
    ∃ recipe decl, FromSmall mixedOptions recipe ∧
      recipe.options.get? "mode" = some decl ∧
      (OptionValue.bool true ∈ decl.values ∧ recipe.options.Selects "mode" (.bool true)) ∧
      OptionValue.text "True" ∈ decl.values ∧ ¬recipe.options.Selects "mode" (.text "True") := by
  obtain ⟨recipe, -, read, -, fit⟩ := exists_of_prepareSmall? mixedOptions plainOptions
    (fun recipe _ => decide (recipe.options.get? "mode" =
      some ⟨[.text "fast", .bool true, .text "True"], .text "True"⟩)) (by decide +kernel)
  have declared := of_decide_eq_true fit
  refine ⟨recipe, _, read, declared, ⟨by simp, ?_⟩, by simp, ?_⟩
  · rw [OptionSchema.selects_by_text_iff declared]
    refine ⟨by decide, by decide, [.text "fast"], [.text "True"], rfl,
      OptionValue.spelled_display _, ?_⟩
    simp only [List.mem_singleton, forall_eq, ← OptionValue.matchesText_iff]
    decide
  · rw [OptionSchema.selects_by_text_iff declared]
    rintro ⟨-, -, first⟩
    rw [← OptionDecl.valueNamed?_eq_some_iff] at first
    exact absurd first (by decide)

/-- An option of an accepted recipe may have the empty text as a value, and the text that would
choose it is no override. -/
theorem small_empty_text_unread :
    ∃ recipe decl,
      FromSmall "level = \x7b values = [\"\", \"high\"], default = \"high\" \x7d" recipe ∧
      recipe.options.get? "level" = some decl ∧ OptionValue.text "" ∈ decl.values ∧
      ¬∃ override,
        OptionOverride.parse ("level" ++ "=" ++ (OptionValue.text "").display) = .ok override := by
  obtain ⟨recipe, -, read, -, fit⟩ := exists_of_prepareSmall?
    "level = \x7b values = [\"\", \"high\"], default = \"high\" \x7d" plainOptions
    (fun recipe _ => decide (recipe.options.get? "level" =
      some ⟨[.text "", .text "high"], .text "high"⟩)) (by decide +kernel)
  refine ⟨recipe, _, read, of_decide_eq_true fit, by simp, ?_⟩
  have refused : OptionOverride.parse ("level" ++ "=" ++ (OptionValue.text "").display) =
      .error (.malformedOverride "level=") := rfl
  rintro ⟨override, accepted⟩
  exact absurd (refused.symm.trans accepted) (by simp)

end Recipe
end PackageBuild
