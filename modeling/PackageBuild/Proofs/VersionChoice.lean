import PackageBuild.Proofs.ManifestAcceptance
/-!
# The choice of a version

A version is an override, a tag without its `v`, or the version of the manifest. Blank signals count
as absent and a manifest with a blank version is refused, yet a version can be blank: a tag is
looked at before its `v` is dropped, and what follows the `v` may be blanks only.
-/

namespace PackageBuild

/-! ## Where a version comes from -/

namespace VersionResolver

/-- The version that a resolver takes from signals and the version of a manifest, when it does not
refuse them. -/
inductive Chooses (resolver : VersionResolver) (signals : Signals) (fallback : String) :
    ResolvedVersion → Prop where
  | override {version : String} (overridden : signals.versionOverride = some version) :
      Chooses resolver signals fallback ⟨version, .override⟩
  | tag {tag : String} (free : signals.versionOverride = none) (tagged : signals.ciTag = some tag)
      (nonempty : strippedTag tag ≠ "") (first : resolver.policy = .tagOverFallback) :
      Chooses resolver signals fallback ⟨strippedTag tag, .tag⟩
  | fallback (free : signals.versionOverride = none)
      (passed : resolver.policy = .fallbackOverTag ∨ signals.ciTag.bind tagVersion = none) :
      Chooses resolver signals fallback ⟨fallback, .fallback⟩

variable {resolver : VersionResolver} {signals : Signals} {fallback : String}
  {version : ResolvedVersion}

theorem chooses_of_resolve (resolved : resolver.resolve signals fallback = .ok version) :
    resolver.Chooses signals fallback version := by
  unfold resolve at resolved
  split at resolved
  · rename_i overridden _
    split at resolved
    · cases resolved
    · obtain rfl := Except.ok.inj resolved
      exact .override overridden
  · rename_i overridden _
    obtain rfl := Except.ok.inj resolved
    exact .override overridden
  · rename_i free announced
    obtain ⟨tag, tagged, nonempty, rfl⟩ := bind_tagVersion_eq_some_iff.mp announced
    split at resolved
    · rename_i first
      obtain rfl := Except.ok.inj resolved
      exact .tag free tagged nonempty first
    · rename_i last
      obtain rfl := Except.ok.inj resolved
      exact .fallback free (Or.inl last)
  · rename_i free silent
    obtain rfl := Except.ok.inj resolved
    exact .fallback free (Or.inr silent)

end VersionResolver

/-! ## Blank versions -/

namespace Signals

theorem captured_iff {lookup : String → Option String} {name text : String} :
    ((lookup name).filter fun value => !Text.blank value) = some text ↔
      lookup name = some text ∧ Text.blank text = false := by
  simp [Option.filter_eq_some_iff]

theorem not_captured_iff {lookup : String → Option String} {name : String} :
    ((lookup name).filter fun value => !Text.blank value) = none ↔
      ∀ text, lookup name = some text → Text.blank text = true := by
  simp [Option.filter_eq_none_iff]

end Signals

@[simp]
theorem strippedTag_v_append (version : String) : strippedTag ("v" ++ version) = version := by
  simp [strippedTag]

/-- Of a tag that is not blank only a leading `v` can be all that is not blank. -/
theorem blank_strippedTag_iff {tag : String} (content : Text.blank tag = false) :
    Text.blank (strippedTag tag) = true ↔
      ∃ rest, tag = "v" ++ rest ∧ Text.blank rest = true := by
  constructor
  · intro blank
    unfold strippedTag at blank
    split at blank
    · rename_i rest chars
      refine ⟨String.ofList rest, ?_, blank⟩
      rw [← String.toList_inj, chars, String.toList_append, String.toList_ofList]
      simp
    · exact absurd (content.symm.trans blank) Bool.false_ne_true
  · rintro ⟨rest, rfl, blank⟩
    rwa [strippedTag_v_append]

/-- A version that is chosen from captured signals and the version of a recipe is blank exactly if
it is what follows the `v` of a tag. -/
theorem VersionResolver.blank_iff_of_chooses {resolver : VersionResolver} {vars : SignalVars}
    {lookup : String → Option String} {fallback : String} {version : ResolvedVersion}
    (chooses : resolver.Chooses (Signals.capture vars lookup) fallback version)
    (content : Text.blank fallback = false) :
    Text.blank version.value = true ↔
      resolver.policy = .tagOverFallback ∧
      (∀ text, lookup vars.versionOverride = some text → Text.blank text = true) ∧
      ∃ rest, lookup vars.ciTag = some ("v" ++ rest) ∧ rest ≠ "" ∧ Text.blank rest = true := by
  cases chooses with
  | override overridden =>
      obtain ⟨held, filled⟩ := Signals.captured_iff.mp overridden
      constructor
      · intro blank
        exact absurd (filled.symm.trans blank) Bool.false_ne_true
      · rintro ⟨-, free, -⟩
        exact free _ held
  | @tag tag free tagged nonempty first =>
      obtain ⟨held, filled⟩ := Signals.captured_iff.mp tagged
      rw [blank_strippedTag_iff filled]
      constructor
      · rintro ⟨rest, rfl, blank⟩
        rw [strippedTag_v_append] at nonempty
        exact ⟨first, Signals.not_captured_iff.mp free, rest, held, nonempty, blank⟩
      · rintro ⟨-, -, rest, held', -, blank⟩
        exact ⟨rest, Option.some.inj (held.symm.trans held'), blank⟩
  | fallback free passed =>
      constructor
      · intro blank
        exact absurd (content.symm.trans blank) Bool.false_ne_true
      · rintro ⟨first, -, rest, held, nonempty, -⟩
        have tagged : (Signals.capture vars lookup).ciTag = some ("v" ++ rest) :=
          Signals.captured_iff.mpr ⟨held, by simp [Text.blank, Text.isBlank]⟩
        have announced := bind_tagVersion_eq_some_iff.mpr
          ⟨_, tagged, by rwa [strippedTag_v_append], rfl⟩
        rcases passed with last | silent
        · exact absurd (first.symm.trans last) (by simp)
        · exact absurd (silent.symm.trans announced) (by simp)

namespace Recipe

variable {isUrl : String → Bool} {content : String} {path : Path} {recipe : Recipe}
  {settings : Settings} {signals : Signals} {resolver : VersionResolver}
  {overrides : List OptionOverride} {evaluation : Evaluation}

theorem version_not_blank (read : parse isUrl content path = .ok recipe) :
    Text.blank recipe.package.version = false := by
  obtain ⟨manifest, -, sound, made⟩ := exists_manifest_of_parse read
  rw [made.package, Text.blank, List.all_eq_false]
  obtain ⟨c, member, solid⟩ := sound.versioned
  exact ⟨c, member, by simp [solid]⟩

theorem resolve_of_evaluate
    (evaluated : recipe.evaluate settings signals resolver overrides = .ok evaluation) :
    resolver.resolve signals recipe.package.version = .ok evaluation.descriptor.version :=
  (evaluate_eq_ok_iff.mp evaluated).1

/-- The version of an evaluated recipe is blank exactly if it is what follows the `v` of a tag: when
tags go first, there is no override other than a blank one, and only blanks follow the `v`. -/
theorem blank_version_iff (read : parse isUrl content path = .ok recipe) {vars : SignalVars}
    {lookup : String → Option String}
    (evaluated : recipe.evaluate settings (Signals.capture vars lookup) resolver overrides =
      .ok evaluation) :
    Text.blank evaluation.descriptor.version.value = true ↔
      resolver.policy = .tagOverFallback ∧
      (∀ text, lookup vars.versionOverride = some text → Text.blank text = true) ∧
      ∃ rest, lookup vars.ciTag = some ("v" ++ rest) ∧ rest ≠ "" ∧ Text.blank rest = true := by
  exact VersionResolver.blank_iff_of_chooses
    (VersionResolver.chooses_of_resolve (resolve_of_evaluate evaluated)) (version_not_blank read)

/-- An environment in which nothing but a blank follows the `v` of the tag. -/
def blankTag : String → Option String
  | "CIRCLE_TAG" => some "v "
  | _ => none

/-- What a test says of the small manifest evaluated in that environment holds of the recipe that it
parses to. -/
theorem exists_of_blankTag (resolver : VersionResolver) (test : Evaluation → Bool)
    (found : ((prepareSmall? "" plainOptions).any fun build =>
      (build.1.evaluate plainOptions.settings (Signals.capture {} blankTag) resolver
        []).toOption.any test) = true) :
    ∃ recipe evaluation, FromSmall "" recipe ∧
      recipe.evaluate plainOptions.settings (Signals.capture {} blankTag) resolver [] =
        .ok evaluation ∧ test evaluation = true := by
  obtain ⟨recipe, _, read, -, tested⟩ := exists_of_prepareSmall? "" plainOptions
    (fun recipe _ => (recipe.evaluate plainOptions.settings (Signals.capture {} blankTag) resolver
      []).toOption.any test) found
  cases evaluated : recipe.evaluate plainOptions.settings (Signals.capture {} blankTag) resolver
      [] with
  | error fault => simp [evaluated, Except.toOption] at tested
  | ok evaluation =>
      exact ⟨recipe, evaluation, read, evaluated,
        by simpa [evaluated, Except.toOption] using tested⟩

/-- The version of the manifest is taken before what is left of the tag. -/
theorem small_version_with_blank_tag :
    ∃ recipe evaluation, FromSmall "" recipe ∧
      recipe.evaluate plainOptions.settings (Signals.capture {} blankTag)
        { policy := .fallbackOverTag } [] = .ok evaluation ∧
      Text.blank evaluation.descriptor.version.value = false := by
  obtain ⟨recipe, evaluation, read, evaluated, -⟩ := exists_of_blankTag
    { policy := .fallbackOverTag } (fun _ => true) (by decide +kernel)
  refine ⟨recipe, evaluation, read, evaluated, ?_⟩
  rw [← Bool.not_eq_true, blank_version_iff (read fun _ => false) evaluated]
  rintro ⟨first, -⟩
  cases first

/-- When tags go first the small manifest gets the blank as its version. -/
theorem small_version_blank :
    ∃ recipe evaluation, FromSmall "" recipe ∧
      recipe.evaluate plainOptions.settings (Signals.capture {} blankTag) {} [] =
        .ok evaluation ∧
      evaluation.descriptor.version = ⟨" ", .tag⟩ ∧
      ¬∃ c ∈ evaluation.descriptor.version.value.toList, Text.isBlank c = false := by
  obtain ⟨recipe, evaluation, read, evaluated, version⟩ := exists_of_blankTag {}
    (fun evaluation => decide (evaluation.descriptor.version = ⟨" ", .tag⟩)) (by decide +kernel)
  have version := of_decide_eq_true version
  refine ⟨recipe, evaluation, read, evaluated, version, ?_⟩
  rw [version]
  rintro ⟨c, member, solid⟩
  obtain rfl : c = ' ' := List.mem_singleton.mp member
  cases solid

end Recipe
end PackageBuild
