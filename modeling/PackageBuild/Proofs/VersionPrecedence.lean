import PackageBuild.Proofs.VersionChoice
/-!
# The precedence of versions

A resolver fails for one reason only: it refuses conflicts and is given an override and a tag that
name different versions. Otherwise an override goes first, and the policy says which of the tag and
the manifest goes next. What goes behind has no influence: two runs that differ only there choose
the same version from the same source.
-/

namespace PackageBuild

/-- The tag says a version, which is what is left of it without a leading `v`. -/
def Signals.Tagged (signals : Signals) (version : String) : Prop :=
  version ≠ "" ∧ ∃ tag, signals.ciTag = some tag ∧ strippedTag tag = version

theorem Signals.tagged_iff {signals : Signals} {version : String} :
    signals.Tagged version ↔ signals.ciTag.bind tagVersion = some version := by
  rw [bind_tagVersion_eq_some_iff]
  constructor
  · rintro ⟨nonempty, tag, tagged, rfl⟩
    exact ⟨tag, tagged, nonempty, rfl⟩
  · rintro ⟨tag, tagged, nonempty, rfl⟩
    exact ⟨nonempty, tag, tagged, rfl⟩

theorem Signals.not_tagged_iff {signals : Signals} :
    (∀ version, ¬signals.Tagged version) ↔ signals.ciTag.bind tagVersion = none := by
  simp only [tagged_iff, Option.eq_none_iff_forall_ne_some, ne_eq]

namespace VersionResolver

variable {resolver : VersionResolver} {signals : Signals} {fallback : String}
  {version version' : ResolvedVersion}

/-! ## Failures -/

/-- Whether a resolver refuses signals: conflicts are rejected, and an override and a tag are both
there and name different versions. -/
def Refuses (resolver : VersionResolver) (signals : Signals) : Prop :=
  resolver.rejectConflicting = true ∧ ∃ override tag,
    signals.versionOverride = some override ∧ signals.Tagged tag ∧ tag ≠ override

theorem exists_conflict_iff :
    (∃ fault, resolver.Conflict signals fault) ↔ resolver.Refuses signals := by
  constructor
  · rintro ⟨-, rejects, overridden, tagged, nonempty, differ⟩
    exact ⟨rejects, _, _, overridden, ⟨nonempty, _, tagged, rfl⟩, differ⟩
  · rintro ⟨rejects, override, version, overridden, ⟨nonempty, tag, tagged, rfl⟩, differ⟩
    exact ⟨_, .disagreement rejects overridden tagged nonempty differ⟩

theorem exists_resolve_eq_error_iff :
    (∃ fault, resolver.resolve signals fallback = .error fault) ↔ resolver.Refuses signals := by
  simp only [resolve_eq_error_iff, exists_conflict_iff]

/-! ## Choices -/

theorem exists_chooses (resolver : VersionResolver) (signals : Signals) (fallback : String) :
    ∃ version, resolver.Chooses signals fallback version := by
  cases overridden : signals.versionOverride with
  | some override => exact ⟨_, .override overridden⟩
  | none =>
      cases announced : signals.ciTag.bind tagVersion with
      | none => exact ⟨_, .fallback overridden (Or.inr announced)⟩
      | some version =>
          obtain ⟨tag, tagged, nonempty, rfl⟩ := bind_tagVersion_eq_some_iff.mp announced
          cases policy : resolver.policy with
          | tagOverFallback => exact ⟨_, .tag overridden tagged nonempty policy⟩
          | fallbackOverTag => exact ⟨_, .fallback overridden (Or.inl policy)⟩

/-- There is never more than one thing to choose. -/
theorem Chooses.unique (chooses : resolver.Chooses signals fallback version)
    (chooses' : resolver.Chooses signals fallback version') : version = version' := by
  have not_passed {tag : String} (tagged : signals.ciTag = some tag)
      (nonempty : strippedTag tag ≠ "") (first : resolver.policy = .tagOverFallback)
      (passed : resolver.policy = .fallbackOverTag ∨ signals.ciTag.bind tagVersion = none) :
      False := by
    rcases passed with last | silent
    · exact absurd (first.symm.trans last) (by simp)
    · rw [bind_tagVersion_eq_some_iff.mpr ⟨tag, tagged, nonempty, rfl⟩] at silent
      cases silent
  cases chooses with
  | override overridden =>
      cases chooses' with
      | override overridden' => rw [Option.some.inj (overridden.symm.trans overridden')]
      | tag free => exact absurd (overridden.symm.trans free) (by simp)
      | fallback free => exact absurd (overridden.symm.trans free) (by simp)
  | tag free tagged nonempty first =>
      cases chooses' with
      | override overridden' => exact absurd (overridden'.symm.trans free) (by simp)
      | tag _ tagged' => rw [Option.some.inj (tagged.symm.trans tagged')]
      | fallback _ passed => exact (not_passed tagged nonempty first passed).elim
  | fallback free passed =>
      cases chooses' with
      | override overridden' => exact absurd (overridden'.symm.trans free) (by simp)
      | tag _ tagged nonempty first => exact (not_passed tagged nonempty first passed).elim
      | fallback => rfl

theorem resolve_eq_ok_iff : resolver.resolve signals fallback = .ok version ↔
    ¬resolver.Refuses signals ∧ resolver.Chooses signals fallback version := by
  constructor
  · intro resolved
    refine ⟨fun refuses => ?_, chooses_of_resolve resolved⟩
    obtain ⟨fault, refused⟩ : ∃ fault, resolver.resolve signals fallback = .error fault :=
      exists_resolve_eq_error_iff.mpr refuses
    rw [refused] at resolved
    cases resolved
  · rintro ⟨accepts, chooses⟩
    cases resolved : resolver.resolve signals fallback with
    | error fault => exact absurd (exists_resolve_eq_error_iff.mp ⟨fault, resolved⟩) accepts
    | ok version' => rw [chooses.unique (chooses_of_resolve resolved)]

theorem resolve_of_lenient (lenient : resolver.rejectConflicting = false)
    (chooses : resolver.Chooses signals fallback version) :
    resolver.resolve signals fallback = .ok version := by
  refine resolve_eq_ok_iff.mpr ⟨fun ⟨rejects, _⟩ => ?_, chooses⟩
  rw [lenient] at rejects
  cases rejects

/-! ## What has no influence -/

theorem Chooses.of_tag (chooses : resolver.Chooses signals fallback version)
    (last : resolver.policy = .fallbackOverTag) (tag : Option String) :
    resolver.Chooses { signals with ciTag := tag } fallback version := by
  cases chooses with
  | override overridden => exact .override overridden
  | tag _ _ _ first => exact absurd (first.symm.trans last) (by simp)
  | fallback free => exact .fallback free (Or.inl last)

theorem Chooses.of_fallback (chooses : resolver.Chooses signals fallback version)
    (first : resolver.policy = .tagOverFallback)
    (said : signals.versionOverride ≠ none ∨ ∃ tag, signals.Tagged tag) (other : String) :
    resolver.Chooses signals other version := by
  cases chooses with
  | override overridden => exact .override overridden
  | tag free tagged nonempty first => exact .tag free tagged nonempty first
  | fallback free passed =>
      rcases said with overridden | ⟨tag, tagged⟩
      · exact absurd free overridden
      · rcases passed with last | silent
        · exact absurd (first.symm.trans last) (by simp)
        · exact absurd tagged (Signals.not_tagged_iff.mpr silent tag)

/-- A resolver fails exactly if it rejects conflicts and is given one, whatever its policy and the
manifest. Otherwise it takes the override, or else the tag if the policy lets it go first, or else
the version of the manifest. So when conflicts are not rejected, a tag behind the manifest has no
influence, nor has a manifest behind a tag or an override, nor anything behind an override. -/
theorem resolve_by_precedence (resolver : VersionResolver) (signals : Signals)
    (fallback : String) :
    ((∃ fault, resolver.resolve signals fallback = .error fault) ↔ resolver.Refuses signals) ∧
    (∀ version, resolver.resolve signals fallback = .ok version ↔
      ¬resolver.Refuses signals ∧ resolver.Chooses signals fallback version) ∧
    (resolver.rejectConflicting = false →
      (resolver.policy = .fallbackOverTag → ∃ version, ∀ tag,
        resolver.resolve { signals with ciTag := tag } fallback = .ok version) ∧
      (resolver.policy = .tagOverFallback →
        (signals.versionOverride ≠ none ∨ ∃ tag, signals.Tagged tag) →
        ∃ version, ∀ other, resolver.resolve signals other = .ok version) ∧
      ∀ override, signals.versionOverride = some override → ∀ policy tag other,
        resolve { resolver with policy := policy } { signals with ciTag := tag } other =
          .ok ⟨override, .override⟩) := by
  obtain ⟨version, chooses⟩ := resolver.exists_chooses signals fallback
  refine ⟨exists_resolve_eq_error_iff, fun version => resolve_eq_ok_iff,
    fun lenient => ⟨fun last => ⟨version, fun tag => ?_⟩,
      fun first said => ⟨version, fun other => ?_⟩, fun override overridden policy tag other => ?_⟩⟩
  · exact resolve_of_lenient lenient (chooses.of_tag last tag)
  · exact resolve_of_lenient lenient (chooses.of_fallback first said other)
  · exact resolve_of_lenient lenient (.override overridden)

/-- Signals with a tag only. -/
def taggedSignals : Signals := { ciTag := some "v2.0.1" }

/-- The two policies disagree on a tag and a manifest, and each ignores what it puts last. -/
theorem tagged_by_either_policy :
    taggedSignals.Tagged "2.0.1" ∧
    (∃ version, ∀ tag, resolve { policy := .fallbackOverTag } { taggedSignals with ciTag := tag }
      "0.0.14" = .ok version) ∧
    (∃ version, ∀ other, resolve {} taggedSignals other = .ok version) ∧
    ∀ policy tag other, resolve { policy := policy }
      { taggedSignals with versionOverride := some "3.0.0", ciTag := tag } other =
        .ok ⟨"3.0.0", .override⟩ := by
  have tagged : taggedSignals.Tagged "2.0.1" := ⟨by decide, "v2.0.1", rfl, by decide +kernel⟩
  obtain ⟨-, -, last⟩ :=
    resolve_by_precedence { policy := .fallbackOverTag } taggedSignals "0.0.14"
  obtain ⟨-, -, first⟩ := resolve_by_precedence {} taggedSignals "0.0.14"
  obtain ⟨-, -, overridden⟩ := resolve_by_precedence {}
    { taggedSignals with versionOverride := some "3.0.0" } "0.0.14"
  exact ⟨tagged, (last rfl).1 rfl, (first rfl).2.1 rfl (Or.inr ⟨_, tagged⟩),
    (overridden rfl).2.2 "3.0.0" rfl⟩

end VersionResolver
end PackageBuild
