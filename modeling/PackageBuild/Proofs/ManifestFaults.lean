import PackageBuild.Proofs.PreparationFaults
import PackageBuild.Proofs.RequirementText
/-!
# Faults of manifests

A manifest is checked five times: for the name, the version and the address of the package, for the
defaults of its options and for requirements that repeat a library. The first check that finds
something says why it is refused, and a manifest for which none does makes sense.
-/

namespace PackageBuild

/-! ## Repeated requirements -/

namespace Requirements

/-- Whether a requirement repeats the library of exactly one earlier one, and no requirement before
it repeats a library. -/
inductive Repeats (requirements : List Requirement) : RecipeError → Prop
  | repeated {front back : List Requirement} {earlier later : Requirement}
      (split : requirements = front ++ later :: back)
      (distinct : (front.map Requirement.name).Nodup)
      (only : front.filter (·.name = later.name) = [earlier]) :
      Repeats requirements (.duplicateRequirement later.name earlier.display later.display)

variable {requirements seen rest : List Requirement} {earlier later r : Requirement}
  {fault : RecipeError}

theorem filter_eq_singleton (distinct : (seen.map Requirement.name).Nodup) {name : String}
    (found : seen.find? (·.name = name) = some earlier) :
    seen.filter (·.name = name) = [earlier] := by
  induction seen with
  | nil => cases found
  | cons r seen induction =>
      rw [List.map_cons, List.nodup_cons] at distinct
      by_cases same : r.name = name
      · have first : r = earlier := by simpa [same] using found
        have others : seen.filter (·.name = name) = [] := by
          refine List.filter_eq_nil_iff.mpr fun other member again => distinct.1 ?_
          exact List.mem_map.mpr ⟨other, member, (of_decide_eq_true again).trans same.symm⟩
        rw [List.filter_cons_of_pos (by simpa using same), others, first]
      · rw [List.filter_cons_of_neg (by simpa using same)]
        exact induction distinct.2 (by simpa [same] using found)

/-- The requirement that repeats one of those before it comes first behind requirements that repeat
none. -/
theorem firstRepeat_eq_some_iff (distinct : (seen.map Requirement.name).Nodup) :
    firstRepeat seen rest = some (earlier, later) ↔
      ∃ front back, rest = front ++ later :: back ∧
        ((seen ++ front).map Requirement.name).Nodup ∧
        (seen ++ front).filter (·.name = later.name) = [earlier] := by
  induction rest generalizing seen with
  | nil => simp [firstRepeat]
  | cons r rest induction =>
      rw [firstRepeat]
      split
      · rename_i first found
        constructor
        · intro repeated
          obtain ⟨rfl, rfl⟩ := Prod.mk.inj (Option.some.inj repeated)
          refine ⟨[], rest, rfl, ?_, ?_⟩
          · rwa [List.append_nil]
          · rw [List.append_nil]
            exact filter_eq_singleton distinct found
        · rintro ⟨front, back, split, distinct', only⟩
          cases front with
          | nil =>
              obtain ⟨rfl, -⟩ := List.cons.inj split
              rw [List.append_nil, filter_eq_singleton distinct found] at only
              rw [(List.cons.inj only).1]
          | cons r' front =>
              obtain ⟨rfl, -⟩ := List.cons.inj split
              have known : r.name ∈ seen.map Requirement.name :=
                List.mem_map.mpr ⟨first, List.mem_of_find?_eq_some found,
                  by simpa using List.find?_some found⟩
              rw [List.map_append] at distinct'
              exact absurd rfl ((List.nodup_append.mp distinct').2.2 _ known r.name (by simp))
      · rename_i fresh
        rw [induction (nodup_concat distinct fresh)]
        constructor
        · rintro ⟨front, back, rfl, distinct', only⟩
          exact ⟨r :: front, back, rfl, by simpa using distinct', by simpa using only⟩
        · rintro ⟨front, back, split, distinct', only⟩
          cases front with
          | nil =>
              obtain ⟨rfl, -⟩ := List.cons.inj split
              have found := congrArg List.head? only
              rw [List.append_nil, List.head?_filter, fresh] at found
              cases found
          | cons r' front =>
              obtain ⟨rfl, rfl⟩ := List.cons.inj split
              exact ⟨front, back, rfl, by simpa using distinct', by simpa using only⟩

theorem ofList_eq_error_iff : ofList requirements = .error fault ↔ Repeats requirements fault := by
  have none_seen : (([] : List Requirement).map Requirement.name).Nodup := List.nodup_nil
  constructor
  · intro refused
    unfold ofList at refused
    split at refused
    · rename_i earlier later found
      obtain rfl := Except.error.inj refused
      obtain ⟨front, back, split, distinct, only⟩ := (firstRepeat_eq_some_iff none_seen).mp found
      exact .repeated split distinct only
    · cases refused
  · rintro ⟨split, distinct, only⟩
    have found := (firstRepeat_eq_some_iff none_seen).mpr ⟨_, _, split, distinct, only⟩
    unfold ofList
    split
    · rename_i found'
      obtain ⟨rfl, rfl⟩ := Prod.mk.inj (Option.some.inj (found'.symm.trans found))
      rfl
    · rename_i distinct'
      cases distinct'.symm.trans found

theorem toList_of_ofList {made : Requirements} (listed : ofList requirements = .ok made) :
    made.toList = requirements := by
  unfold ofList at listed
  split at listed
  · cases listed
  · obtain rfl := Except.ok.inj listed
    rfl

theorem not_repeats_iff :
    (∀ fault, ¬Repeats requirements fault) ↔ (requirements.map Requirement.name).Nodup := by
  constructor
  · intro sound
    cases listed : ofList requirements with
    | error fault => exact absurd (ofList_eq_error_iff.mp listed) (sound fault)
    | ok made => exact toList_of_ofList listed ▸ made.nodup
  · intro distinct fault repeats
    cases repeats with
    | @repeated front back earlier later split _ only =>
        have member : earlier ∈ front.filter (·.name = later.name) := by simp [only]
        obtain ⟨before, same⟩ := List.mem_filter.mp member
        rw [split, List.map_append, List.map_cons] at distinct
        exact (List.nodup_append.mp distinct).2.2 _ (List.mem_map_of_mem before) _
          List.mem_cons_self (of_decide_eq_true same)

end Requirements

/-! ## Defaults of options -/

namespace OptionSchema

/-- Whether the default of an option is none of its values, while it is for all options whose names
come before. -/
inductive Misdeclared (decls : Std.ExtTreeMap String OptionDecl) : RecipeError → Prop
  | outside {name : String} {decl : OptionDecl} (declared : decls[name]? = some decl)
      (foreign : decl.default ∉ decl.values)
      (first : ∀ {other : String} {decl' : OptionDecl}, other < name →
        decls[other]? = some decl' → decl'.default ∈ decl'.values) :
      Misdeclared decls (.invalidOptionValue name decl.default.display (some decl.allowed))

variable {decls : Std.ExtTreeMap String OptionDecl} {name : String} {decl : OptionDecl}
  {fault : RecipeError}

theorem misdeclared?_eq_some_iff : misdeclared? decls = some (name, decl) ↔
    decls[name]? = some decl ∧ decl.default ∉ decl.values ∧ ∀ {other decl'}, other < name →
      decls[other]? = some decl' → decl'.default ∈ decl'.values := by
  have ordered := decls.ordered_keys_toList
  rw [misdeclared?, List.find?_eq_some_iff_append, ← Std.ExtTreeMap.mem_toList_iff_getElem?_eq_some]
  constructor
  · rintro ⟨foreign, front, back, split, sound⟩
    refine ⟨by simp [split], by simpa using foreign, ?_⟩
    intro other decl' less declared
    rw [← Std.ExtTreeMap.mem_toList_iff_getElem?_eq_some, split, List.mem_append,
      List.mem_cons] at declared
    rcases declared with before | same | behind
    · simpa using sound _ before
    · obtain ⟨rfl, -⟩ := Prod.mk.inj same
      exact absurd less (String.lt_irrefl other)
    · rw [split] at ordered
      have greater := (List.pairwise_cons.mp (List.pairwise_append.mp ordered).2.1).1 _ behind
      exact absurd less (String.lt_asymm (compareOfLessAndEq_eq_lt.mp greater))
  · rintro ⟨declared, foreign, first⟩
    obtain ⟨front, back, split⟩ := List.append_of_mem declared
    refine ⟨by simpa using foreign, front, back, split, ?_⟩
    rintro ⟨other, decl'⟩ before
    rw [split] at ordered
    have less := (List.pairwise_append.mp ordered).2.2 _ before _ List.mem_cons_self
    have declared' : decls[other]? = some decl' := by
      rw [← Std.ExtTreeMap.mem_toList_iff_getElem?_eq_some, split]
      exact List.mem_append_left _ before
    simpa using first (compareOfLessAndEq_eq_lt.mp less) declared'

theorem ofDecls_eq_error_iff : ofDecls decls = .error fault ↔ Misdeclared decls fault := by
  constructor
  · intro refused
    unfold ofDecls at refused
    split at refused
    · rename_i name decl found
      obtain rfl := Except.error.inj refused
      obtain ⟨declared, foreign, first⟩ := misdeclared?_eq_some_iff.mp found
      exact .outside declared foreign first
    · cases refused
  · rintro ⟨declared, foreign, first⟩
    have found := misdeclared?_eq_some_iff.mpr ⟨declared, foreign, first⟩
    unfold ofDecls
    split
    · rename_i found'
      obtain ⟨rfl, rfl⟩ := Prod.mk.inj (Option.some.inj (found'.symm.trans found))
      rfl
    · rename_i sound
      cases sound.symm.trans found

theorem decls_of_ofDecls {schema : OptionSchema} (made : ofDecls decls = .ok schema) :
    schema.decls = decls := by
  unfold ofDecls at made
  split at made
  · cases made
  · obtain rfl := Except.ok.inj made
    rfl

theorem not_misdeclared_iff : (∀ fault, ¬Misdeclared decls fault) ↔
    ∀ (name : String) (decl : OptionDecl),
      decls[name]? = some decl → decl.default ∈ decl.values := by
  constructor
  · intro sound name decl declared
    cases made : ofDecls decls with
    | error fault => exact absurd (ofDecls_eq_error_iff.mp made) (sound fault)
    | ok schema => exact schema.default_mem (decls_of_ofDecls made ▸ declared)
  · rintro sound fault ⟨declared, foreign, -⟩
    exact foreign (sound _ _ declared)

end OptionSchema

/-! ## Metadata -/

namespace PackageMetadata

/-- Whether a text is the name of a package. -/
def Name : String → Prop := Text.MadeOf ['_', '-', '.']

/-- Whether a package is called by what is not a name. -/
inductive Misnamed (package : PackageMetadata) : RecipeError → Prop
  | misnamed (foreign : ¬Name package.name) :
      Misnamed package (.invalidSetting "package.name" package.name
        (some "letters, digits, `_`, `-` or `.`"))

/-- Whether the version of a package has nothing but blanks. -/
inductive Unversioned (package : PackageMetadata) : RecipeError → Prop
  | blank (blank : ∀ c ∈ package.version.toList, Text.isBlank c = true) :
      Unversioned package (.invalidSetting "package.version" package.version
        (some "a non-empty fallback version"))

/-- Whether a package has an address that is not one. -/
inductive Misaddressed (isUrl : String → Bool) (package : PackageMetadata) : RecipeError → Prop
  | invalid {url : String} (given : package.url = some url) (invalid : isUrl url = false) :
      Misaddressed isUrl package (.invalidUrl url)

variable {isUrl : String → Bool} {package : PackageMetadata} {fault : RecipeError}

theorem isName_iff {text : String} : isName text = true ↔ Name text := by
  simp [isName, isNameChar, Name, Text.MadeOf, or_assoc]

theorem misnamed_iff : package.Misnamed fault ↔ isName package.name = false ∧
    .invalidSetting "package.name" package.name (some "letters, digits, `_`, `-` or `.`") =
      fault := by
  rw [← Bool.not_eq_true, isName_iff]
  constructor
  · rintro ⟨foreign⟩
    exact ⟨foreign, rfl⟩
  · rintro ⟨foreign, rfl⟩
    exact ⟨foreign⟩

theorem unversioned_iff : package.Unversioned fault ↔ Text.blank package.version = true ∧
    .invalidSetting "package.version" package.version (some "a non-empty fallback version") =
      fault := by
  rw [Text.blank, List.all_eq_true]
  constructor
  · rintro ⟨blank⟩
    exact ⟨blank, rfl⟩
  · rintro ⟨blank, rfl⟩
    exact ⟨blank⟩

theorem misaddressed_iff : package.Misaddressed isUrl fault ↔
    ∃ url, package.url = some url ∧ isUrl url = false ∧ .invalidUrl url = fault := by
  constructor
  · rintro ⟨given, invalid⟩
    exact ⟨_, given, invalid, rfl⟩
  · rintro ⟨url, given, invalid, rfl⟩
    exact ⟨given, invalid⟩

end PackageMetadata

namespace Manifest

/-- The checks of a manifest in their order, each as what it refuses the manifest for. -/
def checks (isUrl : String → Bool) (manifest : Manifest) : List (RecipeError → Prop) :=
  [manifest.package.Misnamed, manifest.package.Unversioned, manifest.package.Misaddressed isUrl,
    fun fault => ∃ decls, manifest.options = some decls ∧ OptionSchema.Misdeclared decls fault,
    Requirements.Repeats manifest.package.requires]

/-- Whether a manifest makes sense. -/
structure Sound (isUrl : String → Bool) (manifest : Manifest) : Prop where
  named : PackageMetadata.Name manifest.package.name
  versioned : ∃ c ∈ manifest.package.version.toList, Text.isBlank c = false
  addressed : ∀ url, manifest.package.url = some url → isUrl url = true
  declared : ∀ decls, manifest.options = some decls → ∀ (name : String) (decl : OptionDecl),
    decls[name]? = some decl → decl.default ∈ decl.values
  distinct : (manifest.package.requires.map Requirement.name).Nodup

variable {isUrl : String → Bool} {manifest : Manifest} {package : PackageMetadata}
  {fault : RecipeError}

theorem metadataFault?_eq_some_iff : metadataFault? isUrl package = some fault ↔
    FirstFault (fun check => check)
      [package.Misnamed, package.Unversioned, package.Misaddressed isUrl] fault := by
  simp only [firstFault_cons_iff, not_firstFault_nil, PackageMetadata.misnamed_iff,
    PackageMetadata.unversioned_iff, PackageMetadata.misaddressed_iff, metadataFault?]
  cases PackageMetadata.isName package.name with
  | false => simp
  | true =>
      cases Text.blank package.version with
      | true => simp
      | false =>
          cases package.url with
          | none => simp
          | some url => cases valid : isUrl url <;> simp [valid]

/-- A manifest makes sense if no check finds anything. -/
theorem sound_iff :
    manifest.Sound isUrl ↔ ∀ check ∈ manifest.checks isUrl, ∀ fault, ¬check fault := by
  simp only [checks, List.forall_mem_cons, Requirements.not_repeats_iff]
  constructor
  · rintro ⟨named, ⟨c, member, solid⟩, addressed, declared, distinct⟩
    refine ⟨?_, ?_, ?_, ?_, distinct, nofun⟩
    · rintro _ ⟨foreign⟩
      exact foreign named
    · rintro _ ⟨blank⟩
      exact absurd (blank c member) (by simp [solid])
    · rintro _ ⟨given, invalid⟩
      exact absurd (addressed _ given) (by simp [invalid])
    · rintro fault ⟨decls, options, misdeclared⟩
      exact OptionSchema.not_misdeclared_iff.mpr (declared decls options) fault misdeclared
  · rintro ⟨named, versioned, addressed, declared, distinct, -⟩
    refine ⟨?_, ?_, ?_, ?_, distinct⟩
    · exact Classical.byContradiction fun foreign => named _ ⟨foreign⟩
    · refine Classical.byContradiction fun none_solid => versioned _ ⟨fun c member => ?_⟩
      exact eq_true_of_ne_false fun solid => none_solid ⟨c, member, solid⟩
    · intro url given
      exact eq_true_of_ne_false fun invalid => addressed _ ⟨given, invalid⟩
    · intro decls options
      exact OptionSchema.not_misdeclared_iff.mp fun fault misdeclared =>
        declared fault ⟨decls, options, misdeclared⟩

/-- The faults of the metadata, as a step of its own. -/
def refuseMetadata (isUrl : String → Bool) (package : PackageMetadata) : Except RecipeError Unit :=
  (metadataFault? isUrl package).elim (.ok ()) .error

/-- The options of a recipe: the declared ones, or else the standard ones. -/
def schema (manifest : Manifest) : Except RecipeError OptionSchema :=
  manifest.options.elim (.ok .standard) OptionSchema.ofDecls

theorem ofManifest_eq_steps (isUrl : String → Bool) (manifest : Manifest) (root : Path) :
    Recipe.ofManifest isUrl manifest root = (do
      refuseMetadata isUrl manifest.package
      let options ← manifest.schema
      let requires ← Requirements.ofList manifest.package.requires
      return ⟨manifest.package, options, requires, manifest.layout, manifest.consumer, root⟩) := by
  unfold Recipe.ofManifest refuseMetadata schema
  cases metadataFault? isUrl manifest.package <;> cases manifest.options <;> rfl

theorem checked_refuseMetadata (isUrl : String → Bool) (package : PackageMetadata) :
    Checked [package.Misnamed, package.Unversioned, package.Misaddressed isUrl]
      (refuseMetadata isUrl package) := by
  intro fault
  rw [← metadataFault?_eq_some_iff, refuseMetadata]
  cases metadataFault? isUrl package <;> simp

theorem schema_eq_error_iff : manifest.schema = .error fault ↔
    ∃ decls, manifest.options = some decls ∧ OptionSchema.Misdeclared decls fault := by
  unfold schema
  cases manifest.options with
  | none => simp
  | some decls => simp [OptionSchema.ofDecls_eq_error_iff]

/-- A manifest is refused for what the first of its checks finds that finds anything. -/
theorem checked_ofManifest (isUrl : String → Bool) (manifest : Manifest) (root : Path) :
    Checked (manifest.checks isUrl) (Recipe.ofManifest isUrl manifest root) := by
  rw [ofManifest_eq_steps]
  refine (checked_refuseMetadata isUrl manifest.package).bind fun _ _ => ?_
  refine (checked_one fun _ => schema_eq_error_iff).bind fun options _ => ?_
  refine (checked_one fun _ => Requirements.ofList_eq_error_iff).bind fun requires _ => ?_
  exact checked_ok _

end Manifest
end PackageBuild
