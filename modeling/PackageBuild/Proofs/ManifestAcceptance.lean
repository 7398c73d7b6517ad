import PackageBuild.Proofs.ManifestFaults
/-!
# Accepted manifests

A manifest that makes sense makes a recipe with all that its document declares: the requirements in
their order and the options, or the standard options if it declares none. Such a recipe can be
evaluated for any system.
-/

namespace PackageBuild

/-! ## What a document says -/

namespace Manifest

open Document

variable {manifest : Manifest}

theorem reads_package (format : Format) :
    (reader format).Reads "package" (fun v => some <$> PackageMetadata.decode format v)
      Draft.package := by
  apply RecordReader.Reads.of_others (by simp [reader])
  · exact fun visited => RecordReader.view_map _ visited fun _ => rfl
  · intro key member value draft draft' visited
    fin_cases member <;> exact RecordReader.view_kept _ visited fun _ => rfl

theorem reads_options (format : Format) :
    (reader format).Reads "options"
      (fun v => (fun entries => some (Std.ExtTreeMap.ofList entries)) <$>
        Decode.entries (OptionDecl.decode format) v)
      Draft.options := by
  apply RecordReader.Reads.of_others (by simp [reader])
  · exact fun visited => RecordReader.view_map _ visited fun _ => rfl
  · intro key member value draft draft' visited
    fin_cases member <;> exact RecordReader.view_kept _ visited fun _ => rfl

theorem finish_eq_ok {format : Format} {draft : Draft}
    (finished : (reader format).finish draft = .ok manifest) :
    draft.package = some manifest.package ∧ draft.options = manifest.options := by
  obtain ⟨package, options, layout, consumer⟩ := draft
  cases package with
  | none => cases finished
  | some package =>
      obtain rfl := Except.ok.inj finished
      exact ⟨rfl, rfl⟩

/-- A manifest that is read has the package and the options of its document. -/
theorem exists_document_of_parse {content : String} (parsed : parse content = .ok manifest) :
    ∃ doc, readToml? content = some doc ∧
      (∃ v, doc.under (reader .toml).fields "package" = some v ∧
        PackageMetadata.decode .toml v = .ok manifest.package) ∧
      (doc.under (reader .toml).fields "options" = none → manifest.options = none) ∧
      ∀ v, doc.under (reader .toml).fields "options" = some v →
        ∃ entries, Decode.entries (OptionDecl.decode .toml) v = .ok entries ∧
          manifest.options = some (.ofList entries) := by
  obtain ⟨doc, written, read⟩ := RecordReader.exists_doc_of_parsed parsed
  obtain ⟨draft, finished, absent, present⟩ := (reads_package .toml).read read
  obtain ⟨draft', finished', undeclared, declared⟩ := (reads_options .toml).read read
  obtain ⟨package, -⟩ := finish_eq_ok finished
  obtain ⟨-, options⟩ := finish_eq_ok finished'
  rw [package] at absent present
  rw [options] at undeclared declared
  refine ⟨doc, written, ?_, undeclared, fun v entry => ?_⟩
  · cases entry : doc.under (reader .toml).fields "package" with
    | none => cases absent entry
    | some v =>
        obtain ⟨_, decoded, same⟩ := map_eq_ok_iff.mp (present v entry)
        obtain rfl := Option.some.inj same
        exact ⟨v, rfl, decoded⟩
  · obtain ⟨entries, decoded, same⟩ := map_eq_ok_iff.mp (declared v entry)
    exact ⟨entries, decoded, same.symm⟩

end Manifest

namespace Recipe

open Document

/-- Whether the requirements and the options of a recipe are those of a document: the requirements
in the order of their list, and the declared options, or the standard ones if the document has no
section for them. -/
structure DeclaredBy (recipe : Recipe) (doc : Value) : Prop where
  requires : ∃ v, doc.under (Manifest.reader .toml).fields "package" = some v ∧
    (v.under PackageMetadata.reader.fields "requires").getD (.list []) =
      Value.texts (recipe.requires.toList.map Requirement.display)
  standard : doc.under (Manifest.reader .toml).fields "options" = none → recipe.options = .standard
  declared : ∀ v, doc.under (Manifest.reader .toml).fields "options" = some v →
    ∃ entries, Decode.entries (OptionDecl.decode .toml) v = .ok entries ∧
      recipe.options.decls = .ofList entries

variable {isUrl : String → Bool} {recipe : Recipe} {manifest : Manifest} {content : String}
  {path root : Path}

/-- Whether a recipe has all that a manifest in some directory has. -/
structure MadeOf (recipe : Recipe) (manifest : Manifest) (root : Path) : Prop where
  package : recipe.package = manifest.package
  requires : recipe.requires.toList = manifest.package.requires
  /-- The options are the standard ones if none are declared. -/
  standard : manifest.options = none → recipe.options = .standard
  declared : ∀ decls, manifest.options = some decls → recipe.options.decls = decls
  layout : recipe.layout = manifest.layout
  consumer : recipe.consumer = manifest.consumer
  root : recipe.root = root

theorem madeOf_of_ofManifest (made : ofManifest isUrl manifest root = .ok recipe) :
    recipe.MadeOf manifest root := by
  rw [Manifest.ofManifest_eq_steps] at made
  obtain ⟨_, -, made⟩ := bind_eq_ok_iff.mp made
  obtain ⟨options, schema, made⟩ := bind_eq_ok_iff.mp made
  obtain ⟨requires, listed, made⟩ := bind_eq_ok_iff.mp made
  obtain rfl := Except.ok.inj made
  refine ⟨rfl, Requirements.toList_of_ofList listed, ?_, ?_, rfl, rfl, rfl⟩
  · intro undeclared
    rw [Manifest.schema, undeclared] at schema
    exact (Except.ok.inj schema).symm
  · intro decls declared
    rw [Manifest.schema, declared] at schema
    exact OptionSchema.decls_of_ofDecls schema

theorem parse_of_manifest (decoded : Manifest.parse content = .ok manifest) :
    parse isUrl content path =
      (ofManifest isUrl manifest (rootOf path)).mapError fun fault => .of (.recipe fault) := by
  rw [parse, decoded]

theorem exists_manifest_of_parse (read : parse isUrl content path = .ok recipe) :
    ∃ manifest, Manifest.parse content = .ok manifest ∧ manifest.Sound isUrl ∧
      recipe.MadeOf manifest (rootOf path) := by
  cases decoded : Manifest.parse content with
  | error cause =>
      rw [parse, decoded] at read
      cases read
  | ok manifest =>
      rw [parse_of_manifest decoded, mapError_eq_ok_iff] at read
      have checked := Manifest.checked_ofManifest isUrl manifest (rootOf path)
      exact ⟨manifest, rfl, Manifest.sound_iff.mpr (checked.exists_ok_iff.mp ⟨recipe, read⟩),
        madeOf_of_ofManifest read⟩

theorem exists_document_of_parse (read : parse isUrl content path = .ok recipe) :
    ∃ doc, readToml? content = some doc ∧ recipe.DeclaredBy doc := by
  obtain ⟨manifest, decoded, -, made⟩ := exists_manifest_of_parse read
  obtain ⟨doc, written, ⟨v, part, package⟩, undeclared, declared⟩ :=
    Manifest.exists_document_of_parse decoded
  refine ⟨doc, written, ⟨v, part, ?_⟩, fun absent => made.standard (undeclared absent), ?_⟩
  · rw [made.requires]
    exact (PackageMetadata.requires_of_decode package).1
  · intro options present
    obtain ⟨entries, decls, given⟩ := declared options present
    exact ⟨entries, decls, made.declared _ given⟩

theorem exists_evaluation (recipe : Recipe) (settings : Settings) (signals : Signals)
    {resolver : VersionResolver} (lenient : resolver.rejectConflicting = false) :
    ∃ evaluation, recipe.evaluate settings signals resolver [] = .ok evaluation := by
  rw [(recipe.checked_evaluate signals resolver settings []).exists_ok_iff]
  simp only [List.forall_mem_cons]
  refine ⟨?_, fun _ => not_firstFault_nil, nofun⟩
  rintro _ ⟨rejects, -⟩
  exact absurd rejects (by simp [lenient])

/-- Whatever counts as an address, a manifest makes a recipe exactly if it makes sense; otherwise it
is refused for what the first check finds that finds anything. A recipe that is made has all that
the manifest has, with the requirements and the options of its document, and can be evaluated for
all settings and signals unless the resolver rejects versions that disagree. -/
theorem parse_accepts_sound (isUrl : String → Bool) (path : Path)
    (decoded : Manifest.parse content = .ok manifest) :
    ((∃ recipe, parse isUrl content path = .ok recipe) ↔ manifest.Sound isUrl) ∧
    (∀ failure, parse isUrl content path = .error failure ↔
      ∃ fault, failure = .of (.recipe fault) ∧
        FirstFault (fun check => check) (manifest.checks isUrl) fault) ∧
    ∀ recipe, parse isUrl content path = .ok recipe →
      recipe.MadeOf manifest (rootOf path) ∧
      (∃ doc, readToml? content = some doc ∧ recipe.DeclaredBy doc) ∧
      ∀ settings signals resolver, resolver.rejectConflicting = false →
        ∃ evaluation, recipe.evaluate settings signals resolver [] = .ok evaluation := by
  have checked := Manifest.checked_ofManifest isUrl manifest (rootOf path)
  refine ⟨?_, fun failure => ?_, fun recipe read => ⟨?_, exists_document_of_parse read,
    fun settings signals resolver => recipe.exists_evaluation settings signals⟩⟩
  · simp only [parse_of_manifest decoded, mapError_eq_ok_iff]
    rw [checked.exists_ok_iff, Manifest.sound_iff]
  · rw [parse_of_manifest decoded, mapError_eq_error_iff]
    refine exists_congr fun fault => ?_
    rw [checked fault, and_comm, eq_comm]
  · obtain ⟨manifest', decoded', -, made⟩ := exists_manifest_of_parse read
    obtain rfl := Except.ok.inj (decoded.symm.trans decoded')
    exact made

/-- An address of a project. -/
def projectAddress : String := "https://github.com/Gigamonkey-BSV/Gigamonkey"

/-- The text of a manifest with an address that requires a library twice and declares an option
whose default is one of its values. -/
def repetitiveManifest : String :=
  "[package]\nname = \"mini\"\nversion = \"0.1\"\nurl = \"" ++ projectAddress ++ "\"\n" ++
    "requires = [\"zlib/1.3\", \"fmt/10\", \"zlib/1\"]\n" ++
    "[options]\nshared = \x7b values = [true, false], default = true \x7d\n"

/-- Why a recipe is refused, if it is. -/
def fault? : Except RecipeError Recipe → Option RecipeError
  | .ok _ => none
  | .error fault => some fault

theorem fault?_eq_some_iff {made : Except RecipeError Recipe} {fault : RecipeError} :
    fault? made = some fault ↔ made = .error fault := by
  cases made <;> simp [fault?]

/-- The repeated requirement is why the manifest is refused, so all that is checked before it is
well. -/
theorem repetitive_manifest_refused :
    ∃ manifest, Manifest.parse repetitiveManifest = .ok manifest ∧
      manifest.package.url = some projectAddress ∧ ¬manifest.Sound (· == projectAddress) ∧
      FirstFault (fun check => check) (manifest.checks (· == projectAddress))
        (.duplicateRequirement "zlib" "zlib/1.3" "zlib/1") := by
  have address : ((Manifest.parse repetitiveManifest).toOption.bind (·.package.url)) =
      some projectAddress := by decide +kernel
  have refusal : ((Manifest.parse repetitiveManifest).toOption.bind fun manifest =>
      fault? (ofManifest (· == projectAddress) manifest (rootOf smallPath))) =
        some (.duplicateRequirement "zlib" "zlib/1.3" "zlib/1") := by decide +kernel
  cases decoded : Manifest.parse repetitiveManifest with
  | error cause =>
      rw [decoded] at refusal
      cases refusal
  | ok manifest =>
      obtain ⟨accepted, refused, -⟩ :=
        parse_accepts_sound (· == projectAddress) smallPath decoded
      rw [decoded] at address refusal
      have failed : parse (· == projectAddress) repetitiveManifest smallPath = .error (.of (.recipe
          (.duplicateRequirement "zlib" "zlib/1.3" "zlib/1"))) := by
        rw [parse_of_manifest decoded, fault?_eq_some_iff.mp refusal]
        rfl
      obtain ⟨fault, same, first⟩ := (refused _).mp failed
      obtain rfl : RecipeError.duplicateRequirement "zlib" "zlib/1.3" "zlib/1" = fault := by
        simpa [Failure.of] using same
      refine ⟨manifest, rfl, address, ?_, first⟩
      rw [← accepted]
      rintro ⟨recipe, read⟩
      cases failed.symm.trans read

end Recipe
end PackageBuild
