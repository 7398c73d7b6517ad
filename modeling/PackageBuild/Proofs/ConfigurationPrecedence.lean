import PackageBuild.CommandLine.Setup
import PackageBuild.Proofs.FileTree.Resolution
import PackageBuild.Proofs.RecordReading
/-!
# Which configuration counts

A field is taken from the file of the project if that sets it, else from the file of the user if
that does, and else it has its usual value. Flags of the command line stand before both files. The
one exception is an empty list of prefixes, which sets nothing.
-/

namespace PackageBuild

open Document

/-- The fields of a configuration file, by the record that holds each and the type of its values. -/
inductive ConfigField : Type → Type → Type where
  | cmake : ConfigField BuildConfig Path
  | generator : ConfigField BuildConfig String
  | prefixPath : ConfigField BuildConfig (List Path)
  | buildDir : ConfigField BuildConfig Path
  | packageDir : ConfigField BuildConfig Path
  | ciTag : ConfigField SignalsConfig String
  | versionOverride : ConfigField SignalsConfig String
  | cpuCount : ConfigField SignalsConfig String
  | versionPolicy : ConfigField VersionConfig VersionPolicy
  | rejectConflicting : ConfigField VersionConfig Bool
  | copyPolicy : ConfigField PackageConfig CopyPolicy

namespace ConfigField

variable {ρ α : Type}

/-! ## What a file says about a field -/

/-- How the section of a field is read. -/
def reader : ConfigField ρ α → RecordReader ρ ρ
  | .cmake | .generator | .prefixPath | .buildDir | .packageDir => BuildConfig.reader
  | .ciTag | .versionOverride | .cpuCount => SignalsConfig.reader
  | .versionPolicy | .rejectConflicting => VersionConfig.reader .toml
  | .copyPolicy => PackageConfig.reader .toml

/-- The name of the section of a field. -/
def sectionName : ConfigField ρ α → String
  | .cmake | .generator | .prefixPath | .buildDir | .packageDir => "build"
  | .ciTag | .versionOverride | .cpuCount => "signals"
  | .versionPolicy | .rejectConflicting => "version"
  | .copyPolicy => "package"

/-- The key of a field in its section. -/
def key : ConfigField ρ α → String
  | .cmake => "cmake"
  | .generator => "generator"
  | .prefixPath => "prefix_path"
  | .buildDir => "build_dir"
  | .packageDir => "package_dir"
  | .ciTag => "ci_tag"
  | .versionOverride => "version_override"
  | .cpuCount => "cpu_count"
  | .versionPolicy | .copyPolicy => "policy"
  | .rejectConflicting => "reject_conflicting"

/-- The value that is written for a field; the absent value is none. -/
def decode : ConfigField ρ α → Value → Decoded (Option α)
  | .cmake | .buildDir | .packageDir => Decode.optional BuildConfig.decodePath
  | .generator | .ciTag | .versionOverride | .cpuCount => Decode.optional Decode.text
  | .prefixPath => fun value => some <$> Decode.list BuildConfig.decodePath value
  | .versionPolicy => Decode.optional (VersionConfig.decodePolicy .toml)
  | .rejectConflicting => Decode.optional Decode.bool
  | .copyPolicy => Decode.optional (PackageConfig.decodePolicy .toml)

/-- The value that a document gives a field, if it gives one. -/
def given (f : ConfigField ρ α) (doc : Value) : Option α := do
  let part ← doc.under (Configuration.reader .toml).fields f.sectionName
  let value ← part.under f.reader.fields f.key
  (f.decode value).toOption.join

/-- Whether a value counts as set: an empty list of prefixes does not. -/
def counts : ConfigField ρ α → α → Bool
  | .prefixPath => fun prefixes => !prefixes.isEmpty
  | _ => fun _ => true

/-! ## What a configuration holds -/

/-- The section of a configuration that holds a field. -/
def part : ConfigField ρ α → Configuration → ρ
  | .cmake | .generator | .prefixPath | .buildDir | .packageDir => Configuration.build
  | .ciTag | .versionOverride | .cpuCount => Configuration.signals
  | .versionPolicy | .rejectConflicting => Configuration.version
  | .copyPolicy => Configuration.package

/-- What a section holds for a field. -/
def held : ConfigField ρ α → ρ → Option α
  | .cmake => BuildConfig.cmake
  | .generator => BuildConfig.generator
  | .prefixPath => fun build => some build.prefixPath
  | .buildDir => BuildConfig.buildDir
  | .packageDir => BuildConfig.packageDir
  | .ciTag => SignalsConfig.ciTag
  | .versionOverride => SignalsConfig.versionOverride
  | .cpuCount => SignalsConfig.cpuCount
  | .versionPolicy => VersionConfig.policy
  | .rejectConflicting => VersionConfig.rejectConflicting
  | .copyPolicy => PackageConfig.policy

/-- What a configuration sets a field to, if it holds anything that counts. -/
def setting (f : ConfigField ρ α) (config : Configuration) : Option α :=
  (f.held (f.part config)).filter f.counts

/-- The value that a configuration comes to for a field. -/
def value : ConfigField ρ α → Configuration → Option α
  | .cmake, config => config.build.cmake
  | .generator, config => config.build.generator
  | .prefixPath, config => some config.build.prefixPath
  | .buildDir, config => config.build.buildDir
  | .packageDir, config => config.build.packageDir
  | .ciTag, config => some config.signals.vars.ciTag
  | .versionOverride, config => some config.signals.vars.versionOverride
  | .cpuCount, config => some config.signals.vars.cpuCount
  | .versionPolicy, config => some config.resolver.policy
  | .rejectConflicting, config => some config.resolver.rejectConflicting
  | .copyPolicy, config => some config.copyPolicy

/-- The value of a field that no file sets. -/
def usual : ConfigField ρ α → Option α
  | .cmake | .generator | .buildDir | .packageDir => none
  | .prefixPath => some []
  | .ciTag => some "CIRCLE_TAG"
  | .versionOverride => some "CURRENT_VERSION"
  | .cpuCount => some "CONAN_CPU_COUNT"
  | .versionPolicy => some .tagOverFallback
  | .rejectConflicting => some false
  | .copyPolicy => some .lenient

theorem setting_eq_held {f : ConfigField ρ α} (all : ∀ a, f.counts a = true)
    (config : Configuration) : f.setting config = f.held (f.part config) := by
  rw [setting]
  cases f.held (f.part config) <;> simp [all]

theorem setting_merge (f : ConfigField ρ α) (base upper : Configuration) :
    f.setting (base.merge upper) = (f.setting upper).or (f.setting base) := by
  cases f with
  | prefixPath =>
      simp only [setting, held, part, counts, Configuration.merge, BuildConfig.merge,
        Option.filter_some]
      cases empty : upper.build.prefixPath.isEmpty <;> simp [empty]
  | _ =>
      rw [setting_eq_held fun _ => rfl, setting_eq_held fun _ => rfl, setting_eq_held fun _ => rfl]
      rfl

theorem value_eq (f : ConfigField ρ α) (config : Configuration) :
    f.value config = (f.setting config).or f.usual := by
  cases f with
  | prefixPath =>
      simp only [value, setting, held, part, counts, usual, Option.filter_some]
      cases config.build.prefixPath <;> simp
  | cmake | generator | buildDir | packageDir =>
      rw [setting_eq_held fun _ => rfl]
      exact Option.or_none.symm
  | ciTag | versionOverride | cpuCount | versionPolicy | rejectConflicting | copyPolicy =>
      rw [setting_eq_held fun _ => rfl]
      exact Option.or_some.symm

theorem reads_part (f : ConfigField ρ α) :
    (Configuration.reader .toml).Reads f.sectionName (f.reader.read .toml) f.part := by
  apply RecordReader.Reads.of_others
  · cases f <;> simp [Configuration.reader, sectionName]
  · intro value draft draft' visited
    cases f <;> exact RecordReader.view_set _ visited fun _ => rfl
  · intro name member value draft draft' visited
    cases f <;> fin_cases member <;> exact RecordReader.view_kept _ visited fun _ => rfl

theorem reads_held (f : ConfigField ρ α) : f.reader.Reads f.key f.decode f.held := by
  apply RecordReader.Reads.of_others
  · cases f <;> simp [reader, key, BuildConfig.reader, SignalsConfig.reader, VersionConfig.reader,
      PackageConfig.reader]
  · intro value draft draft' visited
    cases f with
    | prefixPath => exact RecordReader.view_map _ visited fun _ => rfl
    | _ => exact RecordReader.view_set _ visited fun _ => rfl
  · intro name member value draft draft' visited
    cases f <;> fin_cases member <;> exact RecordReader.view_kept _ visited fun _ => rfl

theorem setting_default (f : ConfigField ρ α) : f.setting {} = none := by
  cases f <;> rfl

theorem setting_start (f : ConfigField ρ α) : (f.held f.reader.start).filter f.counts = none := by
  cases f <;> rfl

theorem finish_eq_ok {f : ConfigField ρ α} {draft record : ρ}
    (finished : f.reader.finish draft = .ok record) : draft = record := by
  cases f <;> exact Except.ok.inj finished

/-- A configuration that is read sets exactly what its document gives and what counts. -/
theorem setting_of_read {doc : Value} {config : Configuration}
    (read : (Configuration.reader .toml).read .toml doc = .ok config) (f : ConfigField ρ α) :
    f.setting config = (f.given doc).filter f.counts := by
  obtain ⟨draft, finished, unset, set⟩ := f.reads_part.read read
  obtain rfl : draft = config := Except.ok.inj finished
  unfold given
  cases written : doc.under (Configuration.reader .toml).fields f.sectionName with
  | none =>
      have untouched : f.part draft = f.part {} := unset written
      rw [setting, untouched]
      exact f.setting_default
  | some part =>
      obtain ⟨draft', finished, unset, set⟩ := f.reads_held.read (set part written)
      rw [finish_eq_ok finished] at unset set
      rw [Option.bind_eq_bind, Option.bind_some, setting]
      cases entry : part.under f.reader.fields f.key with
      | none =>
          rw [unset entry]
          exact f.setting_start
      | some value => simp [set value entry, Except.toOption]

/-- The value of a field by two documents, the first of which goes before the second. -/
def chosen (f : ConfigField ρ α) (project user : Value) : Option α :=
  ((f.given project).filter f.counts).or (((f.given user).filter f.counts).or f.usual)

end ConfigField

namespace Configuration

variable {t : FileTree} {path : Path}

/-- The document in the file at a path, or the empty one when there is none. -/
def documentAt (t : FileTree) (path : Path) : Value :=
  ((t.readText path).toOption.bind readToml?).getD (.table [])

/-- Whether a configuration file is absent, or can be read. -/
def Parses (t : FileTree) (path : Path) : Prop :=
  t.pathExists path = false ∨
    ∃ content config, t.readText path = .ok content ∧ parse content = .ok config

theorem readText_of_absent (absent : t.pathExists path = false) :
    ∃ e, t.readText path = .error e := by
  unfold FileTree.pathExists at absent
  cases found : t.find path with
  | ok place => simp [found, Except.toOption] at absent
  | error e => exact ⟨e, by simp [FileTree.readText, FileTree.readBytes, found]⟩

theorem load_of_parses (parses : Parses t path) :
    ∃ config, load t path = .ok config ∧
      (reader .toml).read .toml (documentAt t path) = .ok config := by
  unfold load documentAt
  by_cases present : t.pathExists path = true
  · rcases parses with absent | ⟨content, config, reads, parsed⟩
    · exact absurd (present.symm.trans absent) (by decide)
    · obtain ⟨doc, written, read⟩ := RecordReader.exists_doc_of_parsed parsed
      refine ⟨config, ?_, ?_⟩
      · rw [if_pos present, reads]
        dsimp only
        rw [parsed]
        rfl
      · simpa [reads, Except.toOption, written] using read
  · obtain ⟨e, refused⟩ := readText_of_absent (Bool.eq_false_iff.mpr present)
    exact ⟨{}, by rw [if_neg present], by rw [refused]; rfl⟩

/-- The document of a user, who may have no file for it. -/
def userDocument (t : FileTree) (user : Option Path) : Value :=
  user.elim (.table []) (documentAt t)

/-- Files that parse are loaded, and that of the project is laid over that of the user. -/
theorem loadBoth_of_parses {user : Option Path} {project : Path}
    (user_parses : ∀ path ∈ user, Parses t path) (project_parses : Parses t project) :
    ∃ base upper, loadBoth t user project = .ok ((({} : Configuration).merge base).merge upper) ∧
      (reader .toml).read .toml (userDocument t user) = .ok base ∧
      (reader .toml).read .toml (documentAt t project) = .ok upper := by
  obtain ⟨upper, laid, upper_read⟩ := load_of_parses project_parses
  have laid_over (base : Configuration) :
      (do return (({} : Configuration).merge base).merge (← load t project)) =
        Except.ok ((({} : Configuration).merge base).merge upper) :=
    bind_eq_ok_iff.mpr ⟨upper, laid, rfl⟩
  cases user with
  | none => exact ⟨{}, upper, bind_eq_ok_iff.mpr ⟨{}, rfl, laid_over {}⟩, rfl, upper_read⟩
  | some path =>
      obtain ⟨base, loaded, base_read⟩ := load_of_parses (user_parses path rfl)
      exact ⟨base, upper, bind_eq_ok_iff.mpr ⟨base, loaded, laid_over base⟩, base_read, upper_read⟩

open CommandLine in
/-- With files that can be read, every field comes to the value that the project gives it, else to
the one that the user gives it, else to its usual one, and a build is asked for by these values
except where there is a flag. An empty list of prefixes counts as not given. -/
theorem loadBoth_takes_chosen {user : Option Path} {project : Path}
    (user_parses : ∀ path ∈ user, Parses t path) (project_parses : Parses t project) :
    ∃ config, loadBoth t user project = .ok config ∧
      (∀ {ρ α : Type} (f : ConfigField ρ α),
        f.value config = f.chosen (documentAt t project) (userDocument t user)) ∧
      ∀ recipe signals host flags,
        let opts := (Setup.mk recipe config signals).buildOptions host flags
        let taken {ρ α : Type} (f : ConfigField ρ α) :=
          f.chosen (documentAt t project) (userDocument t user)
        opts.buildDir = flags.buildDir.or (taken .buildDir) ∧
        opts.packageDir = flags.packageDir.or (taken .packageDir) ∧
        some opts.copyPolicy = (if flags.strict then some .strict else taken .copyPolicy) ∧
        opts.cmake = taken .cmake ∧
        opts.generator = taken .generator ∧
        some opts.prefixPath = taken .prefixPath ∧
        opts.settings = flags.settings host ∧
        opts.overrides = flags.overrides ∧
        opts.package = !flags.noPackage := by
  obtain ⟨base, upper, loaded, base_read, upper_read⟩ :=
    loadBoth_of_parses user_parses project_parses
  have values {ρ α : Type} (f : ConfigField ρ α) :
      f.value ((({} : Configuration).merge base).merge upper) =
        f.chosen (documentAt t project) (userDocument t user) := by
    rw [ConfigField.value_eq, ConfigField.setting_merge, ConfigField.setting_merge,
      ConfigField.setting_default, Option.or_none, ConfigField.setting_of_read base_read,
      ConfigField.setting_of_read upper_read, Option.or_assoc, ConfigField.chosen]
  refine ⟨(({} : Configuration).merge base).merge upper, loaded, values, ?_⟩
  intro recipe signals host flags
  simp only [← values]
  exact ⟨rfl, rfl, apply_ite some _ _ _, rfl, rfl, rfl, rfl, rfl, rfl⟩

/-- A user's file that sets prefixes, and a project's file that sets a generator and an empty list
of prefixes. -/
def smallFiles : FileTree :=
  .ofEntries [
    (Path.land [] ⟨"/home"⟩, .directory),
    (Path.land [] ⟨"/home/config.toml"⟩,
      .file "[build]\nprefix_path = [\"/opt\"]\n".toUTF8 false),
    (Path.land [] ⟨"/pkg"⟩, .directory),
    (Path.land [] ⟨"/pkg/config.toml"⟩,
      .file "[build]\ngenerator = \"Ninja\"\nprefix_path = []\n".toUTF8 false)]

theorem parses_smallFiles : Parses smallFiles ⟨"/home/config.toml"⟩ ∧
    Parses smallFiles ⟨"/pkg/config.toml"⟩ := by
  have test (path : Path) (found : ((smallFiles.readText path).toOption.any fun content =>
      (parse content).toOption.isSome) = true) : Parses smallFiles path := by
    cases reads : smallFiles.readText path with
    | error e => simp [reads, Except.toOption] at found
    | ok content =>
        cases parsed : parse content with
        | error fault => simp [reads, parsed, Except.toOption] at found
        | ok config => exact Or.inr ⟨content, config, reads, parsed⟩
  exact ⟨test _ (by decide +kernel), test _ (by decide +kernel)⟩

/-- The generator is that of the project, nobody sets a policy, and a flag names the build
directory. -/
theorem loadBoth_takes_chosen_smallFiles :
    ∃ config, loadBoth smallFiles (some ⟨"/home/config.toml"⟩) ⟨"/pkg/config.toml"⟩ = .ok config ∧
      config.build.generator = some "Ninja" ∧ config.copyPolicy = .lenient ∧
      ∀ recipe signals, (CommandLine.Setup.buildOptions ⟨recipe, config, signals⟩ .host
        { buildDir := some ⟨"out"⟩ }).buildDir = some ⟨"out"⟩ := by
  have user_parses : ∀ path ∈ some (Path.mk "/home/config.toml"), Parses smallFiles path := by
    rintro _ ⟨⟩
    exact parses_smallFiles.1
  obtain ⟨config, loaded, values, flags⟩ :=
    loadBoth_takes_chosen user_parses parses_smallFiles.2
  have generator := values .generator
  have policy := values .copyPolicy
  refine ⟨config, loaded, ?_, ?_, fun recipe signals => (flags recipe signals _ _).1⟩
  · exact generator.trans (by decide +kernel)
  · exact Option.some.inj (policy.trans (by decide +kernel))

/-- An empty list of prefixes in the file of the project leaves those of the user in place. -/
theorem empty_prefixes_give_way :
    ∃ config, loadBoth smallFiles (some ⟨"/home/config.toml"⟩) ⟨"/pkg/config.toml"⟩ = .ok config ∧
      ConfigField.prefixPath.given (documentAt smallFiles ⟨"/pkg/config.toml"⟩) = some [] ∧
      ConfigField.prefixPath.value config = some [⟨"/opt"⟩] := by
  have merged : ((loadBoth smallFiles (some ⟨"/home/config.toml"⟩)
      ⟨"/pkg/config.toml"⟩).toOption.any fun config =>
        decide (ConfigField.prefixPath.value config = some [⟨"/opt"⟩])) = true := by
    decide +kernel
  cases loaded : loadBoth smallFiles (some ⟨"/home/config.toml"⟩) ⟨"/pkg/config.toml"⟩ with
  | error failure => simp [loaded, Except.toOption] at merged
  | ok config =>
      simp only [loaded, Except.toOption, Option.any_some] at merged
      exact ⟨config, rfl, by decide +kernel, of_decide_eq_true merged⟩

end Configuration
end PackageBuild
