import PackageBuild.Proofs.CommandLine.MachineOutput
import PackageBuild.Proofs.RequirementText
import PackageBuild.Proofs.SystemNames
/-!
# Written forms that are read back

Settings, package metadata, layouts, consumers and option declarations are read from documents of
many shapes and written in one. What is written for a value that was read is read as that value,
with its keys in either order, as it stands or from its printed text.
-/

namespace PackageBuild

open Document

/-! ## Written forms -/

namespace Document

/-- How an encoded value may be written: with the keys of its tables in the order of the encoder, or
sorted. -/
def Value.orders (v : Value) : List Value := [v, v.sorted]

/-- Whether all that a decoder reads is written in forms that it reads as the same, also from their
printed text, so that writing what was read from what was written changes nothing. -/
structure Canonical {α : Type} (decode : Value → Decoded α) (encode : α → Value) : Prop where
  read_back : ∀ v x, decode v = .ok x → ∀ w ∈ (encode x).orders, decode w = .ok x
  printed : ∀ v x, decode v = .ok x → ∀ w ∈ (encode x).orders, readJson? w.pretty = some w
  idempotent : ∀ v w, encode <$> decode v = .ok w → encode <$> decode w = .ok w

section Canonical

variable {α : Type} {decode : Value → Decoded α} {encode : α → Value} {kind : α → Prop}

/-- It is enough that all that is read is of one kind and that what is written for this kind is read
back. -/
theorem canonical_of_kind (reads : ∀ v x, decode v = .ok x → kind x)
    (back : ∀ x, kind x → ∀ w ∈ (encode x).orders, decode w = .ok x)
    (plain : ∀ x, (encode x).Plain) : Canonical decode encode where
  read_back v x read := back x (reads v x read)
  printed v x _ w written := by
    rcases List.mem_pair.mp written with rfl | rfl
    · exact (plain x).readJson?_pretty
    · exact (plain x).sorted.readJson?_pretty
  idempotent v w written := by
    obtain ⟨x, read, rfl⟩ := map_eq_ok_iff.mp written
    exact map_eq_ok_iff.mpr ⟨x, back x (reads v x read) _ List.mem_cons_self, rfl⟩

end Canonical

namespace Decode

@[simp]
theorem text_text (value : String) : text (.text value) = .ok value := rfl

@[simp]
theorem pathText_text (value : String) : pathText (.text value) = .ok value := rfl

@[simp]
theorem list_text_texts (items : List String) : list text (Value.texts items) = .ok items :=
  (exact_list exact_text _ items).mpr ⟨rfl, by simp⟩

@[simp]
theorem optional_text_optionalText (text : Option String) :
    optional Decode.text (Value.optionalText text) = .ok text := by
  cases text <;> rfl

end Decode

namespace Value

theorem sortedItems_map {α : Type} {encode : α → Value} (each : ∀ x, (encode x).sorted = encode x)
    (xs : List α) : sortedItems (xs.map encode) = xs.map encode := by
  rw [sortedItems_eq_map, List.map_map]
  exact List.map_congr_left fun x _ => each x

@[simp]
theorem sorted_texts (items : List String) : (texts items).sorted = texts items := by
  rw [texts, Value.sorted, sortedItems_map fun _ => rfl]

@[simp]
theorem sorted_optionalText (text : Option String) :
    (optionalText text).sorted = optionalText text := by
  cases text <;> rfl

end Value

end Document

/-! ## Layouts -/

namespace LayoutConfig

/-- All layouts are read from how they are written. -/
theorem decode_of_mem_orders (format : Format) (c : LayoutConfig) :
    ∀ w ∈ c.toValue.orders, decode format w = .ok c := by
  simp only [toValue, Value.orders, Value.sorted, Value.sortedEntries, Value.insertSorted,
    Value.sorted_texts, String.reduceLT, String.reduceEq, reduceIte]
  simp [decode, RecordReader.read, RecordReader.ofEntries, RecordReader.addEntry, reader, bind,
    Except.bind, pure, Except.pure]

theorem plain_toValue (c : LayoutConfig) : c.toValue.Plain := by
  simp [toValue]

end LayoutConfig

/-! ## Consumers -/

namespace LibsPolicy

@[simp]
theorem decode_toValue (policy : LibsPolicy) : decode policy.toValue = .ok policy := by
  cases policy with
  | discover => rfl
  | fixed names =>
      have listed : (names.map Value.text).mapM textOf? = some names := by
        induction names with
        | nil => rfl
        | cons name names induction => simp [textOf?, induction]
      simp [toValue, Value.texts, decode, listed]

@[simp]
theorem sorted_toValue (policy : LibsPolicy) : policy.toValue.sorted = policy.toValue := by
  cases policy with
  | discover => rfl
  | fixed names => exact Value.sorted_texts names

theorem plain_toValue (policy : LibsPolicy) : policy.toValue.Plain := by
  cases policy <;> simp [toValue]

end LibsPolicy

namespace ConsumerConfig

@[simp]
theorem decodePaths_texts (paths : List Path) :
    decodePaths (Value.texts (paths.map Path.text)) = .ok paths := by
  have exact_path : Exact (fun v => Path.mk <$> Decode.pathText v) (fun path => .text path.text)
      fun _ => True := by
    intro v path
    simp only [map_eq_ok_iff, Decode.exact_pathText _ _]
    constructor
    · rintro ⟨text, ⟨rfl, -⟩, rfl⟩
      exact ⟨rfl, trivial⟩
    · rintro ⟨rfl, -⟩
      exact ⟨path.text, ⟨rfl, trivial⟩, rfl⟩
  exact (Decode.exact_list exact_path _ paths).mpr ⟨by simp [Value.texts], by simp⟩

/-- All configurations for consumers are read from how they are written. -/
theorem decode_of_mem_orders (format : Format) (c : ConsumerConfig) :
    ∀ w ∈ c.toValue.orders, decode format w = .ok c := by
  simp only [toValue, Value.orders, Value.sorted, Value.sortedEntries, Value.insertSorted,
    LibsPolicy.sorted_toValue, Value.sorted_texts, String.reduceLT, String.reduceEq, reduceIte]
  simp [decode, RecordReader.read, RecordReader.ofEntries, RecordReader.addEntry, reader, bind,
    Except.bind, pure, Except.pure]

theorem plain_toValue (c : ConsumerConfig) : c.toValue.Plain := by
  simp [toValue, LibsPolicy.plain_toValue]

end ConsumerConfig

/-! ## Declarations of options -/

namespace OptionValue

theorem exact_decode : Exact decode toValue fun _ => True := by
  intro v value
  constructor
  · intro read
    cases v <;> cases read <;> exact ⟨rfl, trivial⟩
  · rintro ⟨rfl, -⟩
    exact decode_toValue value

@[simp]
theorem sorted_toValue (value : OptionValue) : value.toValue.sorted = value.toValue := by
  cases value <;> rfl

end OptionValue

namespace OptionDecl

@[simp]
theorem decode_values (values : List OptionValue) :
    Decode.list OptionValue.decode (.list (values.map OptionValue.toValue)) = .ok values :=
  (Decode.exact_list OptionValue.exact_decode _ values).mpr ⟨rfl, by simp⟩

@[simp]
theorem sortedItems_values (values : List OptionValue) :
    Value.sortedItems (values.map OptionValue.toValue) = values.map OptionValue.toValue :=
  Value.sortedItems_map OptionValue.sorted_toValue values

/-- All declarations of options are read from how they are written. -/
theorem decode_of_mem_orders (format : Format) (decl : OptionDecl) :
    ∀ w ∈ decl.toValue.orders, decode format w = .ok decl := by
  simp only [toValue, Value.orders, Value.sorted, Value.sortedEntries, Value.insertSorted,
    sortedItems_values, OptionValue.sorted_toValue, String.reduceLT, String.reduceEq, reduceIte]
  simp [decode, RecordReader.read, RecordReader.ofEntries, RecordReader.addEntry, reader, bind,
    Except.bind, pure, Except.pure]

end OptionDecl

/-! ## Package metadata -/

namespace PackageMetadata

@[simp]
theorem ofList_toList (topics : Std.ExtTreeSet String) :
    Std.ExtTreeSet.ofList topics.toList = topics := by
  refine Std.ExtTreeSet.ext_mem fun topic => ?_
  simp [Std.ExtTreeSet.mem_toList]

theorem decode_requires {requires : List Requirement} (proper : ∀ r ∈ requires, r.WellFormed) :
    Decode.list decodeRequirement (Value.texts (requires.map Requirement.display)) =
      .ok requires :=
  (Decode.exact_list exact_decodeRequirement _ requires).mpr ⟨by simp [Value.texts], proper⟩

/-- Metadata whose requirements can be written is read from how it is written. -/
theorem decode_of_mem_orders (format : Format) {package : PackageMetadata}
    (proper : ∀ r ∈ package.requires, r.WellFormed) :
    ∀ w ∈ package.toValue.orders, decode format w = .ok package := by
  simp only [toValue, Value.orders, Value.sorted, Value.sortedEntries, Value.insertSorted,
    Value.sorted_texts, Value.sorted_optionalText, String.reduceLT, String.reduceEq, reduceIte]
  simp [decode, RecordReader.read, RecordReader.ofEntries, RecordReader.addEntry, reader,
    Draft.visit, Draft.finish, decode_requires proper, bind, Except.bind, pure, Except.pure]

theorem plain_toValue (package : PackageMetadata) : package.toValue.Plain := by
  simp [toValue]

end PackageMetadata

/-! ## Settings -/

namespace Settings

theorem decodeOs_eq_ok_iff {v : Value} {os : Os} :
    decodeOs v = .ok os ↔ ∃ text, v = .text text ∧ Os.parse text = .ok os := by
  rw [decodeOs, bind_eq_ok_iff]
  refine exists_congr fun text => ?_
  rw [Decode.exact_text v text, and_true]
  cases Os.parse text <;> simp [pure, Except.pure]

@[simp]
theorem decodeBuildType_display (format : Format) (type : BuildType) :
    decodeBuildType format (.text type.display) = .ok type := by
  cases type <;> cases format <;> rfl

theorem reads_os (format : Format) :
    (reader format).Reads "os" (fun v => some <$> decodeOs v) Draft.os := by
  apply RecordReader.Reads.of_others (by simp [reader])
  · exact fun visited => RecordReader.view_map _ visited fun _ => rfl
  · intro key member value draft draft' visited
    fin_cases member <;> exact RecordReader.view_kept _ visited fun _ => rfl

variable {format : Format} {v : Value} {s : Settings}

theorem os_of_finish {draft : Draft} (finished : draft.finish = .ok s) : draft.os = some s.os := by
  unfold Draft.finish at finished
  split at finished
  · obtain rfl := Except.ok.inj finished
    rfl
  all_goals cases finished

theorem parse_display_of_decode (read : decode format v = .ok s) :
    Os.parse s.os.display = .ok s.os := by
  obtain ⟨draft, finished, absent, set⟩ := (reads_os format).read read
  rw [os_of_finish finished] at absent set
  cases entry : v.under (reader format).fields "os" with
  | none => cases absent entry
  | some value =>
      obtain ⟨_, decoded, same⟩ := map_eq_ok_iff.mp (set value entry)
      obtain rfl := Option.some.inj same
      obtain ⟨text, -, parsed⟩ := decodeOs_eq_ok_iff.mp decoded
      exact Os.parse_display parsed

/-- Settings for a system that is read from how it is shown are read from how they are written. -/
theorem decode_of_mem_orders (format : Format) {s : Settings}
    (shown : Os.parse s.os.display = .ok s.os) :
    ∀ w ∈ s.toValue.orders, decode format w = .ok s := by
  have decodeOs_display : decodeOs (.text s.os.display) = .ok s.os :=
    decodeOs_eq_ok_iff.mpr ⟨_, rfl, shown⟩
  simp only [toValue, Value.orders, Value.sorted, Value.sortedEntries, Value.insertSorted,
    String.reduceLT, String.reduceEq, reduceIte]
  simp [decode, RecordReader.read, RecordReader.ofEntries, RecordReader.addEntry, reader,
    Draft.finish, decodeOs_display, bind, Except.bind, pure, Except.pure]

theorem plain_toValue (s : Settings) : s.toValue.Plain := by
  simp [toValue]

end Settings

/-- Settings, package metadata, layouts, configurations for consumers and declarations of options
are written in forms that are read back. In settings a text with something other than blanks stands
for the one system that it names, and the name under which that is shown stands for it too. -/
theorem written_forms_read_back :
    Canonical (Settings.decode .json) Settings.toValue ∧
    Canonical (PackageMetadata.decode .json) PackageMetadata.toValue ∧
    Canonical (LayoutConfig.decode .json) LayoutConfig.toValue ∧
    Canonical (ConsumerConfig.decode .json) ConsumerConfig.toValue ∧
    Canonical (OptionDecl.decode .json) OptionDecl.toValue ∧
    (∀ text os, Settings.decodeOs (.text text) = .ok os ↔
      Text.trim text ≠ "" ∧ Os.Named (Text.trim text) os) ∧
    (∀ name os os', Os.Named name os → Os.Named name os' → os = os') ∧
    ∀ v os, Settings.decodeOs v = .ok os → Settings.decodeOs (.text os.display) = .ok os := by
  refine ⟨?_, ?_, ?_, ?_, ?_, ?_, fun _ _ _ named named' => named.unique named', ?_⟩
  · exact canonical_of_kind (fun _ _ read => Settings.parse_display_of_decode read)
      (fun _ shown => Settings.decode_of_mem_orders .json shown) Settings.plain_toValue
  · exact canonical_of_kind (fun _ _ read => (PackageMetadata.requires_of_decode read).2)
      (fun _ proper => PackageMetadata.decode_of_mem_orders .json proper)
      PackageMetadata.plain_toValue
  · exact canonical_of_kind (fun _ _ _ => trivial)
      (fun c _ => LayoutConfig.decode_of_mem_orders .json c) LayoutConfig.plain_toValue
  · exact canonical_of_kind (fun _ _ _ => trivial)
      (fun c _ => ConsumerConfig.decode_of_mem_orders .json c) ConsumerConfig.plain_toValue
  · exact canonical_of_kind (fun _ _ _ => trivial)
      (fun decl _ => OptionDecl.decode_of_mem_orders .json decl) OptionDecl.plain_toValue
  · intro text os
    rw [Settings.decodeOs_eq_ok_iff, ← Os.parse_eq_ok_iff]
    simp
  · intro v os read
    obtain ⟨text, -, parsed⟩ := Settings.decodeOs_eq_ok_iff.mp read
    exact Settings.decodeOs_eq_ok_iff.mpr ⟨_, rfl, Os.parse_display parsed⟩

/-- Settings that are listed field by field, with one of the other names of a system. -/
def listedSettings : Value :=
  .list [.text " DARWIN ", .text "clang", .text "Release", .text "arm64"]

/-- Metadata with a field that is absent, one that is null, and a topic that is there twice. -/
def repetitiveMetadata : Value :=
  .table [("name", .text "mini"), ("version", .text "0.1"), ("license", .null),
    ("topics", Value.texts ["net", "io", "net"]),
    ("requires", Value.texts ["zlib/1.3@user/stable"])]

/-- The settings are written for the system under its own name and the metadata with each topic once
and all fields, and both are read back. -/
theorem listed_settings_and_repetitive_metadata_read_back :
    (∃ s, Settings.decode .json listedSettings = .ok s ∧ s.os.display = "Macos" ∧
      Settings.decode .json s.toValue.sorted = .ok s) ∧
    ∃ package, PackageMetadata.decode .json repetitiveMetadata = .ok package ∧
      package.topics.toList = ["io", "net"] ∧ package.license = none ∧
      PackageMetadata.decode .json package.toValue = .ok package := by
  obtain ⟨settings, metadata, -⟩ := written_forms_read_back
  refine ⟨⟨_, rfl, rfl, ?_⟩, ⟨_, rfl, ?_, rfl, ?_⟩⟩
  · exact settings.read_back listedSettings _ rfl _ (by simp [Value.orders])
  · decide +kernel
  · exact metadata.read_back repetitiveMetadata _ rfl _ (by simp [Value.orders])

end PackageBuild
