import PackageBuild.Manifest.Metadata
import PackageBuild.Proofs.ExactDecoders
import PackageBuild.Proofs.RecordReading
/-!
# Requirements as texts

A requirement is written in one way only: a name and a version with a slash between them, and behind
an at sign a user and a channel with a slash between them, if the version is qualified. The parts
have neither slashes nor at signs, so a text is cut where it was joined, and the text of a
requirement says which one it is.
-/

namespace PackageBuild

/-- Whether a text is made of ASCII letters, digits and some other characters, and not empty. -/
def Text.MadeOf (others : List Char) (text : String) : Prop :=
  text ≠ "" ∧ ∀ c ∈ text.toList, c.isAlphanum = true ∨ c ∈ others

namespace Requirement

/-- Whether a text is a part of a requirement. -/
def Part : String → Prop := Text.MadeOf ['_', '-', '.', '+']

/-- The texts that are requirements. -/
inductive Form : String → Prop
  | plain {name version : String} (named : Part name) (versioned : Part version) :
      Form (name ++ "/" ++ version)
  | qualified {name version user channel : String} (named : Part name) (versioned : Part version)
      (published : Part user) (channelled : Part channel) :
      Form (name ++ "/" ++ version ++ "@" ++ user ++ "/" ++ channel)

/-- Whether all parts of a requirement can be written. -/
structure WellFormed (r : Requirement) : Prop where
  named : Part r.name
  versioned : Part r.version
  published : ∀ channel, r.channel = some channel → Part channel.user
  channelled : ∀ channel, r.channel = some channel → Part channel.channel

variable {text text' name version : String} {channel : Channel} {r : Requirement}

theorem isPart_iff : isPart text = true ↔ Part text := by
  simp [isPart, Part, Text.MadeOf, isPartChar, or_assoc]

/-- A part has none of the separators. -/
theorem Part.not_mem (part : Part text) {sep : Char} (separates : sep ∈ ['/', '@']) :
    sep ∉ text.toList := by
  have foreign : ¬(sep.isAlphanum = true ∨ sep ∈ ['_', '-', '.', '+']) := by
    simp only [List.mem_cons, List.not_mem_nil, or_false] at separates
    rcases separates with rfl | rfl <;> decide
  exact fun member => foreign (part.2 sep member)

/-- A text is cut where a separator joins two others, the first of which has none. -/
theorem cut_eq_some_iff_joined {before after : String} (sep : Char) (joiner : String)
    (single : joiner.toList = [sep]) : Text.cut sep text = some (before, after) ↔
      sep ∉ before.toList ∧ text = before ++ joiner ++ after := by
  rw [Text.cut_eq_some_iff, ← String.toList_inj]
  simp [single]

theorem readReference_eq_ok_iff : readReference text = .ok (name, version) ↔
    (Part name ∧ Part version) ∧ text = name ++ "/" ++ version := by
  constructor
  · intro read
    unfold readReference at read
    split at read
    · cases read
    · rename_i cut
      split at read
      · cases read
      · split at read
        · cases read
        · rename_i named versioned
          cases read
          simp only [Bool.not_eq_true', Bool.not_eq_false, isPart_iff] at named versioned
          exact ⟨⟨named, versioned⟩, ((cut_eq_some_iff_joined '/' "/" rfl).mp cut).2⟩
  · rintro ⟨⟨named, versioned⟩, rfl⟩
    have cut : Text.cut '/' (name ++ "/" ++ version) = some (name, version) :=
      (cut_eq_some_iff_joined '/' "/" rfl).mpr ⟨named.not_mem (by decide), rfl⟩
    simp [readReference, cut, isPart_iff.mpr named, isPart_iff.mpr versioned]

theorem readChannel_eq_ok_iff : readChannel text = .ok channel ↔
    (Part channel.user ∧ Part channel.channel) ∧ text = channel.display := by
  constructor
  · intro read
    unfold readChannel at read
    split at read
    · cases read
    · rename_i cut
      split at read
      · rename_i parts
        cases read
        rw [Bool.and_eq_true, isPart_iff, isPart_iff] at parts
        exact ⟨parts, ((cut_eq_some_iff_joined '/' "/" rfl).mp cut).2⟩
      · cases read
  · rintro ⟨⟨published, channelled⟩, rfl⟩
    have cut : Text.cut '/' channel.display = some (channel.user, channel.channel) :=
      (cut_eq_some_iff_joined '/' "/" rfl).mpr ⟨published.not_mem (by decide), rfl⟩
    simp [readChannel, cut, isPart_iff.mpr published, isPart_iff.mpr channelled]

theorem read_eq_ok_iff : read text = .ok r ↔ r.WellFormed ∧ text = r.display := by
  constructor
  · intro done
    unfold read at done
    split at done
    · obtain ⟨⟨name, version⟩, reference, made⟩ := bind_eq_ok_iff.mp done
      obtain ⟨⟨named, versioned⟩, rfl⟩ := readReference_eq_ok_iff.mp reference
      obtain rfl := Except.ok.inj made
      exact ⟨⟨named, versioned, nofun, nofun⟩, by simp [display]⟩
    · rename_i cut
      obtain ⟨⟨name, version⟩, reference, done⟩ := bind_eq_ok_iff.mp done
      obtain ⟨channel, qualified, made⟩ := bind_eq_ok_iff.mp done
      obtain ⟨⟨named, versioned⟩, rfl⟩ := readReference_eq_ok_iff.mp reference
      obtain ⟨⟨published, channelled⟩, rfl⟩ := readChannel_eq_ok_iff.mp qualified
      obtain rfl := Except.ok.inj made
      refine ⟨⟨named, versioned, ?_, ?_⟩, ?_⟩
      · rintro _ ⟨⟩
        exact published
      · rintro _ ⟨⟩
        exact channelled
      · rw [((cut_eq_some_iff_joined '@' "@" rfl).mp cut).2]
        simp [display, String.append_assoc]
  · rintro ⟨⟨named, versioned, published, channelled⟩, rfl⟩
    obtain ⟨name, version, channel⟩ := r
    have reference := readReference_eq_ok_iff.mpr ⟨⟨named, versioned⟩, rfl⟩
    have no_sign : '@' ∉ (name ++ "/" ++ version).toList := by
      simp [named.not_mem, versioned.not_mem]
    cases channel with
    | none =>
        have plain : display ⟨name, version, none⟩ = name ++ "/" ++ version := by simp [display]
        rw [plain, read, Text.cut_eq_none_iff.mpr no_sign]
        exact bind_eq_ok_iff.mpr ⟨_, reference, rfl⟩
    | some channel =>
        have qualified : readChannel channel.display = .ok channel :=
          readChannel_eq_ok_iff.mpr ⟨⟨published _ rfl, channelled _ rfl⟩, rfl⟩
        have cut : Text.cut '@' (display ⟨name, version, some channel⟩) =
            some (name ++ "/" ++ version, channel.display) :=
          (cut_eq_some_iff_joined '@' "@" rfl).mpr ⟨no_sign, by simp [display, String.append_assoc]⟩
        rw [read, cut]
        exact bind_eq_ok_iff.mpr ⟨_, reference, bind_eq_ok_iff.mpr ⟨_, qualified, rfl⟩⟩

theorem parse_eq_ok_iff : parse text = .ok r ↔ r.WellFormed ∧ text = r.display := by
  rw [parse, mapError_eq_ok_iff, read_eq_ok_iff]

theorem form_iff : Form text ↔ ∃ r : Requirement, r.WellFormed ∧ text = r.display := by
  constructor
  · intro form
    cases form with
    | @plain name version named versioned =>
        exact ⟨⟨name, version, none⟩, ⟨named, versioned, nofun, nofun⟩, by simp [display]⟩
    | @qualified name version user channel named versioned published channelled =>
        refine ⟨⟨name, version, some ⟨user, channel⟩⟩, ⟨named, versioned, ?_, ?_⟩,
          by simp [display, Channel.display, String.append_assoc]⟩
        · rintro _ ⟨⟩
          exact published
        · rintro _ ⟨⟩
          exact channelled
  · rintro ⟨⟨name, version, channel⟩, ⟨named, versioned, published, channelled⟩, rfl⟩
    cases channel with
    | none =>
        have plain : display ⟨name, version, none⟩ = name ++ "/" ++ version := by simp [display]
        rw [plain]
        exact .plain named versioned
    | some channel =>
        have qualified : display ⟨name, version, some channel⟩ =
            name ++ "/" ++ version ++ "@" ++ channel.user ++ "/" ++ channel.channel := by
          simp [display, Channel.display, String.append_assoc]
        rw [qualified]
        exact .qualified named versioned (published _ rfl) (channelled _ rfl)

end Requirement

namespace PackageMetadata

open Document

/-- In a document a requirement is the text that it is written as. -/
theorem exact_decodeRequirement :
    Exact decodeRequirement (fun r => .text r.display) Requirement.WellFormed := by
  intro v r
  rw [decodeRequirement, bind_eq_ok_iff]
  constructor
  · rintro ⟨text, read, made⟩
    obtain ⟨rfl, -⟩ := (Decode.exact_text _ _).mp read
    split at made
    · rename_i requirement parsed
      obtain rfl := Except.ok.inj made
      obtain ⟨proper, rfl⟩ := Requirement.parse_eq_ok_iff.mp parsed
      exact ⟨rfl, proper⟩
    · cases made
  · rintro ⟨rfl, proper⟩
    have parsed := Requirement.parse_eq_ok_iff.mpr ⟨proper, rfl⟩
    exact ⟨r.display, rfl, by rw [parsed]; rfl⟩

theorem reads_requires :
    reader.Reads "requires" (Decode.list decodeRequirement) (·.rest.requires) := by
  apply RecordReader.Reads.of_others (by simp [reader])
  · exact fun visited => RecordReader.view_set (·.rest.requires) visited fun _ => rfl
  · intro key member value draft draft' visited
    fin_cases member <;> exact RecordReader.view_kept (·.rest.requires) visited fun _ => rfl

variable {format : Format} {v : Value} {package : PackageMetadata}

theorem requires_of_finish {draft : Draft} (finished : draft.finish = .ok package) :
    package.requires = draft.rest.requires := by
  unfold Draft.finish at finished
  split at finished
  · obtain rfl := Except.ok.inj finished
    rfl
  · cases finished
  · cases finished

theorem requires_of_decode (read : decode format v = .ok package) :
    (v.under reader.fields "requires").getD (.list []) =
        Value.texts (package.requires.map Requirement.display) ∧
      ∀ r ∈ package.requires, r.WellFormed := by
  obtain ⟨draft, finished, unset, set⟩ := reads_requires.read read
  rw [requires_of_finish finished]
  cases written : v.under reader.fields "requires" with
  | none =>
      have none_required : draft.rest.requires = [] := unset written
      simp [none_required, Value.texts]
  | some value =>
      obtain ⟨listed, proper⟩ :=
        (Decode.exact_list exact_decodeRequirement value _).mp (set value written)
      refine ⟨?_, proper⟩
      rw [Option.getD_some, listed, Value.texts, List.map_map]
      rfl

end PackageMetadata

namespace Requirement

/-- The texts that are requirements are those of a name and a version, or of a name, a version, a
user and a channel, with a separator between each two. Such a text, alone or in a document, is how
the requirement that is read from it is written, and a requirement whose parts can be written is
read from how it is written. So different texts are different requirements. -/
theorem parse_inverts_display :
    (∀ text, (∃ r, parse text = .ok r) ↔ Form text) ∧
    (∀ text r, parse text = .ok r → r.display = text ∧ r.WellFormed) ∧
    (∀ v r, PackageMetadata.decodeRequirement v = .ok r → v = .text r.display) ∧
    (∀ r, r.WellFormed → parse r.display = .ok r ∧
      PackageMetadata.decodeRequirement (.text r.display) = .ok r) ∧
    ∀ text text' r, parse text = .ok r → parse text' = .ok r → text = text' := by
  refine ⟨fun text => ?_, fun text r read => ?_, fun v r read => ?_, fun r proper => ⟨?_, ?_⟩,
    fun text text' r read read' => ?_⟩
  · rw [form_iff]
    exact exists_congr fun r => parse_eq_ok_iff
  · obtain ⟨proper, written⟩ := parse_eq_ok_iff.mp read
    exact ⟨written.symm, proper⟩
  · exact ((PackageMetadata.exact_decodeRequirement v r).mp read).1
  · exact parse_eq_ok_iff.mpr ⟨proper, rfl⟩
  · exact (PackageMetadata.exact_decodeRequirement _ r).mpr ⟨rfl, proper⟩
  · exact (parse_eq_ok_iff.mp read).2.trans (parse_eq_ok_iff.mp read').2.symm

/-- A requirement with a channel is read back, and a channel without a user makes none. -/
theorem qualified_requirement_read :
    parse "data/1.0@user/stable" = .ok ⟨"data", "1.0", some ⟨"user", "stable"⟩⟩ ∧
      Form "data/1.0@user/stable" ∧ ¬Form "boost/1.0@stable" := by
  obtain ⟨accepted, -, -, read_back, -⟩ := parse_inverts_display
  have proper : WellFormed ⟨"data", "1.0", some ⟨"user", "stable"⟩⟩ := by
    refine ⟨isPart_iff.mp (by decide), isPart_iff.mp (by decide), ?_, ?_⟩ <;>
    · rintro _ ⟨⟩
      exact isPart_iff.mp (by decide)
  have read := (read_back _ proper).1
  refine ⟨read, (accepted _).mp ⟨_, read⟩, ?_⟩
  rw [← accepted]
  rintro ⟨r, read⟩
  have refused : (parse "boost/1.0@stable").toOption = none := by decide +kernel
  rw [read] at refused
  cases refused

end Requirement
end PackageBuild
