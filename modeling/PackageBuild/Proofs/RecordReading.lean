import Mathlib.Tactic.FinCases
import PackageBuild.Document.Decode
import PackageBuild.Document.Toml
import PackageBuild.Proofs.Outcome
/-!
# Reading the fields of a record

A record is read entry by entry, and every entry of its own adds to one field. What a field ends up
with is therefore what the last entry for it says, or what it started with.
-/

namespace PackageBuild
namespace Document

namespace Value

/-- The entries of a record with the given fields: those of a table, or the items of a list in the
order of the fields. -/
def entriesOf (fields : List String) : Value → List (String × Value)
  | .table entries => entries
  | .list items => fields.zip items
  | .moment value => [(Decode.momentKey, .text value)]
  | _ => []

/-- What a record with the given fields says under a key, by its last entry for it. -/
def under (fields : List String) (key : String) (v : Value) : Option Value :=
  (v.entriesOf fields).reverse.lookup key

end Value

namespace RecordReader

variable {σ α β : Type} {reader : RecordReader σ α} {key : String} {item : Value → Decoded β}
  {view : σ → β} {format : Format}

/-- Whether a view of the draft is what the entries under one key say, and nothing else. -/
structure Reads (reader : RecordReader σ α) (key : String) (item : Value → Decoded β)
    (view : σ → β) : Prop where
  declared : key ∈ reader.fields
  own : ∀ {value draft draft'}, reader.visit key value draft = .ok draft' →
    item value = .ok (view draft')
  other : ∀ {key' value draft draft'}, key' ∈ reader.fields → key' ≠ key →
    reader.visit key' value draft = .ok draft' → view draft' = view draft

section Visit

variable {γ : Type} {value : Decoded γ} {put : γ → σ} {draft draft' : σ}

theorem view_set (view : σ → γ) (visited : (do return put (← value)) = Except.ok draft')
    (set : ∀ c, view (put c) = c) : value = .ok (view draft') := by
  obtain ⟨c, read, made⟩ := bind_eq_ok_iff.mp visited
  obtain rfl := Except.ok.inj made
  rw [read, set]

/-- Where an image of the value is put, there the image is seen. -/
theorem view_map (view : σ → β) {image : γ → β}
    (visited : (do return put (← value)) = Except.ok draft')
    (set : ∀ c, view (put c) = image c) : image <$> value = .ok (view draft') := by
  obtain ⟨c, read, made⟩ := bind_eq_ok_iff.mp visited
  obtain rfl := Except.ok.inj made
  exact map_eq_ok_iff.mpr ⟨c, read, (set c).symm⟩

/-- Where the value of an entry is not put, there it changes nothing. -/
theorem view_kept (view : σ → β) (visited : (do return put (← value)) = Except.ok draft')
    (kept : ∀ c, view (put c) = view draft) : view draft' = view draft := by
  obtain ⟨c, -, made⟩ := bind_eq_ok_iff.mp visited
  obtain rfl := Except.ok.inj made
  exact kept c

end Visit

/-- A view is what the entries under one key say when those under the other keys leave it alone. -/
theorem Reads.of_others (declared : key ∈ reader.fields)
    (own : ∀ {value draft draft'}, reader.visit key value draft = .ok draft' →
      item value = .ok (view draft'))
    (others : ∀ key' ∈ reader.fields.erase key, ∀ {value draft draft'},
      reader.visit key' value draft = .ok draft' → view draft' = view draft) :
    reader.Reads key item view where
  declared := declared
  own := own
  other member differ := others _ ((List.mem_erase_of_ne differ).mpr member)

/-- One entry sets the view if it is under the key, and leaves it alone if it is not. -/
theorem Reads.addEntry (reads : reader.Reads key item view) {draft draft' : σ}
    {entry : String × Value} (added : reader.addEntry draft entry = .ok draft') :
    (entry.1 = key → item entry.2 = .ok (view draft')) ∧
      (entry.1 ≠ key → view draft' = view draft) := by
  unfold RecordReader.addEntry at added
  split at added
  · rename_i declared
    constructor
    · intro same
      rw [same] at added
      exact reads.own added
    · intro differ
      exact reads.other declared differ added
  · rename_i undeclared
    split at added
    · cases added
    · obtain rfl := Except.ok.inj added
      exact ⟨fun same => absurd (same ▸ reads.declared) undeclared, fun _ => rfl⟩

/-- After all entries the view is what the last one under the key says. -/
theorem Reads.foldlM (reads : reader.Reads key item view) {entries : List (String × Value)}
    {start draft : σ} (added : entries.foldlM reader.addEntry start = .ok draft) :
    (entries.reverse.lookup key = none → view draft = view start) ∧
      ∀ value, entries.reverse.lookup key = some value → item value = .ok (view draft) := by
  induction entries generalizing start with
  | nil =>
      obtain rfl := Except.ok.inj added
      exact ⟨fun _ => rfl, nofun⟩
  | cons entry entries induction =>
      rw [List.foldlM_cons] at added
      obtain ⟨middle, first, rest⟩ := bind_eq_ok_iff.mp added
      obtain ⟨own, other⟩ := reads.addEntry first
      obtain ⟨unset, set⟩ := induction rest
      obtain ⟨name, value⟩ := entry
      rw [List.reverse_cons, List.lookup_append]
      cases later : entries.reverse.lookup key with
      | some value => simpa using set value later
      | none =>
          rw [Option.none_or, List.lookup_cons, List.lookup_nil, unset later]
          by_cases same : name = key
          · simp [same, own same]
          · have differ : (key == name) = false := by simpa using Ne.symm same
            simp [differ, other same]

theorem exists_draft_of_ofEntries {entries : List (String × Value)} {record : α}
    (read : reader.ofEntries entries = .ok record) :
    ∃ draft, entries.foldlM reader.addEntry reader.start = .ok draft ∧
      reader.finish draft = .ok record := by
  unfold ofEntries at read
  obtain ⟨draft, added, finished⟩ := bind_eq_ok_iff.mp read
  refine ⟨draft, added, ?_⟩
  split at finished
  · rename_i whole
    obtain rfl := Except.ok.inj finished
    exact whole
  · cases finished

theorem exists_draft_of_read {v : Value} {record : α} (read : reader.read format v = .ok record) :
    ∃ draft, (v.entriesOf reader.fields).foldlM reader.addEntry reader.start = .ok draft ∧
      reader.finish draft = .ok record := by
  cases v with
  | table entries => exact exists_draft_of_ofEntries read
  | moment value => exact exists_draft_of_ofEntries read
  | list items =>
      change reader.ofItems format items = .ok record at read
      unfold ofItems at read
      obtain ⟨draft, added, finished⟩ := bind_eq_ok_iff.mp read
      refine ⟨draft, added, ?_⟩
      split at finished
      · cases finished
      · rename_i whole
        split at finished
        · cases finished
        · obtain rfl := Except.ok.inj finished
          exact whole
  | null | bool | int | float | text => cases read

/-- A text that is parsed is that of a document, from which the record is read. -/
theorem exists_doc_of_parsed {ε : Type} {content : String} {absent : ε} {wrap : DecodeError → ε}
    {record : α}
    (parsed : (match readToml? content with
      | none => Except.error absent
      | some doc => (reader.read .toml doc).mapError wrap) = .ok record) :
    ∃ doc, readToml? content = some doc ∧ reader.read .toml doc = .ok record := by
  split at parsed
  · cases parsed
  · rename_i doc written
    exact ⟨doc, written, mapError_eq_ok_iff.mp parsed⟩

/-- A field of a record that is read is what the last entry for it says. -/
theorem Reads.read (reads : reader.Reads key item view) {v : Value} {record : α}
    (read : reader.read format v = .ok record) :
    ∃ draft, reader.finish draft = .ok record ∧
      (v.under reader.fields key = none → view draft = view reader.start) ∧
      ∀ value, v.under reader.fields key = some value → item value = .ok (view draft) := by
  obtain ⟨draft, added, finished⟩ := exists_draft_of_read read
  exact ⟨draft, finished, reads.foldlM added⟩

end RecordReader
end Document
end PackageBuild
