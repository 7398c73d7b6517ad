import PackageBuild.Document.Decode
import PackageBuild.Proofs.Outcome
/-!
# Exact decoders

Some kinds of values have one written form each: a decoder that reads nothing but these forms is
the inverse of the encoder that writes them. Lists of such values are of the same kind.
-/

namespace PackageBuild
namespace Document

/-- Whether a decoder reads exactly what an encoder writes for the values of some kind. -/
def Exact {α : Type} (decode : Value → Decoded α) (encode : α → Value) (kind : α → Prop) : Prop :=
  ∀ v x, decode v = .ok x ↔ v = encode x ∧ kind x

namespace Decode

variable {α : Type} {item : Value → Decoded α} {encode : α → Value} {kind : α → Prop}

theorem exact_text : Exact text .text fun _ => True := by
  intro v text
  cases v <;> simp [Decode.text, textFor]

theorem exact_pathText : Exact pathText .text fun _ => True := by
  intro v text
  cases v <;> simp [Decode.pathText, textFor]

theorem mapM_eq_ok_iff (exact : Exact item encode kind) {items : List Value} {xs : List α} :
    items.mapM item = .ok xs ↔ items = xs.map encode ∧ ∀ x ∈ xs, kind x := by
  induction items generalizing xs with
  | nil =>
      rw [List.mapM_nil]
      constructor
      · intro read
        obtain rfl := Except.ok.inj read
        exact ⟨rfl, by simp⟩
      · rintro ⟨none_written, -⟩
        rw [List.map_eq_nil_iff.mp none_written.symm]
        rfl
  | cons v items induction =>
      rw [List.mapM_cons, bind_eq_ok_iff]
      simp only [bind_eq_ok_iff, induction]
      constructor
      · rintro ⟨x, first, rest, ⟨rfl, kinds⟩, made⟩
        obtain rfl := Except.ok.inj made
        obtain ⟨rfl, first_kind⟩ := (exact v x).mp first
        exact ⟨rfl, List.forall_mem_cons.mpr ⟨first_kind, kinds⟩⟩
      · rintro ⟨written, kinds⟩
        obtain ⟨x, rest, rfl, rfl, rfl⟩ := List.map_eq_cons_iff.mp written.symm
        obtain ⟨first_kind, kinds⟩ := List.forall_mem_cons.mp kinds
        exact ⟨x, (exact _ x).mpr ⟨rfl, first_kind⟩, rest, ⟨rfl, kinds⟩, rfl⟩

theorem exact_list (exact : Exact item encode kind) :
    Exact (list item) (fun xs => .list (xs.map encode)) fun xs => ∀ x ∈ xs, kind x := by
  intro v xs
  cases v with
  | list items => simp [Decode.list, mapM_eq_ok_iff exact]
  | _ => simp [Decode.list]

end Decode
end Document
end PackageBuild
