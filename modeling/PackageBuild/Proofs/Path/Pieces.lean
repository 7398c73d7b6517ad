import PackageBuild.Path
import Mathlib.Data.List.Basic
/-!
# The pieces of a path

Cutting a text at every slash is undone by joining the pieces with slashes, and whether a path is
absolute shows in its pieces. The components of a path therefore depend on its pieces only.
-/

namespace PackageBuild

namespace Text

theorem piecesChars_eq_splitOn (sep : Char) (cs : List Char) :
    piecesChars sep cs = cs.splitOn sep := by
  induction cs with
  | nil => rfl
  | cons c cs induction =>
      rw [piecesChars, List.splitOn_cons_eq_if_modifyHead, induction]
      cases cut : cs.splitOn sep with
      | nil => exact absurd cut (List.splitOn_ne_nil sep cs)
      | cons piece rest => simp

theorem not_mem_of_mem_piecesChars {sep : Char} {cs piece : List Char}
    (member : piece ∈ piecesChars sep cs) : sep ∉ piece := by
  induction cs generalizing piece with
  | nil =>
      rw [piecesChars, List.mem_singleton] at member
      simp [member]
  | cons c cs induction =>
      rw [piecesChars] at member
      split at member
      · rcases List.mem_cons.mp member with rfl | member
        · simp
        · exact induction member
      · rename_i other
        split at member
        · rw [List.mem_singleton] at member
          simp [member, Ne.symm other]
        · rename_i first rest cut
          rcases List.mem_cons.mp member with rfl | member
          · have free : sep ∉ first := induction (by simp [cut])
            simp [Ne.symm other, free]
          · exact induction (by simp [cut, member])

theorem toList_join (texts : List String) :
    (join "/" texts).toList = ['/'].intercalate (texts.map String.toList) := by
  rw [join, String.toList_intercalate]
  rfl

/-- Joining the pieces of a text gives the text back. -/
theorem join_pieces (text : String) : join "/" (pieces '/' text) = text := by
  have back : (String.toList ∘ String.ofList) = id := by
    funext cs
    simp
  rw [← String.toList_inj, toList_join, pieces, List.map_map, back, List.map_id,
    piecesChars_eq_splitOn, List.intercalate_splitOn]

theorem pieces_join {texts : List String} (some_text : texts ≠ [])
    (free : ∀ text ∈ texts, '/' ∉ text.toList) : pieces '/' (join "/" texts) = texts := by
  have parts : ∀ part ∈ texts.map String.toList, '/' ∉ part := by
    simpa using free
  have back : (String.ofList ∘ String.toList) = id := by
    funext text
    simp
  rw [pieces, toList_join, piecesChars_eq_splitOn,
    List.splitOn_intercalate _ parts (by simpa using some_text), List.map_map, back, List.map_id]

theorem not_mem_of_mem_pieces {text piece : String} (member : piece ∈ pieces '/' text) :
    '/' ∉ piece.toList := by
  rw [pieces, List.mem_map] at member
  obtain ⟨cs, cut, rfl⟩ := member
  rw [String.toList_ofList]
  exact not_mem_of_mem_piecesChars cut

theorem pieces_ne_nil (text : String) : pieces '/' text ≠ [] := by
  simpa [pieces] using piecesChars_ne_nil '/' text.toList

/-- A slash separates the pieces before it from those after it. -/
theorem pieces_append_slash (front back : String) :
    pieces '/' (front ++ "/" ++ back) = pieces '/' front ++ pieces '/' back := by
  have chars : (front ++ "/" ++ back).toList = front.toList ++ '/' :: back.toList := by
    simp
  simp only [pieces, chars, piecesChars_eq_splitOn, List.splitOn_append_cons_self, List.map_append]

theorem pieces_of_not_mem {text : String} (free : '/' ∉ text.toList) :
    pieces '/' text = [text] := by
  rw [pieces, piecesChars_eq_splitOn, List.splitOn_eq_singleton free, List.map_singleton,
    String.ofList_toList]

end Text

namespace Path

/-- The component that the first piece of a path stands for, when others follow or not. -/
def headComponent (first : String) (rest : List String) : Option Component :=
  if first = "" ∧ rest ≠ [] then some .root
  else if first = "." then some .current
  else Component.ofPiece? first

/-- The pieces of a path with the components they stand for. -/
def tokensOf : List String → List (Option Component × String)
  | [] => []
  | first :: rest =>
    (headComponent first rest, first) :: rest.map fun piece => (Component.ofPiece? piece, piece)

/-- A path is absolute exactly if its first piece is empty and not the only one. -/
theorem isAbsolute_iff {p : Path} {first : String} {rest : List String}
    (cut : Text.pieces '/' p.text = first :: rest) :
    p.isAbsolute = true ↔ first = "" ∧ rest ≠ [] := by
  rw [Text.pieces] at cut
  rw [isAbsolute]
  cases chars : p.text.toList with
  | nil =>
      rw [chars, Text.piecesChars, List.map_singleton] at cut
      obtain ⟨-, rfl⟩ := List.cons.inj cut
      simp
  | cons c cs =>
      rw [chars, Text.piecesChars] at cut
      by_cases slash : c = '/'
      · rw [if_pos slash, List.map_cons] at cut
        obtain ⟨rfl, rfl⟩ := List.cons.inj cut
        simp [slash, Text.piecesChars_ne_nil]
      · rw [if_neg slash] at cut
        split at cut
        · obtain ⟨rfl, rfl⟩ := List.cons.inj cut
          simp [slash]
        · obtain ⟨rfl, rfl⟩ := List.cons.inj cut
          simp [slash]

/-- The tokens of a path depend on its pieces only. -/
theorem tokens_eq_tokensOf (p : Path) : p.tokens = tokensOf (Text.pieces '/' p.text) := by
  rw [tokens]
  cases cut : Text.pieces '/' p.text with
  | nil => exact absurd cut (Text.pieces_ne_nil p.text)
  | cons first rest =>
      have absolute := isAbsolute_iff cut
      simp [tokensOf, headComponent, absolute]

theorem map_snd_tokensOf (pieces : List String) : (tokensOf pieces).map (·.2) = pieces := by
  cases pieces with
  | nil => rfl
  | cons first rest => simp [tokensOf, Function.comp_def]

/-- The pieces of a path are the texts of its tokens. -/
theorem map_snd_tokens (p : Path) : p.tokens.map (·.2) = Text.pieces '/' p.text := by
  rw [tokens_eq_tokensOf, map_snd_tokensOf]

/-- Pieces before others stand for the same components as alone, but for a single empty piece. -/
theorem tokensOf_append {front back : List String} (some_front : front ≠ [])
    (proper : front ≠ [""]) :
    tokensOf (front ++ back) =
      tokensOf front ++ back.map fun piece => (Component.ofPiece? piece, piece) := by
  cases front with
  | nil => exact absurd rfl some_front
  | cons first rest =>
      have head : headComponent first (rest ++ back) = headComponent first rest := by
        by_cases empty : first = ""
        · have more : rest ≠ [] := by
            rintro rfl
            exact proper (by rw [empty])
          simp [headComponent, empty, more]
        · simp [headComponent, empty]
      simp [tokensOf, head]

end Path
end PackageBuild
