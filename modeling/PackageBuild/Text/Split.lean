/-!
# Cutting a text at a separator

`cut` separates a text at the first occurrence of a character, `pieces` at every occurrence. Both
keep every other character, so joining the parts gives the text back.
-/

namespace PackageBuild
namespace Text

/-- The parts before and after the first `sep`, when there is one. -/
def cutChars (sep : Char) (cs : List Char) : Option (List Char × List Char) :=
  match cs.dropWhile (· != sep) with
  | [] => none
  | _ :: rest => some (cs.takeWhile (· != sep), rest)

/-- The texts before and after the first `sep`, when there is one. -/
def cut (sep : Char) (text : String) : Option (String × String) :=
  (cutChars sep text.toList).map fun (before, after) => (String.ofList before, String.ofList after)

/-- The parts of a text between the occurrences of `sep`; there is always at least one. -/
def piecesChars (sep : Char) : List Char → List (List Char)
  | [] => [[]]
  | c :: cs =>
    if c = sep then [] :: piecesChars sep cs
    else match piecesChars sep cs with
      | [] => [[c]]
      | piece :: rest => (c :: piece) :: rest

/-- The texts between the occurrences of `sep`. -/
def pieces (sep : Char) (text : String) : List String :=
  (piecesChars sep text.toList).map String.ofList

/-- Several texts with `sep` between neighbours. -/
def join (sep : String) (texts : List String) : String :=
  sep.intercalate texts

/-- Whether two texts differ at most in the case of their ASCII letters. -/
def sameIgnoringCase (a b : String) : Bool :=
  a.toList.map Char.toLower == b.toList.map Char.toLower

theorem piecesChars_ne_nil (sep : Char) (cs : List Char) : piecesChars sep cs ≠ [] := by
  cases cs with
  | nil => simp [piecesChars]
  | cons c cs =>
    unfold piecesChars
    split
    · simp
    · split <;> simp

/-- A text is cut where the part before the separator has none. -/
theorem cut_eq_some_iff {sep : Char} {text before after : String} :
    cut sep text = some (before, after) ↔
      sep ∉ before.toList ∧ text.toList = before.toList ++ sep :: after.toList := by
  rw [cut, cutChars]
  constructor
  · intro found
    split at found
    · cases found
    · rename_i stop rest remaining
      cases found
      have some_char : text.toList.dropWhile (· != sep) ≠ [] := by simp [remaining]
      have stops := List.head_dropWhile_not (· != sep) some_char
      obtain rfl : stop = sep := by simpa [remaining] using stops
      have passes := List.all_takeWhile (p := (· != stop)) (l := text.toList)
      rw [String.toList_ofList, String.toList_ofList, ← remaining, List.takeWhile_append_dropWhile]
      exact ⟨fun member => by simpa using List.all_eq_true.mp passes _ member, rfl⟩
  · rintro ⟨absent, text_eq⟩
    have passes : ∀ c ∈ before.toList, (c != sep) = true := by
      intro c member
      rw [bne_iff_ne]
      rintro rfl
      exact absent member
    have dropped : text.toList.dropWhile (· != sep) = sep :: after.toList := by
      rw [text_eq, List.dropWhile_append_of_pos passes, List.dropWhile_cons_of_neg (by simp)]
    have taken : text.toList.takeWhile (· != sep) = before.toList := by
      rw [text_eq, List.takeWhile_append_of_pos passes, List.takeWhile_cons_of_neg (by simp),
        List.append_nil]
    simp [dropped, taken]

theorem cut_eq_none_iff {sep : Char} {text : String} : cut sep text = none ↔ sep ∉ text.toList := by
  rw [Option.eq_none_iff_forall_ne_some]
  constructor
  · intro uncut member
    obtain ⟨before, after, split, absent⟩ := List.eq_append_cons_of_mem member
    refine uncut (String.ofList before, String.ofList after) (cut_eq_some_iff.mpr ?_)
    rw [String.toList_ofList, String.toList_ofList]
    exact ⟨absent, split⟩
  · rintro absent ⟨before, after⟩ cut
    rw [(cut_eq_some_iff.mp cut).2] at absent
    exact absent (by simp)

end Text
end PackageBuild
