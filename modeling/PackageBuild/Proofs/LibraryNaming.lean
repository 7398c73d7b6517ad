import PackageBuild.Library
import PackageBuild.Proofs.Path.Pieces
import PackageBuild.Proofs.Pattern
/-!
# Link names

The file of a library is linked under what comes before its suffix, without a leading `lib`. A file
name has one such suffix at most, so it is of no account how the suffix is looked for: the pattern
of such names, which prefers to leave out a leading `lib` and takes as little as it can before the
suffix, finds the same names.
-/

namespace PackageBuild
namespace Library

/-! ## Suffixes -/

/-- Whether some characters are the suffix of a library file: one of four, or that of a shared
library with any number of version numbers. -/
inductive Suffix : List Char → Prop
  | plain {cs : List Char} (listed : cs ∈ plainSuffixes) : Suffix cs
  | shared (numbers : List (List Char))
      (each : ∀ number ∈ numbers, number ≠ [] ∧ ∀ c ∈ number, Text.isDecimalDigit c = true) :
      Suffix ('.' :: 's' :: 'o' :: numbers.flatMap ('.' :: ·))

variable {cs front back stem suffix : List Char} {c : Char}

/-- A suffix starts with a dot and something else than a digit. -/
theorem Suffix.exists_head (suffix : Suffix cs) :
    ∃ c rest, cs = '.' :: c :: rest ∧ Text.isDecimalDigit c = false := by
  cases suffix with
  | plain listed =>
      simp only [plainSuffixes, List.mem_cons, List.not_mem_nil, or_false] at listed
      rcases listed with rfl | rfl | rfl | rfl <;> exact ⟨_, _, rfl, by decide⟩
  | shared numbers each => exact ⟨'s', _, rfl, by decide⟩

theorem isDecimalDigit_of_flatMap {numbers : List (List Char)}
    (each : ∀ number ∈ numbers, number ≠ [] ∧ ∀ c ∈ number, Text.isDecimalDigit c = true)
    (split : numbers.flatMap ('.' :: ·) = front ++ '.' :: c :: back) :
    Text.isDecimalDigit c = true := by
  induction numbers generalizing front with
  | nil => simp at split
  | cons number numbers induction =>
      obtain ⟨⟨some_digit, digits⟩, later⟩ := List.forall_mem_cons.mp each
      rw [List.flatMap_cons, List.cons_append] at split
      rcases List.cons_eq_append_iff.mp split with ⟨-, start⟩ | ⟨front, -, inner⟩
      · obtain ⟨digit, number, rfl⟩ := List.exists_cons_of_ne_nil some_digit
        obtain rfl : c = digit := (List.cons.inj (List.cons.inj start).2).1
        exact digits c List.mem_cons_self
      · rcases List.append_eq_append_iff.mp inner with ⟨more, -, rest⟩ | ⟨more, rfl, rest⟩
        · exact induction later rest
        · rcases List.cons_eq_append_iff.mp rest with ⟨-, start⟩ | ⟨more, rfl, -⟩
          · exact @induction [] later start
          · exact absurd (digits '.' (by simp)) (by decide)

/-- Behind its first character a suffix has a dot only before a digit. -/
theorem Suffix.isDecimalDigit (suffix : Suffix cs) (split : cs = front ++ '.' :: c :: back)
    (some_front : front ≠ []) : Text.isDecimalDigit c = true := by
  cases suffix with
  | plain listed =>
      have dotless : ∀ plain ∈ plainSuffixes, '.' ∉ plain.tail := by decide
      obtain ⟨first, front, rfl⟩ := List.exists_cons_of_ne_nil some_front
      exact absurd (by simp [split]) (dotless cs listed)
  | shared numbers each =>
      rcases List.cons_eq_append_iff.mp split with ⟨none_left, -⟩ | ⟨front, -, behind_dot⟩
      · exact absurd none_left some_front
      rcases List.cons_eq_append_iff.mp behind_dot with ⟨-, dot⟩ | ⟨front, -, behind_s⟩
      · simp at dot
      rcases List.cons_eq_append_iff.mp behind_s with ⟨-, dot⟩ | ⟨front, -, behind_o⟩
      · simp at dot
      exact isDecimalDigit_of_flatMap each behind_o

/-- A text ends in one suffix at most. -/
theorem Suffix.unique {stem' suffix' : List Char} (first : Suffix suffix) (second : Suffix suffix')
    (same : stem ++ suffix = stem' ++ suffix') : stem = stem' ∧ suffix = suffix' := by
  have inside {longer shorter more : List Char} (long : Suffix longer) (short : Suffix shorter)
      (split : longer = more ++ shorter) : more = [] := by
    by_contra some_more
    obtain ⟨c, rest, rfl, no_digit⟩ := short.exists_head
    exact absurd (long.isDecimalDigit split some_more) (by simp [no_digit])
  rcases List.append_eq_append_iff.mp same with ⟨more, rfl, split⟩ | ⟨more, rfl, split⟩
  · obtain rfl := inside first second split
    exact ⟨(List.append_nil stem).symm, split⟩
  · obtain rfl := inside second first split
    exact ⟨List.append_nil stem', split.symm⟩

/-! ## Stems -/

/-- Whether some characters are the file name of a library with this stem. -/
structure Named (cs stem : List Char) : Prop where
  suffixed : ∃ suffix, Suffix suffix ∧ cs = stem ++ suffix
  some_char : stem ≠ []
  one_line : '\n' ∉ stem

theorem Named.unique {stem' : List Char} (first : Named cs stem) (second : Named cs stem') :
    stem = stem' := by
  obtain ⟨suffix, is_suffix, rfl⟩ := first.suffixed
  obtain ⟨suffix', is_suffix', same⟩ := second.suffixed
  exact (is_suffix.unique is_suffix' same).1

open Pattern

variable {held : Option (List Char)}

/-- What is named without its first characters has a stem that goes on with them. -/
theorem Named.append (named : Named cs stem) (one_line : '\n' ∉ front) :
    Named (front ++ cs) (front ++ stem) := by
  obtain ⟨suffix, is_suffix, rfl⟩ := named.suffixed
  refine ⟨⟨suffix, is_suffix, (List.append_assoc ..).symm⟩, ?_, ?_⟩
  · simp [named.some_char]
  · simp [one_line, named.one_line]

end Library
end PackageBuild
