import PackageBuild.Packager
import PackageBuild.Proofs.Outcome
/-!
# The rules of a recipe

A recipe has two rules, one for headers and one for libraries. A rule selects the names that one of
the patterns of the recipe matches.
-/

namespace PackageBuild

namespace Glob

/-- Whether one of some pattern texts is a pattern that matches a name. -/
def Matches (patterns : List String) (name : String) : Prop :=
  ∃ pattern ∈ patterns, ∃ glob, parse pattern = .ok glob ∧ glob.isMatch name = true

theorem matches_append (front back : List String) (name : String) :
    Matches (front ++ back) name ↔ Matches front name ∨ Matches back name := by
  simp only [Matches, List.mem_append, or_and_right, exists_or]

end Glob

namespace CopyRule

theorem any_isMatch_iff {patterns : List String} {globs : List Glob}
    (compiled : compile patterns = .ok globs) (name : String) :
    globs.any (·.isMatch name) = true ↔ Glob.Matches patterns name := by
  induction patterns generalizing globs with
  | nil =>
      obtain rfl := Except.ok.inj compiled
      simp [Glob.Matches]
  | cons pattern patterns induction =>
      rw [compile, List.mapM_cons] at compiled
      obtain ⟨glob, first, rest⟩ := bind_eq_ok_iff.mp compiled
      obtain ⟨others, remaining, last⟩ := bind_eq_ok_iff.mp rest
      obtain rfl := Except.ok.inj last
      have parsed : Glob.parse pattern = .ok glob := by
        cases read : Glob.parse pattern with
        | error fault =>
            rw [read] at first
            cases first
        | ok other =>
            rw [read] at first
            cases first
            rfl
      rw [List.any_cons, Bool.or_eq_true, induction remaining]
      simp [Glob.Matches, parsed]

/-- A rule with compiled patterns selects the names that the texts match. -/
theorem selects_iff {rule : CopyRule} {patterns : List String}
    (compiled : compile patterns = .ok rule.patterns) (name : String) :
    rule.selects name = true ↔ Glob.Matches patterns name :=
  any_isMatch_iff compiled name

theorem compile_eq_error {patterns : List String} {failure : Failure}
    (refused : compile patterns = .error failure) : ∃ fault, failure.cause = .pattern fault := by
  induction patterns with
  | nil => exact absurd refused (by simp [compile, pure, Except.pure])
  | cons pattern patterns induction =>
      rw [compile, List.mapM_cons] at refused
      rcases bind_eq_error_iff.mp refused with first | ⟨glob, -, rest⟩
      · cases read : Glob.parse pattern with
        | error fault =>
            rw [read] at first
            cases first
            exact ⟨fault, rfl⟩
        | ok glob =>
            rw [read] at first
            cases first
      · rcases bind_eq_error_iff.mp rest with others | ⟨globs, -, last⟩
        · exact induction others
        · cases last

end CopyRule

namespace Packager

/-- The packager of a recipe has a rule for headers and one for libraries, with the patterns of the
recipe. -/
theorem ofRecipe_eq_ok {recipe : Recipe} {buildDir : Path} {shared : Bool} {policy : CopyPolicy}
    {packager : Packager} (made : ofRecipe recipe buildDir shared policy = .ok packager) :
    ∃ headers libraries, CopyRule.compile (headerPatterns recipe.layout) = .ok headers ∧
      CopyRule.compile (libraryPatterns recipe.layout shared) = .ok libraries ∧
      packager = ⟨[.headers (recipe.root.join recipe.layout.includeDir) headers,
        .libraries buildDir libraries], policy⟩ := by
  unfold ofRecipe at made
  obtain ⟨headers, compiled, made⟩ := bind_eq_ok_iff.mp made
  obtain ⟨libraries, compiled', made⟩ := bind_eq_ok_iff.mp made
  obtain rfl := Except.ok.inj made
  exact ⟨headers, libraries, compiled, compiled', rfl⟩

theorem ofRecipe_eq_error {recipe : Recipe} {buildDir : Path} {shared : Bool} {policy : CopyPolicy}
    {failure : Failure} (refused : ofRecipe recipe buildDir shared policy = .error failure) :
    ∃ fault, failure.cause = .pattern fault := by
  unfold ofRecipe at refused
  rcases bind_eq_error_iff.mp refused with headers | ⟨headers, -, rest⟩
  · exact CopyRule.compile_eq_error headers
  · rcases bind_eq_error_iff.mp rest with libraries | ⟨libraries, -, last⟩
    · exact CopyRule.compile_eq_error libraries
    · cases last

theorem matches_libraryPatterns (layout : LayoutConfig) (shared : Bool) (name : String) :
    Glob.Matches (libraryPatterns layout shared) name ↔
      Glob.Matches layout.libraryPatterns name ∨
        shared = true ∧ Glob.Matches layout.sharedLibraryPatterns name := by
  rw [libraryPatterns, Glob.matches_append]
  cases shared with
  | false => simp [Glob.Matches]
  | true => simp

end Packager
end PackageBuild
