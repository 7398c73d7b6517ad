import PackageBuild.Report
import Mathlib.Data.List.Basic
/-!
# What contexts do to a report

A failure passes through contexts on its way out. Each of them becomes the headline and pushes the
one before it down among the causes; what the report says of the failure itself, its code, its
advice and the command that failed, comes from the first cause of a known kind, and no context is
of one.
-/

namespace PackageBuild

namespace Failure

/-- A failure after it has passed through contexts, the last of which is the outermost. -/
def wrapped (failure : Failure) (contexts : List String) : Failure :=
  contexts.foldl (fun inner context => inner.within context) failure

theorem chain_wrapped (failure : Failure) (contexts : List String) :
    (failure.wrapped contexts).chain = contexts.reverse.map .plain ++ failure.chain := by
  induction contexts generalizing failure with
  | nil => rfl
  | cons context contexts induction =>
      have onward : failure.wrapped (context :: contexts) =
          (failure.within context).wrapped contexts := rfl
      rw [onward, induction, chain_within, List.reverse_cons, List.map_append, List.append_assoc]
      rfl

theorem texts_wrapped (failure : Failure) (contexts : List String) :
    (failure.wrapped contexts).texts = contexts.reverse ++ failure.texts := by
  have own_words : Cause.text ∘ Cause.plain = id := rfl
  rw [texts, chain_wrapped, List.map_append, List.map_map, own_words, List.map_id, texts]

theorem texts_ne_nil (failure : Failure) : failure.texts ≠ [] := by
  have innermost : failure.cause.chain ≠ [] := by
    cases failure.cause <;> exact List.cons_ne_nil _ _
  rw [texts, ne_eq, List.map_eq_nil_iff, chain]
  exact List.append_ne_nil_of_right_ne_nil _ innermost

end Failure

/-! ## The first cause of a known kind -/

/-- Whether a cause is the first of a known kind in a chain. -/
def Cause.FirstTyped (chain : List Cause) (cause : Cause) : Prop :=
  cause.isTyped = true ∧ ∃ front back, chain = front ++ cause :: back ∧
    ∀ earlier ∈ front, earlier.isTyped = false

theorem Cause.code_ne_none {cause : Cause} (known : cause.isTyped = true) : cause.code ≠ none := by
  cases cause with
  | recipe error => simp [code]
  | build error => simp [code]
  | package error => simp [code]
  | _ => cases known

namespace Report

open Cause

variable {chain : List Cause} {cause : Cause}

theorem find?_isTyped_eq_some_iff : chain.find? isTyped = some cause ↔ FirstTyped chain cause := by
  simp [List.find?_eq_some_iff_append, FirstTyped]

theorem find?_isTyped_eq_none_iff :
    chain.find? isTyped = none ↔ ∀ cause ∈ chain, cause.isTyped = false := by
  simp [List.find?_eq_none]

theorem find?_isTyped_contexts (contexts : List String) (chain : List Cause) :
    (contexts.map Cause.plain ++ chain).find? isTyped = chain.find? isTyped := by
  have untyped : (contexts.map Cause.plain).find? isTyped = none := by
    rw [find?_isTyped_eq_none_iff, List.forall_mem_map]
    exact fun _ _ => rfl
  rw [List.find?_append, untyped, Option.none_or]

/-- The line for the command is there exactly if the first cause of a known kind is a failed
build. -/
theorem commandLines_eq_iff (chain : List Cause) (lines : List String) :
    (((chain.find? isTyped).bind Cause.command).map ("command: " ++ ·)).toList = lines ↔
      (∃ error, FirstTyped chain (.build error) ∧ lines = ["command: " ++ error.command]) ∨
        (∀ error, ¬FirstTyped chain (.build error)) ∧ lines = [] := by
  simp only [← find?_isTyped_eq_some_iff]
  cases found : chain.find? isTyped with
  | none => simp [eq_comm]
  | some cause => cases cause <;> simp [Cause.command, eq_comm]

theorem code_ofFailure (failure : Failure) :
    (ofFailure failure).code = (failure.chain.find? isTyped).bind Cause.code := rfl

theorem suggestions_ofFailure (failure : Failure) :
    (ofFailure failure).suggestions = ((failure.chain.find? isTyped).bind Cause.help).toList := rfl

/-- A report shows every text of its failure once and in order, the first one as its headline. -/
theorem exists_causes (failure : Failure) :
    ∃ causes, failure.texts = (ofFailure failure).message :: causes ∧
      (ofFailure failure).context = causes ++
        (((failure.chain.find? isTyped).bind Cause.command).map ("command: " ++ ·)).toList := by
  obtain ⟨headline, causes, texts⟩ := List.exists_cons_of_ne_nil failure.texts_ne_nil
  have message : (ofFailure failure).message = failure.texts.headD "" := rfl
  have context : (ofFailure failure).context = failure.texts.drop 1 ++
      (((failure.chain.find? isTyped).bind Cause.command).map ("command: " ++ ·)).toList := rfl
  rw [texts, List.headD_cons] at message
  rw [texts, List.drop_one, List.tail_cons] at context
  exact ⟨causes, by rw [texts, message], context⟩

/-- What a failure is wrapped in changes the texts of its report only. The last context becomes the
headline, all texts below it are listed in order, each once, and after them the line for the command
that failed, exactly if the first cause of a known kind is a failed build. Code and advice are those
of that cause, as they are without the contexts, and there are none without such a cause. -/
theorem ofFailure_wrapped (failure : Failure) (contexts : List String) :
    let report := ofFailure (failure.wrapped contexts)
    (∃ causes lines, contexts.reverse ++ failure.texts = report.message :: causes ∧
      report.context = causes ++ lines ∧
      ((∃ error, FirstTyped failure.chain (.build error) ∧
          lines = ["command: " ++ error.command]) ∨
        (∀ error, ¬FirstTyped failure.chain (.build error)) ∧ lines = [])) ∧
    (report.code = (ofFailure failure).code ∧
      report.suggestions = (ofFailure failure).suggestions ∧ report.suggestions.length ≤ 1) ∧
    (∀ typed, FirstTyped failure.chain typed →
      report.code = typed.code ∧ report.code ≠ none ∧ report.suggestions = typed.help.toList) ∧
    ((∀ cause ∈ failure.chain, cause.isTyped = false) →
      report.code = none ∧ report.suggestions = []) := by
  intro report
  have first : (failure.wrapped contexts).chain.find? isTyped = failure.chain.find? isTyped := by
    rw [Failure.chain_wrapped, find?_isTyped_contexts]
  have code := code_ofFailure (failure.wrapped contexts)
  have suggestions := suggestions_ofFailure (failure.wrapped contexts)
  obtain ⟨causes, texts, context⟩ := exists_causes (failure.wrapped contexts)
  rw [Failure.texts_wrapped] at texts
  rw [first] at code suggestions context
  refine ⟨⟨causes, _, texts, context, (commandLines_eq_iff failure.chain _).mp rfl⟩,
    ⟨code, suggestions, ?_⟩, fun typed is_first => ?_, fun untyped => ?_⟩
  · rw [suggestions]
    exact Option.length_toList_le
  · rw [find?_isTyped_eq_some_iff.mpr is_first, Option.bind_some] at code suggestions
    refine ⟨code, ?_, suggestions⟩
    rw [code]
    exact code_ne_none is_first.1
  · rw [find?_isTyped_eq_none_iff.mpr untyped] at code suggestions
    exact ⟨code, suggestions⟩

/-- A build that fails in two contexts is reported with its command, and with the code it has
without them. -/
theorem failed_build_wrapped :
    let error : BuildError := ⟨.compile, "cmake --build build", some 2⟩
    let failure := Failure.of (.build error)
    let report := ofFailure (failure.wrapped ["while building mini", "while packaging mini"])
    FirstTyped failure.chain (.build error) ∧
      report.code = some "gantry::build::build_failed" ∧
      report.message = "while packaging mini" ∧
      report.context = ["while building mini", "cmake build failed with exit code: 2",
        "command: cmake --build build"] := by
  intro error failure report
  have is_first : FirstTyped failure.chain (.build error) := ⟨rfl, [], [], rfl, by simp⟩
  obtain ⟨-, -, known, -⟩ :=
    ofFailure_wrapped failure ["while building mini", "while packaging mini"]
  exact ⟨is_first, (known _ is_first).1, by decide +kernel, by decide +kernel⟩

end Report
end PackageBuild
