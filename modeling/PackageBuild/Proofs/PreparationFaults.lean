import PackageBuild.Proofs.Preparation
/-!
# Faults of a preparation

A preparation is checked four times: the signals may name two versions, an override may not fit the
options of the system, the core count may not be readable, and the generator may have no use for
one. The first check that finds something says why the preparation fails, and if none does then the
build is ready and carries the evaluated recipe.
-/

namespace PackageBuild

/-! ## The first fault of a list -/

/-- Whether the first item that is found faulty is refused for `fault`. -/
def FirstFault {α ε : Type} (finds : α → ε → Prop) (items : List α) (fault : ε) : Prop :=
  ∃ front item back, items = front ++ item :: back ∧
    (∀ earlier ∈ front, ∀ other, ¬finds earlier other) ∧ finds item fault

section FirstFault

variable {α β ε : Type} {finds : α → ε → Prop} {item : α} {items : List α} {fault : ε}

theorem not_firstFault_nil : ¬FirstFault finds [] fault := by
  rintro ⟨front, item, back, split, -⟩
  simp at split

theorem firstFault_cons_iff :
    FirstFault finds (item :: items) fault ↔
      finds item fault ∨ (∀ other, ¬finds item other) ∧ FirstFault finds items fault := by
  constructor
  · rintro ⟨front, found, back, split, silent, finding⟩
    cases front with
    | nil =>
        obtain ⟨rfl, -⟩ := List.cons.inj split
        exact Or.inl finding
    | cons first front =>
        obtain ⟨rfl, rest⟩ := List.cons.inj split
        exact Or.inr ⟨silent item List.mem_cons_self, front, found, back, rest,
          fun earlier member => silent earlier (List.mem_cons_of_mem item member), finding⟩
  · rintro (finding | ⟨silent, front, found, back, rfl, earlier, finding⟩)
    · exact ⟨[], item, items, rfl, by simp, finding⟩
    · refine ⟨item :: front, found, back, rfl, ?_, finding⟩
      intro first member
      rcases List.mem_cons.mp member with rfl | member
      · exact silent
      · exact earlier first member

/-- There is a first fault exactly if some item has one. -/
theorem exists_firstFault_iff :
    (∃ fault, FirstFault finds items fault) ↔ ∃ item ∈ items, ∃ fault, finds item fault := by
  induction items with
  | nil => simp [not_firstFault_nil]
  | cons item items induction =>
      simp only [firstFault_cons_iff, List.mem_cons, or_and_right, exists_or, exists_eq_left,
        exists_and_left, induction]
      constructor
      · rintro (finding | ⟨-, later⟩)
        · exact Or.inl finding
        · exact Or.inr later
      · rintro (finding | later)
        · exact Or.inl finding
        · by_cases finding : ∃ fault, finds item fault
          · exact Or.inl finding
          · exact Or.inr ⟨not_exists.mp finding, later⟩

theorem firstFault_append_iff {later : List α} :
    FirstFault finds (items ++ later) fault ↔
      FirstFault finds items fault ∨
        (¬∃ other, FirstFault finds items other) ∧ FirstFault finds later fault := by
  induction items with
  | nil => simp [not_firstFault_nil]
  | cons item items induction =>
      simp only [List.cons_append, firstFault_cons_iff, induction, not_exists, not_or, not_and]
      constructor
      · rintro (finding | ⟨silent, finding | ⟨rest, finding⟩⟩)
        · exact Or.inl (Or.inl finding)
        · exact Or.inl (Or.inr ⟨silent, finding⟩)
        · exact Or.inr ⟨fun other => ⟨silent other, fun _ => rest other⟩, finding⟩
      · rintro ((finding | ⟨silent, finding⟩) | ⟨rest, finding⟩)
        · exact Or.inl finding
        · exact Or.inr ⟨silent, Or.inl finding⟩
        · have silent (other : ε) : ¬finds item other := (rest other).1
          exact Or.inr ⟨silent, Or.inr ⟨fun other => (rest other).2 silent, finding⟩⟩

/-- Steps whose faults do not depend on what came before them end with the first of their faults. -/
theorem foldlM_eq_error_iff {step : β → α → Except ε β}
    (refused : ∀ b item fault, step b item = .error fault ↔ finds item fault) (start : β) :
    items.foldlM step start = .error fault ↔ FirstFault finds items fault := by
  induction items generalizing start with
  | nil => simp [not_firstFault_nil, pure, Except.pure]
  | cons item items induction =>
      rw [List.foldlM_cons, firstFault_cons_iff, ← refused start]
      cases outcome : step start item with
      | error other => simp [bind, Except.bind, ← refused start, outcome]
      | ok next => simp [bind, Except.bind, ← refused start, outcome, induction]

theorem mapM_eq_error_iff {step : α → Except ε β}
    (refused : ∀ item fault, step item = .error fault ↔ finds item fault) :
    items.mapM step = .error fault ↔ FirstFault finds items fault := by
  induction items with
  | nil => simp [not_firstFault_nil, pure, Except.pure]
  | cons item items induction =>
      rw [List.mapM_cons, firstFault_cons_iff, ← induction, ← refused]
      cases outcome : step item with
      | error other => simp [bind, Except.bind, ← refused, outcome]
      | ok next =>
          cases rest : items.mapM step <;>
            simp [bind, Except.bind, pure, Except.pure, ← refused, outcome]

theorem firstFault_map_iff {f : β → α} {sources : List β} :
    FirstFault finds (sources.map f) fault ↔
      FirstFault (fun source => finds (f source)) sources fault := by
  induction sources with
  | nil => simp [not_firstFault_nil]
  | cons source sources induction =>
      rw [List.map_cons, firstFault_cons_iff, firstFault_cons_iff, induction]

end FirstFault

/-! ## Checks one after the other -/

/-- Whether a value is refused for exactly what the first check finds that finds anything. -/
def Checked {ε α : Type} (checks : List (ε → Prop)) (result : Except ε α) : Prop :=
  ∀ fault, result = .error fault ↔ FirstFault (fun check => check) checks fault

section Checked

variable {ε α β : Type} {checks later : List (ε → Prop)} {check : ε → Prop} {result : Except ε α}
  {next : α → Except ε β}

theorem checked_ok (a : α) : Checked [] (Except.ok a : Except ε α) := by
  intro fault
  simp [not_firstFault_nil]

theorem checked_one (refused : ∀ fault, result = .error fault ↔ check fault) :
    Checked [check] result := by
  intro fault
  simp [firstFault_cons_iff, not_firstFault_nil, refused]

/-- A second step adds its checks, which matter only if the first step is not refused. -/
theorem Checked.bind (first : Checked checks result)
    (second : ∀ a, result = .ok a → Checked later (next a)) :
    Checked (checks ++ later) (result >>= next) := by
  intro fault
  rw [firstFault_append_iff, ← first fault, ← exists_congr first]
  cases outcome : result with
  | error other => simp [Bind.bind, Except.bind]
  | ok a => simpa [Bind.bind, Except.bind] using second a outcome fault

/-- What is not refused is there. -/
theorem Checked.exists_ok_iff (checked : Checked checks result) :
    (∃ a, result = .ok a) ↔ ∀ check ∈ checks, ∀ fault, ¬check fault := by
  have refused := exists_congr checked
  rw [exists_firstFault_iff] at refused
  cases result with
  | ok a => simpa using refused
  | error fault => simpa using refused

end Checked

/-! ## Versions -/

/-- Whether the signals name two versions for a resolver that does not accept that. -/
inductive VersionResolver.Conflict (resolver : VersionResolver) (signals : Signals) :
    RecipeError → Prop where
  | disagreement {override tag : String} (rejects : resolver.rejectConflicting = true)
      (overridden : signals.versionOverride = some override) (tagged : signals.ciTag = some tag)
      (nonempty : strippedTag tag ≠ "") (differ : strippedTag tag ≠ override) :
      Conflict resolver signals (.conflictingVersionSignals (strippedTag tag) override)

theorem bind_tagVersion_eq_some_iff {signals : Signals} {version : String} :
    signals.ciTag.bind tagVersion = some version ↔
      ∃ tag, signals.ciTag = some tag ∧ strippedTag tag ≠ "" ∧ strippedTag tag = version := by
  simp only [Option.bind_eq_some_iff, tagVersion, Option.ite_none_left_eq_some, Option.some.injEq]

theorem VersionResolver.resolve_eq_error_iff {resolver : VersionResolver} {signals : Signals}
    {fallback : String} {fault : RecipeError} :
    resolver.resolve signals fallback = .error fault ↔ resolver.Conflict signals fault := by
  constructor
  · intro refused
    unfold resolve at refused
    split at refused
    · rename_i override version overridden announced
      split at refused
      · rename_i rejected
        obtain ⟨tag, tagged, nonempty, rfl⟩ := bind_tagVersion_eq_some_iff.mp announced
        obtain ⟨rejects, differ⟩ := Bool.and_eq_true_iff.mp rejected
        cases refused
        exact .disagreement rejects overridden tagged nonempty (bne_iff_ne.mp differ)
      · cases refused
    · cases refused
    · split at refused <;> cases refused
    · cases refused
  · rintro ⟨rejects, overridden, tagged, nonempty, differ⟩
    have announced := bind_tagVersion_eq_some_iff.mpr ⟨_, tagged, nonempty, rfl⟩
    simp [resolve, overridden, announced, rejects, differ]

/-! ## Overrides -/

namespace OptionSchema

/-- Why an override does not fit a schema. -/
inductive Misfit (schema : OptionSchema) (override : OptionOverride) : RecipeError → Prop where
  | unknown (absent : schema.get? override.name = none) :
      Misfit schema override (.unknownOption override.name (some schema.available))
  | outside {decl : OptionDecl} (declared : schema.get? override.name = some decl)
      (unmatched : ∀ value ∈ decl.values, value.matchesText override.value = false) :
      Misfit schema override
        (.invalidOptionValue override.name override.value (some decl.allowed))

variable {schema : OptionSchema} {override : OptionOverride} {overrides : List OptionOverride}
  {fault : RecipeError}

theorem choose_eq_error_iff : schema.choose override = .error fault ↔
    schema.Misfit override fault := by
  constructor
  · intro refused
    unfold choose at refused
    split at refused
    · rename_i absent
      cases refused
      exact .unknown absent
    · rename_i decl declared
      split at refused
      · cases refused
      · rename_i unnamed
        cases refused
        refine .outside declared fun value member => ?_
        simpa using List.find?_eq_none.mp unnamed value member
  · rintro (absent | ⟨declared, unmatched⟩)
    · simp [choose, absent]
    · have unnamed := List.find?_eq_none.mpr fun value member => by
        simpa using unmatched value member
      simp [choose, declared, OptionDecl.valueNamed?, unnamed]

theorem apply_eq_error_iff {values : OptionValues} :
    schema.apply values override = .error fault ↔ schema.Misfit override fault := by
  rw [← choose_eq_error_iff, apply]
  cases schema.choose override <;> simp [bind, Except.bind, pure, Except.pure]

/-- Overrides are refused for the first that does not fit. -/
theorem resolve_eq_error_iff :
    schema.resolve overrides = .error fault ↔ FirstFault schema.Misfit overrides fault := by
  have refused (values : OptionValues) (override : OptionOverride) (fault : RecipeError) :
      schema.apply values override = .error fault ↔ schema.Misfit override fault :=
    apply_eq_error_iff
  exact foldlM_eq_error_iff refused schema.defaults

end OptionSchema

/-! ## Core counts -/

namespace CoreCount

/-- Whether characters are the decimal digits of a number that a tool can be told, with a plus sign
or without. -/
def Reads (cs : List Char) (n : Nat) : Prop :=
  ∃ digits, (cs = digits ∨ cs = '+' :: digits) ∧ digits ≠ [] ∧
    (∀ c ∈ digits, c.isDigit = true) ∧ Text.natOfDigits digits = n ∧ 0 < n ∧ n < 4294967296

theorem digits_eq_iff {cs ds : List Char} (numeral : ∀ c ∈ ds, c.isDigit = true) :
    digits cs = ds ↔ cs = ds ∨ cs = '+' :: ds := by
  unfold digits
  split
  · rename_i rest
    constructor
    · rintro rfl
      exact Or.inr rfl
    · rintro (rfl | plus)
      · exact absurd (numeral '+' List.mem_cons_self) (by decide)
      · exact (List.cons.inj plus).2
  · rename_i unsigned
    constructor
    · exact Or.inl
    · rintro (rfl | rfl)
      · rfl
      · exact absurd rfl (unsigned ds)

theorem ofChars?_eq_some_iff {cs : List Char} {count : CoreCount} :
    ofChars? cs = some count ↔ Reads cs count.val := by
  have wellformed : ((digits cs).isEmpty || !(digits cs).all Char.isDigit) = false ↔
      digits cs ≠ [] ∧ ∀ c ∈ digits cs, c.isDigit = true := by
    simp
  constructor
  · intro read
    simp only [ofChars?] at read
    split at read
    · cases read
    · rename_i formed
      split at read
      · rename_i bounded
        cases read
        obtain ⟨nonempty, numeral⟩ := wellformed.mp (eq_false_of_ne_true formed)
        exact ⟨digits cs, (digits_eq_iff numeral).mp rfl, nonempty, numeral, rfl, bounded⟩
      · cases read
  · rintro ⟨ds, written, nonempty, numeral, value, bounded⟩
    obtain rfl := (digits_eq_iff numeral).mpr written
    rcases count with ⟨n, pos, lt⟩
    obtain rfl := value
    simp [ofChars?, wellformed.mpr ⟨nonempty, numeral⟩, bounded]

theorem ofChars?_eq_none_iff {cs : List Char} :
    ofChars? cs = none ↔ ∀ n, ¬Reads cs n := by
  rw [Option.eq_none_iff_forall_ne_some]
  constructor
  · rintro unread n reads
    have ⟨_, _, _, _, _, pos, lt⟩ := reads
    exact unread ⟨n, pos, lt⟩ (ofChars?_eq_some_iff.mpr reads)
  · intro unread count read
    exact unread count.val (ofChars?_eq_some_iff.mp read)

theorem parse_eq_error_iff {text : String} {fault : RecipeError} :
    parse text = .error fault ↔
      (∀ n, ¬Reads (Text.trimmed text.toList) n) ∧ .invalidCoreCount text = fault := by
  rw [← ofChars?_eq_none_iff, parse]
  cases ofChars? (Text.trimmed text.toList) <;> simp

end CoreCount

namespace Signals

/-- Whether a core count is signalled that cannot be read. -/
inductive Miscount (signals : Signals) : RecipeError → Prop where
  | unreadable {text : String} (signalled : signals.cpuCount = some text)
      (unread : ∀ n, ¬CoreCount.Reads (Text.trimmed text.toList) n) :
      Miscount signals (.invalidCoreCount text)

variable {signals : Signals} {fault : RecipeError}

theorem coreCount_eq_error_iff : signals.coreCount = .error fault ↔ signals.Miscount fault := by
  cases signalled : signals.cpuCount with
  | none =>
      simp only [coreCount, signalled, reduceCtorEq, false_iff]
      rintro ⟨counted, -⟩
      simp [signalled] at counted
  | some text =>
      have refused : signals.coreCount = .error fault ↔ CoreCount.parse text = .error fault := by
        simp only [coreCount, signalled]
        cases CoreCount.parse text <;> simp [Functor.map, Except.map]
      rw [refused, CoreCount.parse_eq_error_iff]
      constructor
      · rintro ⟨unread, rfl⟩
        exact .unreadable signalled unread
      · rintro ⟨counted, unread⟩
        obtain rfl := Option.some.inj (signalled.symm.trans counted)
        exact ⟨unread, rfl⟩

theorem isSome_of_coreCount {jobs : Option CoreCount} (read : signals.coreCount = .ok jobs) :
    jobs.isSome = signals.cpuCount.isSome := by
  unfold coreCount at read
  split at read
  · rename_i silent
    cases read
    simp [silent]
  · rename_i text signalled
    cases parsed : CoreCount.parse text with
    | error fault =>
        rw [parsed] at read
        cases read
    | ok count =>
        rw [parsed] at read
        cases read
        rw [signalled, Option.isSome_some, Option.isSome_some]

end Signals

namespace Invocation

/-- Whether a core count is signalled for a generator whose tool cannot be told one: the makefiles
of NMake, except for those of JOM. -/
inductive Unsupported (generator : Option String) (signals : Signals) : RecipeError → Prop where
  | nmake {name : String} (signalled : signals.cpuCount.isSome = true)
      (chosen : generator = some name) (starts : "NMake Makefiles".toList <+: name.toList)
      (other : ¬"JOM".toList <:+ name.toList) :
      Unsupported generator signals (.jobsUnsupported name)

theorem ofGenerator_eq_nmake_iff {generator : Option String} :
    NativeTool.ofGenerator generator = .nmake ↔ ∃ name, generator = some name ∧
      "NMake Makefiles".toList <+: name.toList ∧ ¬"JOM".toList <:+ name.toList := by
  cases generator with
  | none => simp [NativeTool.ofGenerator]
  | some name =>
      have other_start (starts : "NMake Makefiles".toList <+: name.toList) :
          ¬"Visual Studio".toList <+: name.toList := by
        intro visual
        obtain ⟨rest, nmake⟩ := starts
        obtain ⟨rest', studio⟩ := visual
        simpa using congrArg List.head? (nmake.trans studio.symm)
      have other_name (starts : "NMake Makefiles".toList <+: name.toList) : name ≠ "Xcode" := by
        rintro rfl
        exact absurd starts (by decide)
      simp only [NativeTool.ofGenerator, List.isPrefixOf_iff_prefix, Bool.and_eq_true,
        Bool.not_eq_true', ← Bool.not_eq_true, List.isSuffixOf_iff_suffix, Option.some.injEq,
        exists_eq_left']
      constructor
      · intro tool
        split at tool
        · cases tool
        · split at tool
          · cases tool
          · split at tool
            · assumption
            · cases tool
      · intro nmake
        rw [if_neg (other_start nmake.1), if_neg (other_name nmake.1), if_pos nmake]

theorem checked_ofSignals {descriptor : PackageDescriptor} {options : OptionValues}
    {dirs : BuildDirs} {signals : Signals} :
    Checked [signals.Miscount, Unsupported dirs.generator signals]
      (ofSignals descriptor options dirs signals) := by
  refine (checked_one fun _ => Signals.coreCount_eq_error_iff).bind fun jobs read => ?_
  refine checked_one fun fault => ?_
  have counted := Signals.isSome_of_coreCount read
  constructor
  · intro refused
    dsimp only at refused
    split at refused
    · rename_i nmake
      obtain ⟨signalled, tool⟩ := Bool.and_eq_true_iff.mp nmake
      obtain ⟨name, chosen, starts, other⟩ := ofGenerator_eq_nmake_iff.mp (of_decide_eq_true tool)
      rw [chosen] at refused
      cases refused
      exact .nmake (counted ▸ signalled) chosen starts other
    · cases refused
  · rintro ⟨signalled, chosen, starts, other⟩
    have tool := ofGenerator_eq_nmake_iff.mpr ⟨_, chosen, starts, other⟩
    dsimp only
    rw [if_pos (by simp [counted, signalled, tool]), chosen]
    rfl

end Invocation

namespace Recipe

/-- The checks of a preparation in their order, each as what it refuses a build for. -/
def checks (recipe : Recipe) (opts : BuildOptions) (signals : Signals)
    (resolver : VersionResolver) : List (RecipeError → Prop) :=
  [resolver.Conflict signals,
    FirstFault (recipe.options.normalize opts.settings.os).Misfit opts.overrides,
    signals.Miscount,
    Invocation.Unsupported opts.generator signals]

variable (recipe : Recipe) (opts : BuildOptions) (signals : Signals) (resolver : VersionResolver)

theorem checked_evaluate (settings : Settings) (overrides : List OptionOverride) :
    Checked [resolver.Conflict signals,
        FirstFault (recipe.options.normalize settings.os).Misfit overrides]
      (recipe.evaluate settings signals resolver overrides) := by
  refine (checked_one fun _ => VersionResolver.resolve_eq_error_iff).bind fun version _ => ?_
  refine (checked_one fun _ => OptionSchema.resolve_eq_error_iff).bind fun values _ => ?_
  exact checked_ok _

theorem checked_prepare :
    Checked (recipe.checks opts signals resolver) (recipe.prepare opts signals resolver) := by
  refine (recipe.checked_evaluate signals resolver opts.settings opts.overrides).bind
    fun evaluation _ => ?_
  refine Invocation.checked_ofSignals.bind fun invocation _ => ?_
  exact checked_ok _

/-- A preparation fails exactly if one of its checks finds something, with what the first of these
finds. Otherwise the build is ready: its invocation carries the descriptor and the values of the
evaluated recipe, the directories of the caller and the core count of the signals. -/
theorem prepare_decided_by_checks :
    (∀ fault, recipe.prepare opts signals resolver = .error fault ↔
      FirstFault (fun check => check) (recipe.checks opts signals resolver) fault) ∧
    ((∃ fault, recipe.prepare opts signals resolver = .error fault) ↔
      ∃ check ∈ recipe.checks opts signals resolver, ∃ fault, check fault) ∧
    ((∀ check ∈ recipe.checks opts signals resolver, ∀ fault, ¬check fault) ↔
      ∃ prepared, recipe.prepare opts signals resolver = .ok prepared ∧
        recipe.evaluate opts.settings signals resolver opts.overrides = .ok prepared.evaluation ∧
        prepared.invocation.descriptor = prepared.evaluation.descriptor ∧
        prepared.invocation.options = prepared.evaluation.values ∧
        prepared.invocation.dirs = recipe.buildDirs opts ∧
        signals.coreCount = .ok prepared.invocation.jobs ∧
        prepared.packageDir = recipe.packageDirFor opts.packageDir) := by
  have checked := recipe.checked_prepare opts signals resolver
  refine ⟨checked, (exists_congr checked).trans exists_firstFault_iff, ?_⟩
  rw [← checked.exists_ok_iff]
  refine exists_congr fun prepared => (and_iff_left_of_imp fun ready => ?_).symm
  obtain ⟨evaluated, made, packageDir⟩ := prepare_eq_ok ready
  obtain ⟨descriptor, options, dirs, jobs⟩ := Invocation.ofSignals_eq_ok made
  exact ⟨evaluated, descriptor, options, dirs, jobs, packageDir⟩

end Recipe
end PackageBuild
