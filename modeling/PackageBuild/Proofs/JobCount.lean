import PackageBuild.Proofs.PreparationFaults
/-!
# The number of jobs

A core count that is signalled goes to the native tool, as one flag behind the two dashes, and to
nobody else; without one the number of jobs is left to CMake. A signal that cannot be read and a
generator whose tool has no such flag are refused, so that no count is dropped.
-/

namespace PackageBuild

namespace Text

theorem trimmed_eq_self {cs : List Char} (inked : ∀ c ∈ cs, isBlank c = false) :
    trimmed cs = cs := by
  have kept {ds : List Char} (inked : ∀ c ∈ ds, isBlank c = false) :
      ds.dropWhile isBlank = ds := by
    cases ds with
    | nil => rfl
    | cons d ds =>
        have first : isBlank d = false := inked d List.mem_cons_self
        rw [List.dropWhile_cons_of_neg (by simp [first])]
  rw [trimmed, kept inked, kept fun c member => inked c (List.mem_reverse.mp member),
    List.reverse_reverse]

theorem isBlank_of_isDigit {c : Char} (digit : c.isDigit = true) : isBlank c = false := by
  have bounds : 48 ≤ c.toNat ∧ c.toNat ≤ 57 := by
    simpa [Char.isDigit, UInt32.le_iff_toNat_le] using digit
  simp only [isBlank, Bool.or_eq_false_iff, Bool.and_eq_false_iff, beq_eq_false_iff_ne,
    decide_eq_false_iff_not]
  omega

end Text

namespace CoreCount

theorem isDigit_of_mem_toString {n : Nat} {c : Char} (member : c ∈ (toString n).toList) :
    c.isDigit = true := by
  rw [Nat.toString_eq_repr, Nat.toList_repr] at member
  exact Nat.isDigit_of_mem_toDigits (by decide) (by decide) member

theorem parse_toString (count : CoreCount) : parse (toString count.val) = .ok count := by
  have digits : ∀ c ∈ (toString count.val).toList, c.isDigit = true :=
    fun _ => isDigit_of_mem_toString
  have trimmed : Text.trimmed (toString count.val).toList = (toString count.val).toList :=
    Text.trimmed_eq_self fun c member => Text.isBlank_of_isDigit (digits c member)
  have reads : Reads (toString count.val).toList count.val := by
    refine ⟨_, Or.inl rfl, ?_, digits, ?_, count.pos, count.lt⟩
    · rw [Nat.toString_eq_repr, Nat.toList_repr]
      exact Nat.toDigits_ne_nil
    · rw [Nat.toString_eq_repr, Nat.toList_repr, Text.natOfDigits_toDigits]
  rw [parse, trimmed, ofChars?_eq_some_iff.mpr reads]

end CoreCount

namespace Signals

variable {signals : Signals}

theorem coreCount_eq_some_iff {count : CoreCount} :
    signals.coreCount = .ok (some count) ↔ ∃ text, signals.cpuCount = some text ∧
      CoreCount.Reads (Text.trimmed text.toList) count.val := by
  cases signalled : signals.cpuCount with
  | none => simp [coreCount, signalled]
  | some text =>
      simp only [coreCount, signalled, Option.some.injEq, exists_eq_left',
        ← CoreCount.ofChars?_eq_some_iff, CoreCount.parse]
      cases CoreCount.ofChars? (Text.trimmed text.toList) <;> simp [Functor.map, Except.map]

theorem coreCount_eq_none_iff : signals.coreCount = .ok none ↔ signals.cpuCount = none := by
  constructor
  · intro silent
    simpa using (isSome_of_coreCount silent).symm
  · intro silent
    simp [coreCount, silent]

end Signals

namespace NativeTool

/-- Whether arguments are the flag by which the tool of a generator is told a number of jobs. -/
inductive Tells (generator : Option String) (number : String) : List String → Prop where
  | msBuild {name : String} (chosen : generator = some name)
      (starts : "Visual Studio".toList <+: name.toList) :
      Tells generator number ["/m:" ++ number]
  | xcode (chosen : generator = some "Xcode") : Tells generator number ["-jobs", number]
  | make
      (other : ∀ name, generator = some name →
        ¬"Visual Studio".toList <+: name.toList ∧ name ≠ "Xcode" ∧
          ("NMake Makefiles".toList <+: name.toList → "JOM".toList <:+ name.toList)) :
      Tells generator number ["-j", number]

variable {generator : Option String} {number : String} {flag : List String}

theorem Tells.ne_nil (tells : Tells generator number flag) : flag ≠ [] := by
  cases tells <;> simp

theorem Tells.parallel_not_mem (tells : Tells generator number flag)
    (digits : ∀ c ∈ number.toList, c.isDigit = true) : "--parallel" ∉ flag := by
  have not_number : "--parallel" ≠ number := by
    rintro rfl
    exact absurd (digits '-' (by decide)) (by decide)
  cases tells with
  | msBuild chosen starts =>
      rw [List.mem_singleton, ← String.toList_inj]
      simp
  | xcode chosen => simp [not_number]
  | make other => simp [not_number]

theorem tells_jobArgs (jobs : CoreCount) (takes : ofGenerator generator ≠ .nmake) :
    Tells generator (toString jobs.val) ((ofGenerator generator).jobArgs jobs) := by
  cases generator with
  | none => exact .make (by simp)
  | some name =>
      by_cases studio : "Visual Studio".toList <+: name.toList
      · have tool : ofGenerator (some name) = .msBuild := by
          rw [ofGenerator, if_pos (List.isPrefixOf_iff_prefix.mpr studio)]
        rw [tool]
        exact .msBuild rfl studio
      · by_cases xcode : name = "Xcode"
        · subst xcode
          exact .xcode rfl
        · have tool : ofGenerator (some name) = .make := by
            have not_studio := mt List.isPrefixOf_iff_prefix.mp studio
            rw [ofGenerator, if_neg not_studio, if_neg xcode] at takes ⊢
            exact if_neg fun nmake => takes (if_pos nmake)
          have not_nmake := mt Invocation.ofGenerator_eq_nmake_iff.mpr takes
          rw [tool]
          refine .make ?_
          rintro _ ⟨⟩
          refine ⟨studio, xcode, fun starts => Classical.byContradiction fun other => ?_⟩
          exact not_nmake ⟨name, rfl, starts, other⟩

end NativeTool

namespace Invocation

/-- What becomes of a core count, when one is signalled, for a build type and directories. -/
inductive Delegation (signals : Signals) (buildType : BuildType) (dirs : BuildDirs) :
    Except RecipeError Invocation → Prop where
  /-- Without a signal CMake chooses the number of jobs. -/
  | unsignalled {i : Invocation} (silent : signals.cpuCount = none) (parallel : i.isParallel = true)
      (jobless : i.jobs = none)
      (args : i.buildArgs =
        ["--build", dirs.buildDir.text, "--config", buildType.display] ++ ["--parallel"]) :
      Delegation signals buildType dirs (.ok i)
  /-- A count that can be read goes to the native tool, and CMake chooses nothing. -/
  | told {i : Invocation} {text : String} {count : CoreCount} {flag : List String}
      (signalled : signals.cpuCount = some text)
      (reads : CoreCount.Reads (Text.trimmed text.toList) count.val)
      (serial : i.isParallel = false) (jobs : i.jobs = some count)
      (tells : NativeTool.Tells dirs.generator (toString count.val) flag) (some_flag : flag ≠ [])
      (not_left : "--parallel" ∉ flag)
      (args : i.buildArgs =
        ["--build", dirs.buildDir.text, "--config", buildType.display] ++ "--" :: flag)
      (read_back : CoreCount.parse (toString count.val) = .ok count) :
      Delegation signals buildType dirs (.ok i)
  /-- A count that can be read is refused when the native tool has no flag for it. -/
  | flagless {text name : String} {n : Nat} (signalled : signals.cpuCount = some text)
      (reads : CoreCount.Reads (Text.trimmed text.toList) n) (chosen : dirs.generator = some name)
      (starts : "NMake Makefiles".toList <+: name.toList)
      (other : ¬"JOM".toList <:+ name.toList) :
      Delegation signals buildType dirs (.error (.jobsUnsupported name))
  /-- What is no count is refused for every tool. -/
  | unreadable {text : String} (signalled : signals.cpuCount = some text)
      (unread : ∀ n, ¬CoreCount.Reads (Text.trimmed text.toList) n) :
      Delegation signals buildType dirs (.error (.invalidCoreCount text))

variable {descriptor : PackageDescriptor} {options : OptionValues} {dirs : BuildDirs}
  {signals : Signals} {i : Invocation}

theorem delegation_of_ok (made : ofSignals descriptor options dirs signals = .ok i) :
    Delegation signals descriptor.settings.buildType dirs (.ok i) := by
  obtain ⟨rfl, -, rfl, counted⟩ := ofSignals_eq_ok made
  have takes := (ofSignals_eq_ok_iff.mp made).2.1
  cases jobs : i.jobs with
  | none =>
      rw [jobs] at counted
      refine .unsignalled (Signals.coreCount_eq_none_iff.mp counted) ?_ jobs ?_
      · rw [isParallel, jobs, Option.isNone_none]
      · simp only [buildArgs, jobs, buildTypeName]
  | some count =>
      rw [jobs] at counted
      obtain ⟨text, signalled, reads⟩ := Signals.coreCount_eq_some_iff.mp counted
      have tells := NativeTool.tells_jobArgs count (takes (by simp [jobs]))
      refine .told signalled reads ?_ jobs tells tells.ne_nil
        (tells.parallel_not_mem fun _ => CoreCount.isDigit_of_mem_toString) ?_
        count.parse_toString
      · rw [isParallel, jobs, Option.isNone_some]
      · simp only [buildArgs, jobs, buildTypeName, tool]

theorem delegation_of_error {fault : RecipeError}
    (refused : ofSignals descriptor options dirs signals = .error fault) :
    Delegation signals descriptor.settings.buildType dirs (.error fault) := by
  -- There are two checks: that the signal is a count, and that the tool takes one.
  have found := (checked_ofSignals fault).mp refused
  simp only [firstFault_cons_iff, not_firstFault_nil, and_false, or_false] at found
  rcases found with ⟨signalled, unread⟩ | ⟨readable, present, chosen, starts, other⟩
  · exact .unreadable signalled unread
  · obtain ⟨text, signalled⟩ := Option.isSome_iff_exists.mp present
    obtain ⟨n, reads⟩ : ∃ n, CoreCount.Reads (Text.trimmed text.toList) n :=
      Classical.not_forall_not.mp fun unread => readable _ (.unreadable signalled unread)
    exact .flagless signalled reads chosen starts other

/-- The core count is the number that the signal spells between its blanks: decimal digits, with or
without a plus sign, for a number of 32 bits other than zero. An invocation leaves the number of
jobs to CMake exactly if there is no signal; otherwise it tells the native tool that number, by the
flag of its generator, or is refused because there is no such flag or no such number. -/
theorem core_count_delegated (descriptor : PackageDescriptor) (options : OptionValues)
    (dirs : BuildDirs) (signals : Signals) :
    (∀ n, (∃ count, signals.coreCount = .ok (some count) ∧ count.val = n) ↔
      ∃ text, signals.cpuCount = some text ∧
        CoreCount.Reads (Text.trimmed text.toList) n) ∧
    Delegation signals descriptor.settings.buildType dirs
      (ofSignals descriptor options dirs signals) := by
  refine ⟨fun n => ?_, ?_⟩
  · constructor
    · rintro ⟨count, counted, rfl⟩
      exact Signals.coreCount_eq_some_iff.mp counted
    · rintro ⟨text, signalled, reads⟩
      have ⟨_, _, _, _, _, pos, lt⟩ := reads
      exact ⟨⟨n, pos, lt⟩, Signals.coreCount_eq_some_iff.mpr ⟨text, signalled, reads⟩, rfl⟩
  · cases outcome : ofSignals descriptor options dirs signals with
    | ok i => exact delegation_of_ok outcome
    | error fault => exact delegation_of_error outcome

end Invocation
end PackageBuild
