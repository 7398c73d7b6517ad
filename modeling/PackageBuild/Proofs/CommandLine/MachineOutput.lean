import PackageBuild.CommandLine.Run
import PackageBuild.Proofs.CommandLine.JsonFlag
import PackageBuild.Proofs.FileTree.Lookup
import PackageBuild.Proofs.JsonRoundTrip
import PackageBuild.Proofs.Packager.Steps
import PackageBuild.Proofs.Preparation
/-!
# Output for programs

Under the flag for a document only results reach the standard output, and a subcommand tells its
result in its last step. So the standard output of a run that succeeds is one document, and that of
a run that fails is empty, wherever it failed and whatever the tools wrote.
-/

namespace PackageBuild

/-- The text of a result, for a notice that is one. -/
def Notice.result? : Notice → Option String
  | .result text => some text
  | _ => none

/-- The results told so far, in order. -/
def World.results (world : World) : List String := world.notices.filterMap Notice.result?

namespace Action

variable {α β : Type}

/-- Whether an action tells no result, whether it succeeds or not. -/
def Silent (action : Action α) : Prop :=
  ∀ world, (action.outcome world).2.results = world.results

/-- Whether an action tells one plain document as its result if it succeeds, and no result if it
fails. -/
def Prints (action : Action Unit) : Prop :=
  ∀ world,
    (∃ failure last, action.outcome world = (.error failure, last) ∧
      last.results = world.results) ∨
    ∃ document last, action.outcome world = (.ok (), last) ∧ document.Plain ∧
      last.results = world.results ++ [Document.Value.pretty document]

section Silent

theorem silent_pure (a : α) : Silent (pure a : Action α) := fun _ => rfl

theorem silent_fail (cause : Cause) : Silent (fail cause : Action α) := fun _ => rfl

theorem silent_ofExcept (result : Except Failure α) : Silent (ofExcept result) := fun _ => rfl

theorem silent_look (f : FileTree → α) : Silent (look f) := fun _ => rfl

theorem silent_get : Silent (get : Action World) := fun _ => rfl

theorem silent_tell {notice : Notice} (other : notice.result? = none) : Silent (tell notice) := by
  intro world
  simp [World.results, other]

theorem silent_warn (warning : Warning) : Silent (warn warning) := silent_tell rfl

theorem silent_change (context : String) (f : FileTree → FileTree.Changed) :
    Silent (change context f) := by
  intro world
  rw [outcome_change]
  rfl

theorem silent_within (context : String) {action : Action α} (silent : Silent action) :
    Silent (action.within context) := by
  intro world
  rw [outcome_within]
  exact silent world

theorem closed_silent : Closed fun _ => Silent where
  of_pure := silent_pure
  of_look := silent_look
  of_warn := silent_warn
  of_bind {_ _ action _} first rest world := by
    have step := first world
    rcases outcome : action.outcome world with ⟨failure | a, middle⟩
    · rw [outcome_bind_error outcome]
      rwa [outcome] at step
    · rw [outcome_bind_ok outcome, rest a ⟨world, middle, outcome⟩ middle]
      rwa [outcome] at step

theorem silent_bind {action : Action α} {next : α → Action β} (first : Silent action)
    (rest : ∀ a, Silent (next a)) : Silent (action >>= next) :=
  closed_silent.of_bind first fun a _ => rest a

theorem silent_map (f : α → β) {action : Action α} (silent : Silent action) :
    Silent (f <$> action) := by
  rw [map_eq_pure_bind]
  exact silent_bind silent fun a => silent_pure (f a)

theorem silent_before {c : Prop} [Decidable c] {step : Action Unit} {next : Action α}
    (first : Silent step) (rest : Silent next) :
    Silent (if c then step >>= fun _ => next else next) := by
  split
  · exact silent_bind first fun _ => rest
  · exact rest

theorem silent_forM_warn (warnings : List Warning) : Silent (warnings.forM warn) :=
  closed_silent.of_forM warnings fun warning _ => silent_warn warning

/-- What tells no result may come before a document is printed. -/
theorem prints_bind {action : Action α} {next : α → Action Unit} (first : Silent action)
    (rest : ∀ a, Prints (next a)) : Prints (action >>= next) := by
  intro world
  have step := first world
  rcases outcome : action.outcome world with ⟨failure | a, middle⟩
  · rw [outcome] at step
    exact Or.inl ⟨failure, middle, outcome_bind_error outcome, step⟩
  · rw [outcome_bind_ok outcome, ← show middle.results = world.results by rwa [outcome] at step]
    exact rest a middle

theorem prints_before {c : Prop} [Decidable c] {step next : Action Unit} (first : Silent step)
    (rest : Prints next) : Prints (if c then step >>= fun _ => next else next) := by
  split
  · exact prints_bind first fun _ => rest
  · exact rest

end Silent

/-! ## What packages and builds tell -/

theorem silent_makeDirectories (dir : Path) : Silent (makeDirectories dir) := silent_change _ _

theorem silent_removeDirectory (dir : Path) : Silent (removeDirectory dir) := silent_change _ _

end Action

open PackageBuild.Action

namespace Packager

theorem silent_missingSource (policy : CopyPolicy) (rule : CopyRule) :
    Silent (missingSource policy rule) := by
  cases policy with
  | strict => exact silent_fail _
  | lenient => exact silent_warn _

theorem silent_package (packager : Packager) (packageDir : Path) :
    Silent (packager.package packageDir) := by
  apply closed_silent.of_package
  · exact fun rule _ => silent_missingSource packager.policy rule
  · exact fun dst _ => silent_removeDirectory _
  · exact silent_makeDirectories packageDir
  · exact fun rule _ e => silent_fail _
  · exact fun rule _ found _ _ =>
      closed_silent.of_copyFile (fun parent _ => silent_makeDirectories parent) (silent_change _ _)

end Packager

namespace Toolchain

theorem silent_run (runner : Runner) (command : Command) : Silent (run runner command) := by
  intro world
  change (world.notices ++ (runner world.commands command world.tree).output.map
    Notice.output).filterMap Notice.result? = world.notices.filterMap Notice.result?
  rw [List.filterMap_append, List.filterMap_map]
  simp [Function.comp_def, Notice.result?]

theorem silent_runStep (runner : Runner) (phase : BuildPhase) (command : Command) :
    Silent (runStep runner phase command) := by
  refine silent_bind (silent_run runner command) fun exit => ?_
  split
  · exact silent_pure _
  · exact silent_fail _
  · exact silent_fail _
  · exact silent_within _ (silent_fail _)

theorem silent_build (runner : Runner) (cmake : Path) (i : Invocation) :
    Silent (build runner cmake i) := by
  refine silent_bind ?_ fun _ => ?_
  · refine silent_bind (silent_tell rfl) fun _ => ?_
    refine silent_bind (silent_makeDirectories _) fun _ => ?_
    refine silent_bind (silent_forM_warn _) fun _ => ?_
    exact silent_runStep _ _ _
  · exact silent_bind (silent_tell rfl) fun _ => silent_runStep _ _ _

end Toolchain

theorem Recipe.silent_prepareAloud (recipe : Recipe) (opts : BuildOptions) (signals : Signals)
    (resolver : VersionResolver) : Silent (recipe.prepareAloud opts signals resolver) :=
  silent_bind (silent_forM_warn _) fun _ => silent_ofExcept _

namespace PreparedBuild

theorem silent_runNative (prepared : PreparedBuild) (searchPath : List Path) (cmake : Option Path)
    (runner : Runner) : Silent (prepared.runNative searchPath cmake runner) := by
  refine silent_bind (silent_look _) fun project => silent_before (silent_fail _) ?_
  refine silent_bind (silent_look _) fun found => ?_
  cases found with
  | none => exact silent_fail _
  | some program => exact Toolchain.silent_build _ _ _

theorem silent_packageOutputs (prepared : PreparedBuild) (recipe : Recipe) (policy : CopyPolicy) :
    Silent (prepared.packageOutputs recipe policy) :=
  silent_bind (silent_ofExcept _) fun _ => silent_within _ (Packager.silent_package _ _)

end PreparedBuild

/-! ## What is printed -/

section Plain

open Document

theorem OptionValue.plain_toValue (value : OptionValue) : value.toValue.Plain := by
  cases value <;> simp [OptionValue.toValue]

theorem OptionValues.plain_toValue (values : OptionValues) : values.toValue.Plain := by
  rw [OptionValues.toValue, Value.plain_table_iff, List.forall_mem_map]
  exact fun entry _ => entry.2.plain_toValue

theorem OptionDecl.plain_toValue (decl : OptionDecl) : decl.toValue.Plain := by
  simp [OptionDecl.toValue, OptionValue.plain_toValue]

theorem OptionSchema.plain_toValue (schema : OptionSchema) : schema.toValue.Plain := by
  rw [OptionSchema.toValue, Value.plain_table_iff, List.forall_mem_map]
  exact fun entry _ => entry.2.plain_toValue

theorem PackageDescriptor.plain_toValue (d : PackageDescriptor) : d.toValue.Plain := by
  simp [PackageDescriptor.toValue, ResolvedVersion.toValue, Settings.toValue]

theorem Evaluation.plain_toValue (e : Evaluation) : e.toValue.Plain := by
  simp [Evaluation.toValue, PackageDescriptor.plain_toValue, OptionSchema.plain_toValue,
    OptionValues.plain_toValue]

theorem ArtifactLayout.plain_toValue (layout : ArtifactLayout) : layout.toValue.Plain := by
  simp [ArtifactLayout.toValue]

theorem ConsumerInfo.plain_toValue (info : ConsumerInfo) : info.toValue.Plain := by
  simp [ConsumerInfo.toValue]

end Plain

namespace CommandLine

theorem plain_summary (prepared : PreparedBuild) (layout : Option (ArtifactLayout × String)) :
    (summary prepared layout).Plain := by
  cases layout <;>
    simp [summary, ArtifactLayout.plain_toValue, OptionValues.plain_toValue,
      PackageDescriptor.plain_toValue]

theorem silent_report (status : Status) (message : String) : Silent (report status message) :=
  silent_tell rfl

theorem silent_fingerprint (layout : ArtifactLayout) : Silent (fingerprint layout) :=
  silent_bind (silent_look _) fun _ => silent_ofExcept _

theorem prints_printDocument {document : Document.Value} (plain : document.Plain) :
    Prints (printDocument document) := by
  intro world
  refine Or.inr ⟨document, _, rfl, plain, ?_⟩
  simp [World.results, Notice.result?]

variable {s : Surroundings} {setup : Setup} {g : Given}

theorem prints_inspect (json : g.json = true) : Prints (inspect s setup g) := by
  rw [inspect, json]
  refine prints_bind (silent_forM_warn _) fun _ => ?_
  refine prints_bind (silent_ofExcept _) fun evaluation => ?_
  exact prints_printDocument evaluation.plain_toValue

theorem silent_packageAfterBuild (setup : Setup) (prepared : PreparedBuild) (policy : CopyPolicy) :
    Silent (packageAfterBuild setup prepared policy) := by
  refine silent_bind (silent_report _ _) fun _ => ?_
  refine silent_bind (prepared.silent_packageOutputs _ _) fun layout => ?_
  refine silent_bind ?_ fun _ => silent_bind (silent_report _ _) fun _ => silent_pure _
  rw [reportEmpty]
  split
  · exact silent_report _ _
  · exact silent_pure _

theorem prints_build (json : g.json = true) : Prints (build s setup g) := by
  have printed (prepared : PreparedBuild) (layout : Option ArtifactLayout) : Prints (do
      let printed ← layout.mapM fun layout => do return (layout, ← fingerprint layout)
      prepared.invocation.warnings.forM Action.warn
      printDocument (summary prepared printed).sorted) := by
    refine prints_bind ?_ fun printed => ?_
    · cases layout with
      | none => exact silent_pure none
      | some layout =>
          exact silent_map _ (silent_bind (silent_fingerprint layout) fun _ => silent_pure _)
    · refine prints_bind (silent_forM_warn _) fun _ => ?_
      exact prints_printDocument (plain_summary prepared printed).sorted
  rw [build, json]
  refine prints_bind (setup.recipe.silent_prepareAloud _ _ _) fun prepared => ?_
  refine prints_bind (silent_report _ _) fun _ => ?_
  refine prints_bind (prepared.silent_runNative _ _ _) fun _ => ?_
  refine prints_bind silent_get fun world => ?_
  refine prints_bind (silent_report _ _) fun _ => ?_
  dsimp only
  split
  · exact prints_bind (silent_map _ (silent_packageAfterBuild _ _ _)) (printed prepared)
  · refine prints_bind (silent_report _ _) fun _ => ?_
    exact prints_bind (silent_pure none) (printed prepared)

theorem prints_package (json : g.json = true) : Prints (package s setup g) := by
  rw [package, json]
  refine prints_bind (setup.recipe.silent_prepareAloud _ _ _) fun prepared => ?_
  refine prints_bind (silent_report _ _) fun _ => ?_
  refine prints_bind (prepared.silent_packageOutputs _ _) fun layout => ?_
  refine prints_bind (silent_fingerprint layout) fun hash => ?_
  exact prints_printDocument (by simp [layout.plain_toValue.sorted])

theorem prints_info (json : g.json = true) : Prints (info setup g) := by
  rw [info, json]
  refine prints_bind (silent_look _) fun there => prints_before (silent_warn _) ?_
  refine prints_bind (silent_look _) fun t => ?_
  refine prints_bind (silent_ofExcept _) fun layout => ?_
  exact prints_printDocument (ConsumerInfo.plain_toValue _)

/-- Under the flag every subcommand but the one for shells prints one document or fails before. -/
theorem prints_perform (s : Surroundings) {subcommand : Subcommand}
    (other : subcommand ≠ .completions) (json : g.json = true) :
    Prints (perform s subcommand g) := by
  have loaded {next : Setup → Action Unit} (printed : ∀ setup, Prints (next setup)) :
      Prints (do next (← Action.ofExcept (Setup.load s g.manifestPath (← Action.look id)))) :=
    prints_bind (silent_look _) fun _ => prints_bind (silent_ofExcept _) printed
  cases subcommand with
  | completions => exact absurd rfl other
  | inspect => exact loaded fun _ => prints_inspect json
  | build => exact loaded fun _ => prints_build json
  | package => exact loaded fun _ => prints_package json
  | info => exact loaded fun _ => prints_info json

/-! ## The standard output of a run -/

/-- All that a run writes to its standard output. -/
def Finished.standardOutput (finished : Finished) : String :=
  String.join ((finished.written.filter (·.1 = .output)).map Prod.snd)

/-- Whether a text is one document in JSON, which can be read back, with a line break after it. -/
def OneDocument (text : String) : Prop :=
  ∃ document, Document.readJson? (Document.Value.pretty document) = some document ∧
    text = ended document.pretty

theorem output_of_notices (notices : List Notice) :
    (((notices.filterMap (Notice.line? .json)).map fun (stream, text) =>
      (stream, ended text)).filter (·.1 = .output)).map Prod.snd =
      (notices.filterMap Notice.result?).map ended := by
  induction notices with
  | nil => rfl
  | cons notice notices induction =>
      cases notice <;>
        simpa [Notice.line?, Notice.result?, OutputMode.isJson, List.filterMap_cons] using induction

theorem standardOutput_of_results (exitCode : Nat) (world : World) (errors : List String) :
    Finished.standardOutput ⟨exitCode, (world.notices.filterMap (Notice.line? .json)).map
      (fun (stream, text) => (stream, ended text)) ++ errors.map (Stream.errors, ·), world⟩ =
      String.join (world.results.map ended) := by
  have apart : (errors.map (Stream.errors, ·)).filter (·.1 = .output) = [] := by simp
  rw [Finished.standardOutput, List.filter_append, apart, List.append_nil, output_of_notices]
  rfl

/-- With the flag for a document, the standard output of a run that ends well is one document, and
that of any other run is empty, unless the words ask for help or the version. -/
theorem run_machine_readable (s : Surroundings) (words : List String) (t : FileTree)
    (asked : "--json" ∈ words)
    (no_help : ∀ subcommand, Request.parse words ≠ .ok (.help subcommand))
    (no_version : Request.parse words ≠ .ok .version) :
    ((run s words t).exitCode = 0 → OneDocument (run s words t).standardOutput) ∧
      ((run s words t).exitCode ≠ 0 → (run s words t).standardOutput = "") := by
  cases parsed : Request.parse words with
  | error error =>
      have refused : run s words t = ⟨2, [(.errors, refusal error)], { tree := t }⟩ := by
        rw [run, parsed]
      rw [refused]
      exact ⟨by simp, fun _ => rfl⟩
  | ok request =>
      cases request with
      | help subcommand => exact absurd parsed (no_help subcommand)
      | version => exact absurd parsed no_version
      | run subcommand given =>
          obtain ⟨other, json⟩ := json_of_parse parsed asked
          have mode : OutputMode.ofFlags given.verbose given.json = .json := by
            rw [json]
            rfl
          rcases prints_perform s other json { tree := t } with
            ⟨failure, last, outcome, silent⟩ | ⟨document, last, outcome, plain, told⟩
          · have failed := standardOutput_of_results 1 last
              [(Report.ofFailure failure).render false]
            rw [silent] at failed
            rw [run, parsed]
            simp only [outcome, mode]
            exact ⟨by simp, fun _ => failed⟩
          · have done := standardOutput_of_results 0 last []
            rw [told, List.map_nil, List.append_nil] at done
            rw [run, parsed]
            simp only [outcome, mode]
            refine ⟨fun _ => ⟨document, plain.readJson?_pretty, done.trans ?_⟩, by simp⟩
            simp [World.results, String.join]

/-- A small project, with a tool to configure it. -/
def smallCheckout : FileTree :=
  let project : Location := [⟨"work", by decide⟩]
  let tools : Location := [⟨"bin", by decide⟩]
  .ofEntries [
    (project, .directory),
    (project ++ [⟨"Gantry.toml", by decide⟩], .file (Recipe.smallManifest "").toUTF8 false),
    (project ++ [⟨"CMakeLists.txt", by decide⟩], .file "project(mini)".toUTF8 false),
    (tools, .directory),
    (tools ++ [⟨"cmake", by decide⟩], .file "".toUTF8 true)]

/-- A place in the small project from which the tool complains and fails. -/
def smallSurroundings : Surroundings where
  cwd := ⟨"/work"⟩
  environment := fun name => if name = "PATH" then some "/bin" else none
  isUrl := fun _ => false
  runner := fun _ _ tree => { exit := .code 1, tree, output := ["-- no compiler found"] }

/-- The small project can be inspected, which prints a document. It cannot be built: the tool is
run and complains, but the standard output is empty. -/
theorem small_project_for_programs :
    let inspected := run smallSurroundings ["inspect", "--json"] smallCheckout
    let built := run smallSurroundings ["build", "--json"] smallCheckout
    (inspected.exitCode = 0 ∧ OneDocument inspected.standardOutput) ∧
      (built.exitCode = 1 ∧ built.world.commands.length = 1) ∧ built.standardOutput = "" := by
  intro inspected built
  have inspects : Request.parse ["inspect", "--json"] = .ok (.run .inspect { json := true }) := by
    rfl
  have builds : Request.parse ["build", "--json"] = .ok (.run .build { json := true }) := by
    rfl
  have well : inspected.exitCode = 0 := by decide +kernel
  have badly : built.exitCode = 1 ∧ built.world.commands.length = 1 := by decide +kernel
  have printed := run_machine_readable smallSurroundings ["inspect", "--json"] smallCheckout
    (by decide) (by simp [inspects]) (by simp [inspects])
  have nothing := run_machine_readable smallSurroundings ["build", "--json"] smallCheckout
    (by decide) (by simp [builds]) (by simp [builds])
  exact ⟨⟨well, printed.1 well⟩, badly, nothing.2 (by simp [built, badly.1])⟩

end CommandLine
end PackageBuild
