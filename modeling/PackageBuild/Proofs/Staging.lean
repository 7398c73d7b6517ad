import PackageBuild.Build
import PackageBuild.Proofs.FileTree.Growth
import PackageBuild.Proofs.Packager.Determinacy
import PackageBuild.Proofs.Preparation
/-!
# The stages of a build

A build is prepared, configured, compiled and packaged, and the first stage that fails is the last.
Whatever its two commands do, the build itself makes nothing but the build directory before they
have succeeded, and it makes nothing at all before there is something to run.
-/

namespace PackageBuild

open FileTree

namespace Exit

/-- What becomes of a step whose command came to such an end. -/
def result (phase : BuildPhase) (command : Command) : Exit → Except Failure Unit
  | .code 0 => .ok ()
  | .code value => .error (.of (.build ⟨phase, command.display, some value⟩))
  | .signal => .error (.of (.build ⟨phase, command.display, none⟩))
  | .refused error =>
    .error ((Failure.of (.os error)).within ("could not start `" ++ command.program.text ++ "`"))

theorem result_code {phase : BuildPhase} {command : Command} {value : Int} (failure : value ≠ 0) :
    (code value).result phase command =
      .error (.of (.build ⟨phase, command.display, some value⟩)) := by
  unfold result
  split <;> simp_all

theorem result_eq_ok_iff {phase : BuildPhase} {command : Command} {exit : Exit} :
    exit.result phase command = .ok () ↔ exit = .code 0 := by
  cases exit with
  | code value =>
      by_cases zero : value = 0
      · simp [zero, result]
      · simp [zero, result_code zero]
  | _ => simp [result]

end Exit

/-- What a build is about to run. -/
structure Plan where
  /-- The build as it was prepared. -/
  prepared : PreparedBuild
  cmake : Path

namespace Plan

def buildDir (plan : Plan) : Path := plan.prepared.invocation.dirs.buildDir

/-- The command that configures. -/
def first (plan : Plan) : Command :=
  Toolchain.configureCommand plan.cmake plan.prepared.invocation

/-- The command that compiles. -/
def second (plan : Plan) : Command :=
  Toolchain.buildCommand plan.cmake plan.prepared.invocation

end Plan

section Stages

variable (recipe : Recipe) (opts : BuildOptions) (signals : Signals) (resolver : VersionResolver)
  (searchPath : List Path) (runner : Runner)

/-- Whether there is something to run: a prepared build of a CMake project, and CMake. -/
structure Ready (t : FileTree) (plan : Plan) : Prop where
  prepares : recipe.prepare opts signals resolver = .ok plan.prepared
  is_project : Toolchain.isProject t plan.prepared.invocation.dirs.sourceDir = true
  finds : Toolchain.findCMake t searchPath opts.cmake = some plan.cmake

/-- Whether the first command succeeded, and the files it left. After the commands and with the
files before the build, it sees those files and the directory of the build. -/
inductive Configured (earlier : List Command) (t : FileTree) (plan : Plan) : FileTree → Prop
  | intro {t' : FileTree} {ran : Ran} (paved : Paved t plan.buildDir (.ok (), t'))
      (runs : runner earlier plan.first t' = ran) (succeeds : ran.exit = .code 0) :
      Configured earlier t plan ran.tree

/-- Whether the second command succeeded, and the files it left. It sees the files that the first
one left. -/
inductive Compiled (earlier : List Command) (t : FileTree) (plan : Plan) : FileTree → Prop
  | intro {t' : FileTree} {ran : Ran} (configured : Configured runner earlier t plan t')
      (runs : runner (earlier ++ [plan.first]) plan.second t' = ran)
      (succeeds : ran.exit = .code 0) : Compiled earlier t plan ran.tree

variable {runner} in
theorem Compiled.exists_configured {earlier : List Command} {t t' : FileTree} {plan : Plan}
    (compiled : Compiled runner earlier t plan t') :
    ∃ configured, Configured runner earlier t plan configured := by
  cases compiled with
  | intro configured _ _ => exact ⟨_, configured⟩

/-- How far a build gets: the commands it runs, what it returns, and the files it leaves. -/
inductive Staged (earlier : List Command) (t : FileTree) :
    List Command → Except Failure BuildResult → FileTree → Prop
  | unprepared {fault : RecipeError}
      (refused : recipe.prepare opts signals resolver = .error fault) :
      Staged earlier t [] (.error (.of (.recipe fault))) t
  | projectless {prepared : PreparedBuild}
      (prepares : recipe.prepare opts signals resolver = .ok prepared)
      (missing : Toolchain.isProject t prepared.invocation.dirs.sourceDir = false) :
      Staged earlier t [] (.error (.of (.plain
        ("no CMakeLists.txt found in " ++ prepared.invocation.dirs.sourceDir.text)))) t
  | toolless {prepared : PreparedBuild}
      (prepares : recipe.prepare opts signals resolver = .ok prepared)
      (is_project : Toolchain.isProject t prepared.invocation.dirs.sourceDir = true)
      (missing : Toolchain.findCMake t searchPath opts.cmake = none) :
      Staged earlier t [] (.error (.of (.recipe .cmakeNotFound))) t
  /-- The directory of the build cannot be made. -/
  | blocked {plan : Plan} {fault : OsError} {t' : FileTree}
      (ready : Ready recipe opts signals resolver searchPath t plan)
      (paved : Paved t plan.buildDir (.error fault, t')) :
      Staged earlier t []
        (.error ((Failure.of (.os fault)).within ("could not create " ++ plan.buildDir.text))) t'
  /-- The first command fails. -/
  | unconfigured {plan : Plan} {t' : FileTree} {ran : Ran} {failure : Failure}
      (ready : Ready recipe opts signals resolver searchPath t plan)
      (paved : Paved t plan.buildDir (.ok (), t'))
      (runs : runner earlier plan.first t' = ran)
      (fails : ran.exit.result .configure plan.first = .error failure) :
      Staged earlier t [plan.first] (.error failure) ran.tree
  /-- The second command fails. -/
  | uncompiled {plan : Plan} {t' : FileTree} {ran : Ran} {failure : Failure}
      (ready : Ready recipe opts signals resolver searchPath t plan)
      (configured : Configured runner earlier t plan t')
      (runs : runner (earlier ++ [plan.first]) plan.second t' = ran)
      (fails : ran.exit.result .compile plan.second = .error failure) :
      Staged earlier t [plan.first, plan.second] (.error failure) ran.tree
  | unpackaged {plan : Plan} {t' : FileTree}
      (ready : Ready recipe opts signals resolver searchPath t plan)
      (compiled : Compiled runner earlier t plan t') (left_out : opts.package = false) :
      Staged earlier t [plan.first, plan.second] (.ok ⟨plan.prepared, none⟩) t'
  /-- The outputs are packaged, or packaging them fails. -/
  | packaged {plan : Plan} {before after : World} {result : Except Failure ArtifactLayout}
      (ready : Ready recipe opts signals resolver searchPath t plan)
      (compiled : Compiled runner earlier t plan before.tree) (wanted : opts.package = true)
      (packages : (plan.prepared.packageOutputs recipe opts.copyPolicy).outcome before =
        (result, after)) :
      Staged earlier t [plan.first, plan.second]
        (result.map fun layout => ⟨plan.prepared, some layout⟩) after.tree

end Stages

namespace Staged

variable {recipe : Recipe} {opts : BuildOptions} {signals : Signals} {resolver : VersionResolver}
  {searchPath : List Path} {runner : Runner} {earlier issued : List Command} {t t' : FileTree}
  {result : Except Failure BuildResult}

/-- A build that runs nothing makes at most parents of the directory of the build. Otherwise it
runs the first command alone, or both, and both only if the first succeeded. -/
theorem issued_cases
    (staged : Staged recipe opts signals resolver searchPath runner earlier t issued result t') :
    issued = [] ∧ (t' = t ∨ ∃ plan fault, Ready recipe opts signals resolver searchPath t plan ∧
      Paved t plan.buildDir (.error fault, t')) ∨
    ∃ plan, Ready recipe opts signals resolver searchPath t plan ∧
      (issued = [plan.first] ∨ issued = [plan.first, plan.second] ∧
        ∃ configured, Configured runner earlier t plan configured) := by
  cases staged with
  | unprepared _ => exact Or.inl ⟨rfl, Or.inl rfl⟩
  | projectless _ _ => exact Or.inl ⟨rfl, Or.inl rfl⟩
  | toolless _ _ _ => exact Or.inl ⟨rfl, Or.inl rfl⟩
  | blocked ready paved => exact Or.inl ⟨rfl, Or.inr ⟨_, _, ready, paved⟩⟩
  | unconfigured ready _ _ _ => exact Or.inr ⟨_, ready, Or.inl rfl⟩
  | uncompiled ready configured _ _ => exact Or.inr ⟨_, ready, Or.inr ⟨rfl, _, configured⟩⟩
  | unpackaged ready compiled _ =>
      exact Or.inr ⟨_, ready, Or.inr ⟨rfl, compiled.exists_configured⟩⟩
  | packaged ready compiled _ _ =>
      exact Or.inr ⟨_, ready, Or.inr ⟨rfl, compiled.exists_configured⟩⟩

theorem nothing_of_not_ready
    (staged : Staged recipe opts signals resolver searchPath runner earlier t issued result t')
    (unready : ∀ plan, ¬Ready recipe opts signals resolver searchPath t plan) :
    issued = [] ∧ t' = t := by
  rcases staged.issued_cases with ⟨silent, rfl | ⟨plan, -, ready, -⟩⟩ | ⟨plan, ready, -⟩
  · exact ⟨silent, rfl⟩
  · exact absurd ready (unready plan)
  · exact absurd ready (unready plan)

/-- A build succeeds only if both commands have, and with a package exactly if one is wanted. -/
theorem compiled_of_ok {built : BuildResult}
    (staged : Staged recipe opts signals resolver searchPath runner earlier t issued (.ok built)
      t') :
    ∃ plan, Ready recipe opts signals resolver searchPath t plan ∧
      issued = [plan.first, plan.second] ∧ (∃ left, Compiled runner earlier t plan left) ∧
      built.layout.isSome = opts.package := by
  generalize ending : Except.ok built = result at staged
  cases staged with
  | unpackaged ready compiled left_out =>
      cases ending
      exact ⟨_, ready, rfl, ⟨_, compiled⟩, left_out.symm⟩
  | @packaged plan before after packaging ready compiled wanted packages =>
      cases packaging with
      | error failure => cases ending
      | ok layout =>
          cases ending
          exact ⟨_, ready, rfl, ⟨_, compiled⟩, wanted.symm⟩
  | _ => cases ending

end Staged

/-! ## One stage after the other -/

namespace Toolchain

open PackageBuild.Action

variable {world : World} {i : Invocation}

/-- A step runs its command once, and ends as the command does. -/
theorem outcome_runStep (runner : Runner) (phase : BuildPhase) (command : Command)
    (world : World) :
    ∃ last, (runStep runner phase command).outcome world =
        ((runner world.commands command world.tree).exit.result phase command, last) ∧
      last.tree = (runner world.commands command world.tree).tree ∧
      last.commands = world.commands ++ [command] := by
  have ran : (run runner command).outcome world =
    (.ok (runner world.commands command world.tree).exit, ((run runner command).outcome world).2) :=
    rfl
  refine ⟨((run runner command).outcome world).2, ?_, rfl, rfl⟩
  rw [runStep, outcome_bind_ok ran]
  generalize (runner world.commands command world.tree).exit = exit
  cases exit with
  | code value =>
      by_cases zero : value = 0
      · rw [zero]
        rfl
      · rw [Exit.result_code zero]
        split
        · rename_i same
          exact absurd (Exit.code.inj same) zero
        · rename_i same
          obtain rfl := Exit.code.inj same
          rfl
        · contradiction
        · contradiction
  | _ => rfl

/-- Nothing is run when the directory of the build cannot be made. -/
theorem outcome_configure_of_refused (runner : Runner) (cmake : Path) {fault : OsError}
    {t : FileTree}
    (made : world.tree.makeDirectories i.dirs.buildDir = (.error fault, t)) :
    ∃ last, (configure runner cmake i).outcome world =
        (.error ((Failure.of (.os fault)).within ("could not create " ++ i.dirs.buildDir.text)),
          last) ∧
      last.tree = t ∧ last.commands = world.commands := by
  rw [configure, outcome_bind_ok (outcome_tell _)]
  have refused : (makeDirectories i.dirs.buildDir).outcome
      { world with notices := world.notices ++ [.info ("Configuring " ++ i.descriptor.name ++ " " ++
        i.descriptor.version.value)] } = _ := outcome_change _ _
  dsimp only at refused
  rw [made] at refused
  exact ⟨_, outcome_bind_error refused, rfl, rfl⟩

/-- The first command sees the files with the directory of the build. -/
theorem outcome_configure (runner : Runner) (cmake : Path) {t : FileTree}
    (made : world.tree.makeDirectories i.dirs.buildDir = (.ok (), t)) :
    ∃ last, (configure runner cmake i).outcome world =
        ((runner world.commands (configureCommand cmake i) t).exit.result .configure
          (configureCommand cmake i), last) ∧
      last.tree = (runner world.commands (configureCommand cmake i) t).tree ∧
      last.commands = world.commands ++ [configureCommand cmake i] := by
  rw [configure, outcome_bind_ok (outcome_tell _)]
  have ready : (makeDirectories i.dirs.buildDir).outcome
      { world with notices := world.notices ++ [.info ("Configuring " ++ i.descriptor.name ++ " " ++
        i.descriptor.version.value)] } = _ := outcome_change _ _
  dsimp only at ready
  rw [made] at ready
  obtain ⟨told, warned⟩ := outcome_forM_warn i.warnings _
  rw [outcome_bind_ok ready, outcome_bind_ok warned]
  exact outcome_runStep runner .configure _ _

/-- The second command sees what the first one left. -/
theorem outcome_compile (runner : Runner) (cmake : Path) (i : Invocation) (world : World) :
    ∃ last, (compile runner cmake i).outcome world =
        ((runner world.commands (buildCommand cmake i) world.tree).exit.result .compile
          (buildCommand cmake i), last) ∧
      last.tree = (runner world.commands (buildCommand cmake i) world.tree).tree ∧
      last.commands = world.commands ++ [buildCommand cmake i] := by
  rw [compile, outcome_bind_ok (outcome_tell _)]
  exact outcome_runStep runner .compile _ _

end Toolchain

namespace PreparedBuild

open PackageBuild.Action

variable {prepared : PreparedBuild} {searchPath : List Path} {cmake : Option Path} {world : World}

theorem outcome_runNative_of_projectless (searchPath : List Path) (cmake : Option Path)
    (runner : Runner)
    (missing : Toolchain.isProject world.tree prepared.invocation.dirs.sourceDir = false) :
    (prepared.runNative searchPath cmake runner).outcome world =
      (.error (.of (.plain
        ("no CMakeLists.txt found in " ++ prepared.invocation.dirs.sourceDir.text))), world) := by
  rw [runNative, outcome_bind_ok (outcome_look _), missing]
  rfl

theorem outcome_runNative_of_toolless (runner : Runner)
    (is_project : Toolchain.isProject world.tree prepared.invocation.dirs.sourceDir = true)
    (missing : Toolchain.findCMake world.tree searchPath cmake = none) :
    (prepared.runNative searchPath cmake runner).outcome world =
      (.error (.of (.recipe .cmakeNotFound)), world) := by
  rw [runNative, outcome_bind_ok (outcome_look _), is_project, Bool.not_true,
    if_neg Bool.false_ne_true, outcome_bind_ok (outcome_look _), missing]
  rfl

theorem outcome_runNative (runner : Runner) {program : Path}
    (is_project : Toolchain.isProject world.tree prepared.invocation.dirs.sourceDir = true)
    (finds : Toolchain.findCMake world.tree searchPath cmake = some program) :
    (prepared.runNative searchPath cmake runner).outcome world =
      (Toolchain.build runner program prepared.invocation).outcome world := by
  rw [runNative, outcome_bind_ok (outcome_look _), is_project, Bool.not_true,
    if_neg Bool.false_ne_true, outcome_bind_ok (outcome_look _), finds]

theorem commands_packageOutputs (prepared : PreparedBuild) (recipe : Recipe) (policy : CopyPolicy)
    (world : World) :
    ((prepared.packageOutputs recipe policy).outcome world).2.commands = world.commands := by
  rw [packageOutputs]
  cases made : prepared.packager recipe policy with
  | error failure => rw [outcome_bind_error (by rw [outcome_ofExcept])]
  | ok packager =>
      rw [outcome_bind_ok (by rw [outcome_ofExcept]), outcome_within]
      exact (Packager.filesOnly_package packager prepared.packageDir).commands world

end PreparedBuild

namespace Recipe

open PackageBuild.Action

variable {recipe : Recipe} {opts : BuildOptions} {signals : Signals} {resolver : VersionResolver}
  {searchPath : List Path} {runner : Runner} {world : World}

/-- Preparing a build aloud comes to what preparing it comes to. -/
theorem outcome_prepareAloud (recipe : Recipe) (opts : BuildOptions) (signals : Signals)
    (resolver : VersionResolver) (world : World) :
    ∃ told, (recipe.prepareAloud opts signals resolver).outcome world =
      ((recipe.prepare opts signals resolver).mapError fun fault => Failure.of (.recipe fault),
        { world with notices := world.notices ++ told }) := by
  obtain ⟨told, warned⟩ := outcome_forM_warn (recipe.evaluationWarnings signals resolver) world
  refine ⟨told, ?_⟩
  rw [prepareAloud, outcome_bind_ok warned, outcome_ofExcept]

/-- After the first command the second one succeeds, or the build ends with it. -/
theorem outcome_compile_of_configured {plan : Plan} {earlier : List Command} {t : FileTree}
    (ready : Ready recipe opts signals resolver searchPath t plan)
    (issued : world.commands = earlier ++ [plan.first])
    (configured : Configured runner earlier t plan world.tree) :
    ∃ result last, (Toolchain.compile runner plan.cmake plan.prepared.invocation).outcome world =
        (result, last) ∧ last.commands = earlier ++ [plan.first, plan.second] ∧
      match result with
      | .ok () => Compiled runner earlier t plan last.tree
      | .error failure => Staged recipe opts signals resolver searchPath runner earlier t
          [plan.first, plan.second] (.error failure) last.tree := by
  obtain ⟨last, compiled, files, issued'⟩ :=
    Toolchain.outcome_compile runner plan.cmake plan.prepared.invocation world
  rw [issued] at compiled files issued'
  refine ⟨_, last, compiled, by rw [issued', List.append_assoc]; rfl, ?_⟩
  rw [files]
  cases second : (runner (earlier ++ [plan.first]) plan.second world.tree).exit.result .compile
      plan.second with
  | error failure =>
      simp only [Plan.second] at second
      simp only [second]
      exact .uncompiled ready configured rfl second
  | ok =>
      have succeeds := Exit.result_eq_ok_iff.mp second
      simp only [Plan.second] at second
      simp only [second]
      exact .intro configured rfl succeeds

/-- Both commands succeed, or the build ends with the first of them that does not. -/
theorem outcome_build_of_ready (runner : Runner) {plan : Plan}
    (ready : Ready recipe opts signals resolver searchPath world.tree plan) :
    ∃ result last, (Toolchain.build runner plan.cmake plan.prepared.invocation).outcome world =
        (result, last) ∧
      match result with
      | .ok () => last.commands = world.commands ++ [plan.first, plan.second] ∧
          Compiled runner world.commands world.tree plan last.tree
      | .error failure => ∃ issued, last.commands = world.commands ++ issued ∧
          Staged recipe opts signals resolver searchPath runner world.commands world.tree issued
            (.error failure) last.tree := by
  have paved := makeDirectories_paved (t := world.tree) plan.buildDir
  rw [Toolchain.build]
  obtain ⟨made, t, making⟩ : ∃ made t, world.tree.makeDirectories plan.buildDir = (made, t) :=
    ⟨_, _, rfl⟩
  rw [making] at paved
  cases made with
  | error fault =>
      obtain ⟨last, refused, rfl, same⟩ :=
        Toolchain.outcome_configure_of_refused runner plan.cmake making
      exact ⟨_, last, outcome_bind_error refused, [], by rw [same, List.append_nil],
        .blocked ready paved⟩
  | ok =>
      obtain ⟨middle, configured, files, issued⟩ :=
        Toolchain.outcome_configure runner plan.cmake making
      cases first : (runner world.commands plan.first t).exit.result .configure plan.first with
      | error failure =>
          have failed := configured.trans (congrArg (·, middle) first)
          refine ⟨_, middle, outcome_bind_error failed, [plan.first], issued, ?_⟩
          rw [files]
          exact .unconfigured ready paved rfl first
      | ok =>
          have stage : Configured runner world.commands world.tree plan middle.tree := by
            rw [files]
            exact .intro paved rfl (Exit.result_eq_ok_iff.mp first)
          obtain ⟨result, last, compiled, issued', ending⟩ :=
            outcome_compile_of_configured ready issued stage
          refine ⟨result, last, ?_, ?_⟩
          · rw [outcome_bind_ok (configured.trans (congrArg (·, middle) first)), compiled]
          · cases result with
            | error failure => exact ⟨_, issued', ending⟩
            | ok => exact ⟨issued', ending⟩

/-- A build that is ready to run ends with a failed command, without a package, or with
packaging. -/
theorem staged_of_ready (runner : Runner) (world : World) {plan : Plan}
    (ready : Ready recipe opts signals resolver searchPath world.tree plan) :
    ∃ result last, ((do
        Toolchain.build runner plan.cmake plan.prepared.invocation
        if opts.package then
          return ⟨plan.prepared, some (← plan.prepared.packageOutputs recipe opts.copyPolicy)⟩
        else return ⟨plan.prepared, none⟩ : Action BuildResult).outcome world) = (result, last) ∧
      ∃ issued, last.commands = world.commands ++ issued ∧
        Staged recipe opts signals resolver searchPath runner world.commands world.tree issued
          result last.tree := by
  obtain ⟨result, middle, built, ending⟩ := outcome_build_of_ready runner ready
  cases result with
  | error failure => exact ⟨_, middle, outcome_bind_error built, ending⟩
  | ok =>
      obtain ⟨issued, compiled⟩ := ending
      rw [outcome_bind_ok built]
      by_cases wanted : opts.package = true
      · obtain ⟨result, last, packages⟩ : ∃ result last,
            (plan.prepared.packageOutputs recipe opts.copyPolicy).outcome middle = (result, last) :=
          ⟨_, _, rfl⟩
        have silent := plan.prepared.commands_packageOutputs recipe opts.copyPolicy middle
        rw [packages] at silent
        have stage := Staged.packaged ready compiled wanted packages
        refine ⟨_, last, ?_, [plan.first, plan.second], silent.trans issued, stage⟩
        rw [if_pos wanted, outcome_bind, packages]
        cases result <;> rfl
      · rw [if_neg wanted]
        exact ⟨_, middle, rfl, [plan.first, plan.second], issued,
          .unpackaged ready compiled (Bool.eq_false_iff.mpr wanted)⟩

/-- Every build goes through its stages. -/
theorem exists_staged (recipe : Recipe) (opts : BuildOptions) (signals : Signals)
    (resolver : VersionResolver) (searchPath : List Path) (runner : Runner) (world : World) :
    ∃ result last, (recipe.build opts signals resolver searchPath runner).outcome world =
        (result, last) ∧
      ∃ issued, last.commands = world.commands ++ issued ∧
        Staged recipe opts signals resolver searchPath runner world.commands world.tree issued
          result last.tree := by
  obtain ⟨told, aloud⟩ := outcome_prepareAloud recipe opts signals resolver world
  rw [build]
  cases prepares : recipe.prepare opts signals resolver with
  | error fault =>
      rw [prepares] at aloud
      exact ⟨_, _, outcome_bind_error aloud, [], (List.append_nil _).symm, .unprepared prepares⟩
  | ok prepared =>
      rw [prepares] at aloud
      rw [outcome_bind_ok aloud]
      let warned : World := { world with notices := world.notices ++ told }
      cases is_project : Toolchain.isProject warned.tree prepared.invocation.dirs.sourceDir with
      | false =>
          have refused := PreparedBuild.outcome_runNative_of_projectless searchPath opts.cmake
            runner is_project
          exact ⟨_, _, outcome_bind_error refused, [], (List.append_nil _).symm,
            .projectless prepares is_project⟩
      | true =>
          cases finds : Toolchain.findCMake warned.tree searchPath opts.cmake with
          | none =>
              have refused := PreparedBuild.outcome_runNative_of_toolless runner is_project finds
              exact ⟨_, _, outcome_bind_error refused, [], (List.append_nil _).symm,
                .toolless prepares is_project finds⟩
          | some cmake =>
              have ready : Ready recipe opts signals resolver searchPath warned.tree
                ⟨prepared, cmake⟩ := ⟨prepares, is_project, finds⟩
              have staged := staged_of_ready runner warned ready
              rw [outcome_bind, PreparedBuild.outcome_runNative runner is_project finds,
                ← outcome_bind]
              exact staged

/-- A build runs no command, the first one alone, or both, and the second only after the first has
succeeded. Until both have, it makes nothing but the directory of the build, and nothing at all
when there is nothing to run. It packages only after both, and a command that does not succeed is
reported with its code. -/
theorem staged_build (recipe : Recipe) (opts : BuildOptions) (signals : Signals)
    (resolver : VersionResolver) (searchPath : List Path) (runner : Runner) (world : World) :
    ∃ result last issued,
      (recipe.build opts signals resolver searchPath runner).outcome world = (result, last) ∧
      last.commands = world.commands ++ issued ∧
      Staged recipe opts signals resolver searchPath runner world.commands world.tree issued
        result last.tree ∧
      (issued = [] ∧ (last.tree = world.tree ∨ ∃ plan fault,
          Ready recipe opts signals resolver searchPath world.tree plan ∧
          Paved world.tree plan.buildDir (.error fault, last.tree)) ∨
        ∃ plan, Ready recipe opts signals resolver searchPath world.tree plan ∧
          (issued = [plan.first] ∨ issued = [plan.first, plan.second] ∧
            ∃ configured, Configured runner world.commands world.tree plan configured)) ∧
      ((∀ plan, ¬Ready recipe opts signals resolver searchPath world.tree plan) →
        issued = [] ∧ last.tree = world.tree) ∧
      ∀ built, result = .ok built → ∃ plan,
        Ready recipe opts signals resolver searchPath world.tree plan ∧
        issued = [plan.first, plan.second] ∧
        (∃ left, Compiled runner world.commands world.tree plan left) ∧
        built.layout.isSome = opts.package := by
  obtain ⟨result, last, outcome, issued, commands, staged⟩ :=
    exists_staged recipe opts signals resolver searchPath runner world
  refine ⟨result, last, issued, outcome, commands, staged, staged.issued_cases,
    staged.nothing_of_not_ready, fun built succeeded => ?_⟩
  rw [succeeded] at staged
  exact staged.compiled_of_ok

end Recipe
end PackageBuild
