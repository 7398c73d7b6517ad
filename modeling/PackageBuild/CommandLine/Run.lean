import PackageBuild.Build
import PackageBuild.CommandLine.Request
import PackageBuild.CommandLine.Setup
import PackageBuild.CommandLine.Usage
import PackageBuild.ConsumerInfo
import PackageBuild.Document.Json
import PackageBuild.Report
/-!
# Running the program

A subcommand is an action that tells its results and its progress as notices. A run of the program
reads the words of the command line, carries out the request and ends with an exit code: nothing
when all went well, one after a failure, and two when the words make no request.
-/

namespace PackageBuild
namespace CommandLine

def printLine (text : String) : Action Unit := Action.tell (.result text)

def printDocument (value : Document.Value) : Action Unit := printLine value.pretty

/-- Tell how far a subcommand has come. -/
def report (status : Status) (message : String) : Action Unit :=
  Action.tell (.status status message)

/-- How many headers and libraries a package has. -/
def counts (layout : ArtifactLayout) : String :=
  toString layout.headers.length ++ " headers, " ++ toString layout.libraries.length ++ " libraries"

/-- Say so when a package has nothing in it. -/
def reportEmpty (layout : ArtifactLayout) : Action Unit :=
  if layout.isEmpty then report .warning "package directory is empty" else return ()

/-- The fingerprint of a package as it is now. -/
def fingerprint (layout : ArtifactLayout) : Action String := do
  Action.ofExcept (layout.fingerprint (← Action.look id))

/-- The lines that show an evaluated package. -/
def Evaluation.lines (e : Evaluation) : List String :=
  let d := e.descriptor
  let options := e.values.toList
  [d.name ++ " " ++ d.version.value,
    "  version source: " ++ d.version.source.display] ++
    (d.license.map ("  license: " ++ ·)).toList ++
    (d.url.map ("  url: " ++ ·)).toList ++
    ["  settings: os=" ++ d.settings.os.display ++ " compiler=" ++ d.settings.compiler ++
      " build_type=" ++ d.settings.buildType.display ++ " arch=" ++ d.settings.arch] ++
    (if options.isEmpty then [] else
      "  options:" :: options.map fun (name, value) => "    " ++ name ++ " = " ++ value.display) ++
    (if e.requires.isEmpty then [] else
      "  requires:" :: e.requires.map fun requirement => "    " ++ requirement.display)

def inspect (s : Surroundings) (setup : Setup) (g : Given) : Action Unit := do
  let resolver := setup.config.resolver
  (setup.recipe.evaluationWarnings setup.signals resolver).forM Action.warn
  let evaluation ← Action.ofExcept ((setup.recipe.evaluate (g.settings s.host) setup.signals
    resolver g.overrides).mapError fun error => Failure.of (.recipe error))
  if g.json then printDocument evaluation.toValue
  else (Evaluation.lines evaluation).forM printLine

def summary (prepared : PreparedBuild) (layout : Option (ArtifactLayout × String)) :
    Document.Value :=
  .table
    [("build", Document.Value.texts prepared.invocation.buildArgs),
      ("configure", Document.Value.texts prepared.invocation.configureArgs),
      ("fingerprint", Document.Value.optionalText (layout.map Prod.snd)),
      ("layout", ((layout.map Prod.fst).map ArtifactLayout.toValue).getD .null),
      ("options", prepared.evaluation.values.toValue),
      ("package", prepared.evaluation.descriptor.toValue)]

/-- Package the outputs of a build and say what became of it. -/
def packageAfterBuild (setup : Setup) (prepared : PreparedBuild) (policy : CopyPolicy) :
    Action ArtifactLayout := do
  report .packaging ("into " ++ prepared.packageDir.text)
  let layout ← prepared.packageOutputs setup.recipe policy
  reportEmpty layout
  report .packaged (counts layout)
  return layout

def build (s : Surroundings) (setup : Setup) (g : Given) : Action Unit := do
  let opts := setup.buildOptions s.host g
  let prepared ← setup.recipe.prepareAloud opts setup.signals setup.config.resolver
  let d := prepared.evaluation.descriptor
  report .building
    (d.name ++ " v" ++ d.version.value ++ " (" ++ d.settings.buildType.display ++ ")")
  prepared.runNative s.searchPath opts.cmake s.runner
  report .finished (d.name ++ " in " ++ (← get).elapsed.display)
  let layout ← if opts.package then some <$> packageAfterBuild setup prepared opts.copyPolicy
    else do
      report .skipped "packaging (--no-package)"
      pure none
  if g.json then
    let printed ← layout.mapM fun layout => do return (layout, ← fingerprint layout)
    prepared.invocation.warnings.forM Action.warn
    printDocument (summary prepared printed).sorted

def package (s : Surroundings) (setup : Setup) (g : Given) : Action Unit := do
  let opts := setup.buildOptions s.host g
  let prepared ← setup.recipe.prepareAloud opts setup.signals setup.config.resolver
  report .packaging (setup.recipe.name ++ " from " ++ prepared.invocation.dirs.buildDir.text)
  let layout ← prepared.packageOutputs setup.recipe opts.copyPolicy
  let hash ← fingerprint layout
  if g.json then
    printDocument (.table [("fingerprint", .text hash), ("layout", layout.toValue.sorted)])
  else
    reportEmpty layout
    report .packaged (counts layout ++ " into " ++ layout.root.text ++ " (" ++
      String.ofList (hash.toList.take 16) ++ ")")

/-- Show what consumers link against. -/
def info (setup : Setup) (g : Given) : Action Unit := do
  let recipe := setup.recipe
  let dir := recipe.packageDirFor (g.packageDir.or setup.config.build.packageDir)
  if !(← Action.look (·.isDir dir)) then Action.warn (.noPackage dir)
  let t ← Action.look id
  let layout ← Action.ofExcept
    (ArtifactLayout.scan t dir recipe.consumer.includeDirs recipe.consumer.libDirs)
  let info := ConsumerInfo.publish recipe.consumer layout
  if g.json then printDocument info.toValue
  else
    info.includeDirs.forM fun dir => printLine ("includedir: " ++ dir.text)
    info.libDirs.forM fun dir => printLine ("libdir: " ++ dir.text)
    info.libs.forM fun lib => printLine ("lib: " ++ lib)

def perform (s : Surroundings) (subcommand : Subcommand) (g : Given) : Action Unit := do
  match subcommand with
  | .completions => (g.shell.map Shell.script).toList.forM printLine
  | _ =>
    let setup ← Action.ofExcept (Setup.load s g.manifestPath (← Action.look id))
    match subcommand with
    | .inspect => inspect s setup g
    | .build => build s setup g
    | .package => package s setup g
    | .info => info setup g
    | .completions => return ()

/-- What a run of the program comes to. -/
structure Finished where
  exitCode : Nat
  /-- What is written, in order, each text with the line break at its end. -/
  written : List (Stream × String)
  world : World

def ended (text : String) : String := text ++ "\n"

/-- What is written about a command line that makes no request. -/
def refusal (error : UsageError) : String :=
  match error.message? with
  | some message =>
    "error: " ++ message ++ "\n\nFor more information, try '--help'.\n"
  | none => String.join ((Usage.lines none).map ended)

/-- Run the program on the words of a command line. -/
def run (s : Surroundings) (words : List String) (t : FileTree) : Finished :=
  match Request.parse words with
  | .error error => ⟨2, [(.errors, refusal error)], { tree := t }⟩
  | .ok .version =>
    ⟨0, [(.output, ended (programName ++ " " ++ programVersion))], { tree := t }⟩
  | .ok (.help subcommand) =>
    ⟨0, [(.output, String.join ((Usage.lines subcommand).map ended))], { tree := t }⟩
  | .ok (.run subcommand given) =>
    let (result, world) := (perform s subcommand given).outcome { tree := t }
    let mode := OutputMode.ofFlags given.verbose given.json
    let written := (world.notices.filterMap (Notice.line? mode)).map fun (stream, text) =>
      (stream, ended text)
    match result with
    | .ok () => ⟨0, written, world⟩
    | .error failure =>
      ⟨1, written ++ [(.errors, (Report.ofFailure failure).render false)], world⟩

end CommandLine
end PackageBuild
