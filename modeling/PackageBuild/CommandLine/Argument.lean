/-!
# Arguments of the command line

The program has subcommands, each with its own arguments; some arguments may stand before or after
the subcommand. An argument has a long name and possibly a short one, and either is a plain flag or
takes a value. The one positional argument, the shell to complete for, has a value and no names.
-/

namespace PackageBuild
namespace CommandLine

def programName : String := "gantry"

def programVersion : String := "0.1.0"

inductive Subcommand where
  /-- Show the evaluated package. -/
  | inspect
  /-- Configure, build and package. -/
  | build
  /-- Package what an earlier build left. -/
  | package
  /-- Show what consumers link against. -/
  | info
  /-- Print a script that completes command lines. -/
  | completions
deriving DecidableEq, Repr

namespace Subcommand

def all : List Subcommand := [.inspect, .build, .package, .info, .completions]

def word : Subcommand → String
  | .inspect => "inspect"
  | .build => "build"
  | .package => "package"
  | .info => "info"
  | .completions => "completions"

def summary : Subcommand → String
  | .inspect => "Show the evaluated package: version, options and requirements"
  | .build => "Configure, build and package the library"
  | .package => "Package the outputs of an existing build"
  | .info => "Show what consumers link against"
  | .completions => "Generate shell completions"

/-- The subcommand that a word asks for. -/
def ofWord? (text : String) : Option Subcommand :=
  all.find? fun subcommand => subcommand.word = text

@[simp]
theorem ofWord?_word (subcommand : Subcommand) : ofWord? subcommand.word = some subcommand := by
  cases subcommand <;> rfl

end Subcommand

/-- An argument of the program or of one of its subcommands. -/
inductive Argument where
  /-- Tell more on the way. -/
  | verbose
  | manifestPath
  /-- Print help instead. -/
  | help
  /-- Print the version of the program instead. -/
  | version
  | os
  | compiler
  | buildType
  | arch
  /-- An override of an option of the recipe. -/
  | option
  /-- Print a document instead of lines. -/
  | json
  | buildDir
  | packageDir
  | noPackage
  /-- Missing source directories are errors. -/
  | strict
  | shell
deriving DecidableEq, Repr

namespace Argument

/-- The long name, without dashes; the positional argument has none. -/
def long? : Argument → Option String
  | .verbose => some "verbose"
  | .manifestPath => some "manifest-path"
  | .help => some "help"
  | .version => some "version"
  | .os => some "os"
  | .compiler => some "compiler"
  | .buildType => some "build-type"
  | .arch => some "arch"
  | .option => some "option"
  | .json => some "json"
  | .buildDir => some "build-dir"
  | .packageDir => some "package-dir"
  | .noPackage => some "no-package"
  | .strict => some "strict"
  | .shell => none

/-- The short name, without its dash. -/
def short? : Argument → Option Char
  | .verbose => some 'v'
  | .help => some 'h'
  | .version => some 'V'
  | .buildType => some 't'
  | .option => some 'o'
  | _ => none

/-- What the value of an argument is called; a flag takes none. -/
def valueName? : Argument → Option String
  | .manifestPath => some "PATH"
  | .os => some "OS"
  | .compiler => some "COMPILER"
  | .buildType => some "BUILD_TYPE"
  | .arch => some "ARCH"
  | .option => some "NAME=VALUE"
  | .buildDir => some "BUILD_DIR"
  | .packageDir => some "PACKAGE_DIR"
  | .shell => some "SHELL"
  | .verbose | .help | .version | .json | .noPackage | .strict => none

def takesValue (a : Argument) : Bool := a.valueName?.isSome

def display (a : Argument) : String :=
  match a.long?, a.valueName? with
  | some name, some value => "--" ++ name ++ " <" ++ value ++ ">"
  | some name, none => "--" ++ name
  | none, some value => "<" ++ value ++ ">"
  | none, none => ""

/-- The arguments that choose the settings of a build and override options. -/
def evaluation : List Argument := [.os, .compiler, .buildType, .arch, .option]

/-- The arguments that may stand before or after a subcommand. -/
def common : List Argument := [.verbose, .manifestPath]

/-- The arguments that may stand before a subcommand, or those of a subcommand. -/
def available : Option Subcommand → List Argument
  | none => common ++ [.help, .version]
  | some .inspect => evaluation ++ [.json] ++ common ++ [.help]
  | some .build =>
    evaluation ++ [.buildDir, .packageDir, .noPackage, .strict, .json] ++ common ++ [.help]
  | some .package => evaluation ++ [.buildDir, .packageDir, .strict, .json] ++ common ++ [.help]
  | some .info => [.packageDir, .json] ++ common ++ [.help]
  | some .completions => common ++ [.help, .shell]

/-- What an argument of a subcommand is for. -/
def summary (subcommand : Option Subcommand) : Argument → String
  | .verbose => "Enable verbose output"
  | .manifestPath => "Path to Gantry.toml (defaults to the nearest one above the current directory)"
  | .help => "Print help"
  | .version => "Print version"
  | .os => "Target operating system"
  | .compiler => "Compiler identifier"
  | .buildType => "Build type: Debug, Release, RelWithDebInfo or MinSizeRel"
  | .arch => "Target architecture"
  | .option => "Override an option value (e.g. `-o shared=True`)"
  | .json =>
    if subcommand = some .build then "Print a JSON summary on success"
    else if subcommand = some .package then "Print the packaged layout as JSON"
    else "Print JSON instead of text"
  | .buildDir =>
    if subcommand = some .package then
      "Build directory to package from (defaults to build/<BuildType>)"
    else "Build directory (defaults to build/<BuildType>)"
  | .packageDir => "Package directory (defaults to package/)"
  | .noPackage => "Build only; leave the package directory untouched"
  | .strict => "Fail when an output directory is missing instead of skipping it"
  | .shell => "Shell to generate completions for"

/-- The argument with a long name, among those available. -/
def ofLong? (subcommand : Option Subcommand) (name : String) : Option Argument :=
  (available subcommand).find? fun a => a.long? = some name

/-- The argument with a short name, among those available. -/
def ofShort? (subcommand : Option Subcommand) (name : Char) : Option Argument :=
  (available subcommand).find? fun a => a.short? = some name

end Argument
end CommandLine
end PackageBuild
