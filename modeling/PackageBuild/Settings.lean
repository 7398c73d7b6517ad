import PackageBuild.Failure
import PackageBuild.Text.Blank
import PackageBuild.Document.Decode
/-!
# Settings

A package is built for one operating system, compiler, build type and architecture. Operating
systems and build types are recognised in any case; an operating system that is not known by name
is kept as written.
-/

namespace PackageBuild

inductive Os where
  /-- Windows of any width. -/
  | windows
  | linux
  /-- The system of a Mac. -/
  | macos
  | freeBsd
  /-- Any other system, by its name. -/
  | other (name : String)
deriving DecidableEq, Repr

namespace Os

def display : Os → String
  | .windows => "Windows"
  | .linux => "Linux"
  | .macos => "Macos"
  | .freeBsd => "FreeBSD"
  | .other name => name

def isWindows (os : Os) : Bool := os = .windows

/-- The names under which each known system is recognised, in any case. -/
def spellings : List (String × Os) :=
  [("windows", .windows), ("win32", .windows), ("win64", .windows), ("linux", .linux),
    ("macos", .macos), ("darwin", .macos), ("osx", .macos), ("freebsd", .freeBsd)]

/-- The system that a name without blanks around it stands for. -/
def ofName (name : String) : Os :=
  match spellings.find? fun spelling => Text.sameIgnoringCase name spelling.1 with
  | some (_, os) => os
  | none => .other name

def parse (text : String) : Except RecipeError Os :=
  let name := Text.trim text
  if name = "" then
    .error (.invalidSetting "os" text (some "a non-empty operating system name"))
  else .ok (ofName name)

/-- The usual compiler of a system. -/
def defaultCompiler : Os → String
  | .windows => "msvc"
  | .macos => "apple-clang"
  | _ => "gcc"

end Os

/-- How much a build is optimised and what it keeps for debugging. -/
inductive BuildType where
  | debug
  | release
  | relWithDebInfo
  | minSizeRel
deriving DecidableEq, Repr

namespace BuildType

def display : BuildType → String
  | .debug => "Debug"
  | .release => "Release"
  | .relWithDebInfo => "RelWithDebInfo"
  | .minSizeRel => "MinSizeRel"

def all : List BuildType := [.debug, .release, .relWithDebInfo, .minSizeRel]

/-- The build type that a text names in any case. -/
def parse (text : String) : Except RecipeError BuildType :=
  match all.find? fun type => Text.sameIgnoringCase text type.display with
  | some type => .ok type
  | none =>
    .error (.invalidSetting "build_type" text
      (some "Debug, Release, RelWithDebInfo, or MinSizeRel"))

/-- The build type with exactly this name. -/
def ofName? (name : String) : Option BuildType := all.find? fun type => type.display = name

end BuildType

/-- What a package is built for. -/
structure Settings where
  os : Os
  compiler : String
  buildType : BuildType
  arch : String
deriving DecidableEq, Repr

namespace Settings

open Document

/-- The settings of the machine this runs on, with a release build. -/
def host : Settings := ⟨.linux, Os.linux.defaultCompiler, .release, "x86_64"⟩

def toValue (s : Settings) : Value :=
  .table [("os", .text s.os.display), ("compiler", .text s.compiler),
    ("build_type", .text s.buildType.display), ("arch", .text s.arch)]

structure Draft where
  os : Option Os := none
  compiler : Option String := none
  buildType : Option BuildType := none
  arch : Option String := none

namespace Draft

/-- Complete settings, or the first field that is missing. -/
def finish (d : Draft) : Except String Settings :=
  match d with
  | ⟨some os, some compiler, some buildType, some arch⟩ => .ok ⟨os, compiler, buildType, arch⟩
  | ⟨none, _, _, _⟩ => .error "os"
  | ⟨_, none, _, _⟩ => .error "compiler"
  | ⟨_, _, none, _⟩ => .error "build_type"
  | ⟨_, _, _, none⟩ => .error "arch"

end Draft

/-- An operating system in a document. -/
def decodeOs (value : Value) : Decoded Os := do
  match Os.parse (← Decode.text value) with
  | .ok os => return os
  | .error error => .error (.refused error.message)

/-- A build type in a document, under its exact name. -/
def decodeBuildType (format : Format) (value : Value) : Decoded BuildType := do
  let name ← Decode.name format (BuildType.all.map BuildType.display) value
  return (BuildType.ofName? name).getD .release

def reader (format : Format) : RecordReader Draft Settings where
  name := "Settings"
  fields := ["os", "compiler", "build_type", "arch"]
  strict := false
  start := {}
  visit key value draft :=
    match key with
    | "os" => do return { draft with os := ← decodeOs value }
    | "compiler" => do return { draft with compiler := ← Decode.text value }
    | "build_type" => do return { draft with buildType := ← decodeBuildType format value }
    | _ => do return { draft with arch := ← Decode.text value }
  finish := Draft.finish

def decode (format : Format) : Value → Decoded Settings := (reader format).read format

end Settings
end PackageBuild
