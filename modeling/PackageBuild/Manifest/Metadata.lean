import PackageBuild.Requirement
import PackageBuild.Document.Decode
import Std.Data.ExtTreeSet
/-!
# Package metadata

The section of a manifest that says what a package is: its name and version, what is known about
it, and what it requires.
-/

namespace PackageBuild

structure PackageMetadata where
  name : String
  /-- The version used when no signal names one. -/
  version : String
  license : Option String := none
  author : Option String := none
  url : Option String := none
  description : Option String := none
  /-- Topics, each once. -/
  topics : Std.ExtTreeSet String := ∅
  /-- What the package requires, in order of declaration. -/
  requires : List Requirement := []

namespace PackageMetadata

open Document

def toValue (m : PackageMetadata) : Value :=
  .table [("name", .text m.name), ("version", .text m.version),
    ("license", Value.optionalText m.license), ("author", Value.optionalText m.author),
    ("url", Value.optionalText m.url), ("description", Value.optionalText m.description),
    ("topics", Value.texts m.topics.toList),
    ("requires", Value.texts (m.requires.map Requirement.display))]

structure Draft where
  name : Option String := none
  version : Option String := none
  /-- All fields that may be absent; its name and version mean nothing yet. -/
  rest : PackageMetadata := { name := "", version := "" }

def decodeRequirement (value : Value) : Decoded Requirement := do
  match Requirement.parse (← Decode.text value) with
  | .ok requirement => return requirement
  | .error error => .error (.refused error.message)

def Draft.visit (key : String) (value : Value) (draft : Draft) : Decoded Draft := do
  let rest := draft.rest
  match key with
  | "name" => return { draft with name := ← Decode.text value }
  | "version" => return { draft with version := ← Decode.text value }
  | "license" =>
    return { draft with rest := { rest with license := ← Decode.optional Decode.text value } }
  | "author" =>
    return { draft with rest := { rest with author := ← Decode.optional Decode.text value } }
  | "url" => return { draft with rest := { rest with url := ← Decode.optional Decode.text value } }
  | "description" =>
    return { draft with rest := { rest with description := ← Decode.optional Decode.text value } }
  | "topics" =>
    let topics ← Decode.list Decode.text value
    return { draft with rest := { rest with topics := Std.ExtTreeSet.ofList topics } }
  | _ =>
    return { draft with rest := { rest with requires := ← Decode.list decodeRequirement value } }

/-- Complete metadata, or the first field that is missing. -/
def Draft.finish (draft : Draft) : Except String PackageMetadata :=
  match draft.name, draft.version with
  | some name, some version => .ok { draft.rest with name, version }
  | none, _ => .error "name"
  | _, none => .error "version"

def reader : RecordReader Draft PackageMetadata where
  name := "PackageMetadata"
  fields := ["name", "version", "license", "author", "url", "description", "topics", "requires"]
  strict := true
  start := {}
  visit := Draft.visit
  finish := Draft.finish

def decode (format : Format) : Value → Decoded PackageMetadata := reader.read format

/-- Whether a character may be part of a package name. -/
def isNameChar (c : Char) : Bool := c.isAlphanum || c == '_' || c == '-' || c == '.'

/-- Whether a text can be the name of a package. -/
def isName (text : String) : Bool := !text.toList.isEmpty && text.toList.all isNameChar

end PackageMetadata
end PackageBuild
