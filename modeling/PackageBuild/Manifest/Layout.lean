import PackageBuild.Path
import PackageBuild.Document.Decode
/-!
# Where outputs are found

The section of a manifest that says where the headers of a package are and which files are headers
and libraries.
-/

namespace PackageBuild

/-- Where the packager finds its files. -/
structure LayoutConfig where
  /-- The header tree, relative to the package root. -/
  includeDir : Path := ⟨"include"⟩
  headerExtensions : List String := ["h", "hpp"]
  libraryPatterns : List String := ["*.a", "*.lib"]
  /-- Further patterns for shared libraries. -/
  sharedLibraryPatterns : List String := ["*.so", "*.so.*", "*.dylib", "*.dll"]
deriving DecidableEq, Repr

namespace LayoutConfig

open Document

def toValue (c : LayoutConfig) : Value :=
  .table [("include_dir", .text c.includeDir.text),
    ("header_extensions", Value.texts c.headerExtensions),
    ("library_patterns", Value.texts c.libraryPatterns),
    ("shared_library_patterns", Value.texts c.sharedLibraryPatterns)]

/-- How a layout configuration is read from a document; absent fields keep their default. -/
def reader : RecordReader LayoutConfig LayoutConfig where
  name := "LayoutConfig"
  fields :=
    ["include_dir", "header_extensions", "library_patterns", "shared_library_patterns"]
  strict := true
  start := {}
  visit key value draft := do
    match key with
    | "include_dir" => return { draft with includeDir := ⟨← Decode.pathText value⟩ }
    | "header_extensions" =>
      return { draft with headerExtensions := ← Decode.list Decode.text value }
    | "library_patterns" =>
      return { draft with libraryPatterns := ← Decode.list Decode.text value }
    | _ => return { draft with sharedLibraryPatterns := ← Decode.list Decode.text value }
  finish := .ok

def decode (format : Format) : Value → Decoded LayoutConfig := reader.read format

end LayoutConfig
end PackageBuild
