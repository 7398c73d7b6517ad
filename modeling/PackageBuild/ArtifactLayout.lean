import PackageBuild.Digest.Tree
import PackageBuild.Document.Value
import PackageBuild.FileTree.Walk
/-!
# The contents of a package

A layout lists the headers and libraries of a package by their paths from the package directory, in
increasing order. It is read from a package by walking its include directories and by looking
directly into its library directories, and it has a fingerprint that depends on the listed paths
and on what the files hold.
-/

namespace PackageBuild

/-- The headers and libraries of a package. -/
structure ArtifactLayout where
  /-- The package directory. -/
  root : Path
  /-- The headers, as seen from the package directory. -/
  headers : List Path
  /-- The libraries, as seen from the package directory. -/
  libraries : List Path
deriving DecidableEq, Repr

namespace ArtifactLayout

def isEmpty (l : ArtifactLayout) : Bool := l.headers.isEmpty && l.libraries.isEmpty

def toValue (l : ArtifactLayout) : Document.Value :=
  .table [("root", .text l.root.text),
    ("headers", Document.Value.texts (l.headers.map Path.text)),
    ("libraries", Document.Value.texts (l.libraries.map Path.text))]

/-- The files below a directory of a package, or directly in it, as seen from the package; a
directory that is not there holds none. -/
def filesIn (t : FileTree) (root : Path) (direct : Bool) (dir : Path) :
    Except Failure (List Path) :=
  let start := root.join dir
  if t.isDir start then
    match t.filesMet start none with
    | .error e => .error (.of (.walk start e))
    | .ok found =>
      .ok ((found.filter fun file => !direct || file.way.length == 1).map fun file =>
        Path.under root file.path)
  else .ok []

/-- The layout of the package in a directory. -/
def scan (t : FileTree) (root : Path) (includeDirs libDirs : List Path) :
    Except Failure ArtifactLayout := do
  let headers ← includeDirs.mapM (filesIn t root false)
  let libraries ← libDirs.mapM (filesIn t root true)
  return ⟨root, headers.flatten.mergeSort Path.le, libraries.flatten.mergeSort Path.le⟩

/-- The digest of the file at a path. -/
def fileDigest (t : FileTree) (p : Path) : Except Failure String :=
  match t.readBytes p with
  | .ok bytes => .ok (Sha256.hex bytes)
  | .error e =>
    .error ((Failure.of (.os e)).within ("failed to read " ++ p.text ++ " for digest"))

/-- The digest of all listed files, under their paths. -/
def treeDigest (t : FileTree) (l : ArtifactLayout) : Except Failure TreeDigest :=
  (l.headers ++ l.libraries).foldlM (fun digest file => do
    return digest.add file.text (← fileDigest t (l.root.join file))) {}

/-- The fingerprint of a package. -/
def fingerprint (t : FileTree) (l : ArtifactLayout) : Except Failure String :=
  (l.treeDigest t).map TreeDigest.hex

end ArtifactLayout
end PackageBuild
