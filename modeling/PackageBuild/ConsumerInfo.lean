import PackageBuild.ArtifactLayout
import PackageBuild.Library
import PackageBuild.Manifest.Consumer
/-!
# Information for consumers

A package that uses another one needs its include directories, its library directories and the
names to link. The names are either listed in the manifest or found among the libraries that lie
directly in one of the library directories.
-/

namespace PackageBuild

/-- What is needed to compile and link against a package. -/
structure ConsumerInfo where
  /-- Where headers are searched. -/
  includeDirs : List Path
  /-- Where libraries are searched. -/
  libDirs : List Path
  /-- The libraries to link. -/
  libs : List String
deriving DecidableEq, Repr

namespace ConsumerInfo

def toValue (info : ConsumerInfo) : Document.Value :=
  .table [("include_dirs", Document.Value.texts (info.includeDirs.map Path.text)),
    ("lib_dirs", Document.Value.texts (info.libDirs.map Path.text)),
    ("libs", Document.Value.texts info.libs)]

/-- Whether a library lies directly in one of some directories. -/
def liesIn (libDirs : List Path) (library : Path) : Bool :=
  library.parent?.any fun parent => libDirs.any (·.same parent)

/-- Whether one file name, if any, comes before another or equals it. -/
def nameLe (a b : Path) : Bool := (compare a.fileName? b.fileName?).isLE

/-- The link names of some libraries that lie directly in one of some directories, in the order of
their file names, each once. -/
def discover (libraries : List Path) (libDirs : List Path) : List String :=
  let files := (libraries.filter (liesIn libDirs)).mergeSort nameLe
  let names := files.filterMap fun file => file.fileName?.bind Library.linkName?
  names.foldl (fun known name => if known.contains name then known else known ++ [name]) []

/-- What a configuration says to the consumers of a package with this layout. -/
def publish (config : ConsumerConfig) (layout : ArtifactLayout) : ConsumerInfo where
  includeDirs := config.includeDirs.map layout.root.join
  libDirs := config.libDirs.map layout.root.join
  libs := match config.libs with
    | .fixed names => names
    | .discover => discover layout.libraries config.libDirs

end ConsumerInfo
end PackageBuild
