import PackageBuild.FileTree.Basic
/-!
# Looking at a file tree

A path leads to a location step by step: through directories, up to parents, and along links. What
the system answers about a path is said in terms of the location it leads to.
-/

namespace PackageBuild

namespace Path

/-- The steps the system takes along a path; a dot only asks for a directory. -/
def steps (p : Path) : List Component := p.tokens.map fun token => token.1.getD .current

end Path

namespace FileTree

/-- The location that a step from a directory leads to; `jump` follows a link, and it is followed
only if `follow` is set. What a name stands for need not exist. -/
def takeStep (t : FileTree) (jump : Location → Path → Except OsError Location) (follow : Bool)
    (l : Location) (step : Component) : Except OsError Location :=
  match step, t.lookup? l with
  | .root, _ => .ok []
  | _, none => .error .notFound
  | .current, some .directory => .ok l
  | .parent, some .directory => .ok l.dropLast
  | .normal name, some .directory =>
    match t.lookup? (l ++ [name]) with
    | some (.link target) => if follow then jump l target else .ok (l ++ [name])
    | _ => .ok (l ++ [name])
  | _, some _ => .error .notDirectory

/-- The location that steps from a directory lead to. A link at the end is followed only if `follow`
is set. -/
def walkSteps (t : FileTree) (jump : Location → Path → Except OsError Location) (follow : Bool) :
    Location → List Component → Except OsError Location
  | l, [] => .ok l
  | l, step :: rest =>
    match t.takeStep jump (follow || !rest.isEmpty) l step with
    | .ok l' => walkSteps t jump follow l' rest
    | .error e => .error e

/-- The location that a path leads to from a directory, along at most so many nested links. -/
def locateFrom (t : FileTree) (follow : Bool) : Nat → Location → Path → Except OsError Location
  | 0, _, _ => .error .tooManyLinks
  | links + 1, l, p =>
    if p.text = "" then .error .notFound
    else walkSteps t (locateFrom t true links) follow l p.steps

/-- How many links may lead to each other. -/
def linkLimit : Nat := 40

/-- The location that a path leads to, whether or not something is there. -/
def locate (t : FileTree) (p : Path) : Except OsError Location :=
  t.locateFrom true linkLimit t.here p

/-- The location that a path names, which may be that of a link. -/
def locateName (t : FileTree) (p : Path) : Except OsError Location :=
  t.locateFrom false linkLimit t.here p

/-- The location a path leads to, with what is there. -/
def find (t : FileTree) (p : Path) : Except OsError (Location × Entry) :=
  match t.locate p with
  | .error e => .error e
  | .ok l =>
    match t.lookup? l with
    | some e => .ok (l, e)
    | none => .error .notFound

/-- Whether something is at a path. -/
def pathExists (t : FileTree) (p : Path) : Bool := (t.find p).toOption.isSome

/-- Whether a directory is at a path. -/
def isDir (t : FileTree) (p : Path) : Bool :=
  (t.find p).toOption.any fun found => found.2.isDirectory

/-- Whether a regular file is at a path. -/
def isFile (t : FileTree) (p : Path) : Bool :=
  (t.find p).toOption.any fun found => found.2.isFile

/-- Whether a file that can be run is at a path. -/
def isExecutable (t : FileTree) (p : Path) : Bool :=
  match t.find p with
  | .ok (_, .file _ executable) => executable
  | _ => false

/-- The bytes of the file at a path. -/
def readBytes (t : FileTree) (p : Path) : Except OsError ByteArray :=
  match t.find p with
  | .error e => .error e
  | .ok (_, .file content _) => .ok content
  | .ok _ => .error .isDirectory

/-- The text of the file at a path. -/
def readText (t : FileTree) (p : Path) : Except OsError String :=
  match t.readBytes p with
  | .error e => .error e
  | .ok bytes =>
    match String.fromUTF8? bytes with
    | some text => .ok text
    | none => .error .notText

/-- The absolute path of a location, without links, dots and doubled slashes. -/
def pathOf (l : Location) : Path := ⟨"/" ++ Text.join "/" (l.map Name.text)⟩

/-- The canonical form of a path, or the path itself when it leads nowhere. -/
def canonicalOrGiven (t : FileTree) (p : Path) : Path :=
  match t.find p with
  | .ok (l, _) => pathOf l
  | .error _ => p

end FileTree
end PackageBuild
