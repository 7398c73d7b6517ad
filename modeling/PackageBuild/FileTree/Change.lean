import PackageBuild.FileTree.Access
/-!
# Changing a file tree

Directories are made together with their missing parents, removed together with what they hold, and
files are written and copied. A change that fails midway leaves what it has done so far.
-/

namespace PackageBuild
namespace FileTree

/-- What a change leaves behind: whether it succeeded, and the tree. -/
abbrev Changed := Except OsError Unit × FileTree

/-- The tree with an entry at a location in place of a file or of nothing. -/
def put (t : FileTree) (l : Location) (e : Entry) : Except OsError FileTree :=
  if parent : t.lookup? l.dropLast = some .directory then
    if free : t.lookup? l = some .directory then .error .isDirectory
    else .ok (t.place l e parent free)
  else .error .notFound

/-- A path without slashes at its end. -/
def withoutEndSlash (p : Path) : Path :=
  let kept := (p.text.toList.reverse.dropWhile (· == '/')).reverse
  if kept.isEmpty then p else ⟨String.ofList kept⟩

/-- The tree with a new directory at a path whose parent exists. -/
def makeDirectory (t : FileTree) (p : Path) : Except OsError FileTree :=
  match t.locateName (withoutEndSlash p) with
  | .error e => .error e
  | .ok l =>
    match t.lookup? l with
    | some _ => .error .alreadyExists
    | none => t.put l .directory

/-- Make a directory with its missing parents, of which there are at most as many as the first
argument says. -/
def makeParents (t : FileTree) : Nat → Path → Changed
  | 0, _ => (.error .notFound, t)
  | fuel + 1, p =>
    if p.components = [] then (.ok (), t)
    else
      match t.makeDirectory p with
      | .ok t' => (.ok (), t')
      | .error .notFound =>
        match p.parent? with
        | none => (.error .notFound, t)
        | some parent =>
          match makeParents t fuel parent with
          | (.error e, t') => (.error e, t')
          | (.ok (), t') =>
            match t'.makeDirectory p with
            | .ok t'' => (.ok (), t'')
            | .error e => if t'.isDir p then (.ok (), t') else (.error e, t')
      | .error e => if t.isDir p then (.ok (), t) else (.error e, t)

/-- Make a directory with its missing parents. -/
def makeDirectories (t : FileTree) (p : Path) : Changed :=
  t.makeParents (p.components.length + 1) p

/-- Why a directory whose contents are gone cannot be removed under the name of its path: the name
is no longer good, or it is none that a directory can be removed by. -/
def removalFault (t : FileTree) (p : Path) : Option OsError :=
  let unless_ (e : OsError) : OsError :=
    match t.locate p with
    | .error gone => gone
    | .ok _ => e
  match (withoutEndSlash p).steps.getLast? with
  | some .current => some (unless_ .invalidArgument)
  | some .parent => some (unless_ .notEmpty)
  | some .root => some .busy
  | _ =>
    match t.locateName (withoutEndSlash p) with
    | .error gone => some gone
    | .ok l =>
      match t.lookup? l with
      | some (.link _) => some .notDirectory
      | _ => none

/-- Remove a directory with all that lies below it; a link is removed without what it leads to. -/
def removeDirectory (t : FileTree) (p : Path) : Changed :=
  match t.locateName p with
  | .error e => (.error e, t)
  | .ok l =>
    match t.lookup? l with
    | none => (.error .notFound, t)
    | some (.link _) => (.ok (), t.removeAt l)
    | some (.file ..) => (.error .notDirectory, t)
    | some .directory =>
      match (t.removeBelow l).removalFault p with
      | some e => (.error e, t.removeBelow l)
      | none => (.ok (), t.removeAt l)

/-- The location of a file to write; a path that ends in a slash can only name a directory. -/
def locateFile (t : FileTree) (p : Path) : Except OsError Location :=
  if p.endsInSlash then
    match t.locateName (withoutEndSlash p) with
    | .ok _ => .error .isDirectory
    | .error e => .error e
  else t.locate p

/-- Write a file at a path whose parent exists, or replace what it holds. -/
def writeFile (t : FileTree) (p : Path) (content : ByteArray) (executable : Bool) : Changed :=
  match t.locateFile p with
  | .error e => (.error e, t)
  | .ok l =>
    match t.put l (.file content executable) with
    | .ok t' => (.ok (), t')
    | .error e => (.error e, t)

/-- Copy a file to a path whose parent exists. Copying a file to itself leaves it empty. -/
def copyContent (t : FileTree) (src dst : Path) : Changed :=
  match t.find src with
  | .error e => (.error e, t)
  | .ok (origin, .file content executable) =>
    match t.locateFile dst with
    | .error e => (.error e, t)
    | .ok goal =>
      let copied := if origin = goal then ByteArray.empty else content
      match t.put goal (.file copied executable) with
      | .ok t' => (.ok (), t')
      | .error e => (.error e, t)
  | .ok _ => (.error .notRegular, t)

/-- Make a link at a path whose parent exists. -/
def makeLink (t : FileTree) (p target : Path) : Changed :=
  match t.locateName p with
  | .error e => (.error e, t)
  | .ok l =>
    match t.lookup? l with
    | some _ => (.error .alreadyExists, t)
    | none =>
      match t.put l (.link target) with
      | .ok t' => (.ok (), t')
      | .error e => (.error e, t)

end FileTree
end PackageBuild
