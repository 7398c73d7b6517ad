import PackageBuild.FileTree.Access
/-!
# Walking a file tree

A walk lists all that lies below a directory, every directory before its contents and siblings by
name; a walk that starts at a file meets only that. Links are listed but not followed, except at the
start. A walk may be told to stay out of one location. A walk through a tree that changes on the way
goes from directory to directory, listing the children of each when it gets there.
-/

namespace PackageBuild

/-- Something met on a walk. -/
structure Found where
  /-- Where it was met, starting with the path of the walk. -/
  path : Path
  /-- The names on the way from the start of the walk. -/
  way : Location
  /-- What it is. -/
  entry : Entry

namespace FileTree

/-- Whether a walk from `top` that stays out of `avoid` reaches a location. -/
def reaches (top : Location) (avoid : Option Location) (l : Location) : Bool :=
  match avoid with
  | none => true
  | some guard => !(atOrBelow top guard && atOrBelow guard l)

/-- All that is met on a walk below a directory. -/
def metBelow (t : FileTree) (start : Path) (top : Location) (avoid : Option Location) :
    List Found :=
  ((t.entriesBelow top).filter fun (way, _) => reaches top avoid (top ++ way)).map
    fun (way, entry) => ⟨start.descend way, way, entry⟩

/-- What is met where a walk starts: a file that its path leads to without a link at its end. -/
def metAtStart (t : FileTree) (start : Path) (top : Location) (entry : Entry)
    (avoid : Option Location) : List Found :=
  if entry.isFile ∧ (t.locateName start).toOption = some top ∧ reaches top avoid top then
    [⟨start, [], entry⟩]
  else []

/-- All that is met on a walk from a path; of directories, the start itself is left out. -/
def walk (t : FileTree) (start : Path) (avoid : Option Location) : Except OsError (List Found) :=
  match t.find start with
  | .error e => .error e
  | .ok (top, entry) => .ok (t.metAtStart start top entry avoid ++ t.metBelow start top avoid)

/-- The regular files met on a walk. -/
def filesMet (t : FileTree) (start : Path) (avoid : Option Location) :
    Except OsError (List Found) :=
  (t.walk start avoid).map fun found => found.filter (·.entry.isFile)

/-- The child that lies at a way of one name. -/
def child? : Location × Entry → Option (Name × Entry)
  | ([name], e) => some (name, e)
  | _ => none

/-- What is directly in a directory, by name. -/
def children (t : FileTree) (l : Location) : List (Name × Entry) :=
  (t.entriesBelow l).filterMap child?

/-- What is directly in a directory, but for a location to stay out of. -/
def childrenMet (t : FileTree) (avoid : Option Location) (l : Location) : List (Name × Entry) :=
  (t.children l).filter fun child => avoid ≠ some (l ++ [child.1])

end FileTree
end PackageBuild
