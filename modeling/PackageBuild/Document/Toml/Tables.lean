import PackageBuild.Document.Value
/-!
# Tables of a TOML document

Keys with dots and headers open tables along a path. A table may be opened once by a header, may be
extended by dotted keys only if dotted keys made it, and a value is never opened at all. Entries
keep the order in which they were first put into their table.
-/

namespace PackageBuild
namespace Document
namespace Toml

/-- A place in a table while the document is being read. -/
inductive Node where
  | leaf (value : Value)
  /-- A table: whether it only lies on a path so far, whether dotted keys made it, and what it
  holds. -/
  | branch (implicit dotted : Bool) (entries : List (String × Node))
  /-- The tables of an array that headers in double brackets made. -/
  | rows (tables : List (List (String × Node)))

abbrev Entries := List (String × Node)

namespace Node

mutual
def value : Node → Value
  | .leaf v => v
  | .branch _ _ entries => .table (entryValues entries)
  | .rows tables => .list (rowValues tables)

/-- The finished values of a table's entries. -/
def entryValues : List (String × Node) → List (String × Value)
  | [] => []
  | (key, node) :: rest => (key, value node) :: entryValues rest

/-- The finished tables of an array. -/
def rowValues : List (List (String × Node)) → List Value
  | [] => []
  | entries :: rest => .table (entryValues entries) :: rowValues rest
end

end Node

/-- A table that is being filled. -/
structure Table where
  /-- Whether it only lies on the path to another table so far. -/
  implicit : Bool
  /-- Whether dotted keys made it. -/
  dotted : Bool
  /-- What it holds. -/
  entries : Entries

namespace Table

/-- A table that holds nothing and was opened by name. -/
def empty : Table := ⟨false, false, []⟩

/-- Put a node under a key, in place of the one that is there or else at the end. -/
def put (key : String) (node : Node) : Entries → Entries
  | [] => [(key, node)]
  | entry :: rest => if entry.1 = key then (key, node) :: rest else entry :: put key node rest

/-- Change the table at the end of a path, opening the tables on the way; `none` when a place on
the path cannot be opened or the change is refused. -/
def modify (dotted : Bool) (change : Table → Option Table) : List String → Table → Option Table
  | [], table => change table
  | key :: path, table =>
    let store (node : Node) : Table := { table with entries := put key node table.entries }
    match table.entries.lookup key with
    | none => do
      let child ← modify dotted change path ⟨true, dotted, []⟩
      return store (.branch child.implicit child.dotted child.entries)
    | some (.leaf _) => none
    | some (.rows tables) => do
      let last ← tables.getLast?
      let child ← modify dotted change path ⟨false, false, last⟩
      return store (.rows (tables.dropLast ++ [child.entries]))
    | some (.branch implicit wasDotted entries) =>
      if dotted ∧ ¬ implicit then none
      else do
        let child ← modify dotted change path ⟨implicit, wasDotted, entries⟩
        return store (.branch child.implicit child.dotted child.entries)

/-- Define a key, given by the path to its table and its own name, as a value. -/
def define (path : List String) (key : String) (value : Value) (table : Table) : Option Table :=
  table.modify true (fun target =>
    if target.dotted = path.isEmpty then none
    else if (target.entries.lookup key).isSome then none
    else some { target with entries := target.entries ++ [(key, .leaf value)] }) path

/-- A table whose keys are all defined at once, as between braces. -/
def ofPairs? : List (List String × String × Value) → Table → Option Table
  | [], table => some table
  | (path, key, value) :: rest, table => do ofPairs? rest (← table.define path key value)

end Table

/-- One line of a document that says something. -/
inductive Statement where
  | pair (path : List String) (key : String) (value : Value)
  | header (path : List String) (key : String)
  /-- The header of the next table of an array. -/
  | row (path : List String) (key : String)

/-- Where the lines after a header belong. -/
inductive Target where
  /-- To the document's own table. -/
  | root
  /-- To the table with this path and name. -/
  | table (path : List String) (key : String)
  /-- To the next table of the array with this path and name. -/
  | row (path : List String) (key : String)

/-- A document that has been read up to some line. -/
structure Assembly where
  /-- The tables that are complete. -/
  root : Table
  /-- Where the open table belongs. -/
  target : Target
  /-- The open table. -/
  current : Table

namespace Assembly

def start : Assembly := ⟨.empty, .root, .empty⟩

/-- The document with its open table put into its place. -/
def close (a : Assembly) : Option Table :=
  let entries := a.current.entries
  match a.target with
  | .root => some a.current
  | .table path key =>
    a.root.modify false (fun parent =>
      some { parent with entries := Table.put key (.branch false false entries) parent.entries })
      path
  | .row path key =>
    a.root.modify false (fun parent =>
      match parent.entries.lookup key with
      | some (.rows tables) =>
        some { parent with entries := Table.put key (.rows (tables ++ [entries])) parent.entries }
      | _ => none) path

/-- Take a place that may become the table of a header out of its parent, with its entries. -/
def takeOut (key : String) (parent : Table) : Option (Table × Entries) :=
  match parent.entries.lookup key with
  | none => some (parent, [])
  | some (.branch true false entries) =>
    some ({ parent with entries := parent.entries.filter (·.1 ≠ key) }, entries)
  | some _ => none

/-- The entries a table at a path holds, if it can be opened. -/
def entriesAt (root : Table) (path : List String) : Option Entries :=
  match path with
  | [] => some root.entries
  | key :: rest =>
    match root.entries.lookup key with
    | some (.branch implicit dotted entries) => entriesAt ⟨implicit, dotted, entries⟩ rest
    | some (.rows tables) => tables.getLast? >>= fun last => entriesAt ⟨false, false, last⟩ rest
    | _ => some []

/-- Take one statement into account. -/
def add (a : Assembly) : Statement → Option Assembly
  | .pair path key value => do return { a with current := ← a.current.define path key value }
  | .header path key => do
    let root ← a.close
    let held ← (entriesAt root path) >>= fun entries => takeOut key ⟨false, false, entries⟩
    let root ← root.modify false (fun parent => (takeOut key parent).map (·.1)) path
    return ⟨root, .table path key, ⟨false, false, held.2⟩⟩
  | .row path key => do
    let root ← a.close
    let root ← root.modify false (fun parent =>
      match parent.entries.lookup key with
      | none => some { parent with entries := parent.entries ++ [(key, .rows [])] }
      | some (.rows _) => some parent
      | some _ => none) path
    return ⟨root, .row path key, .empty⟩

end Assembly

/-- The document that a sequence of statements makes. -/
def document? (statements : List Statement) : Option Value := do
  let assembly ← statements.foldlM Assembly.add Assembly.start
  let root ← assembly.close
  return .table (Node.entryValues root.entries)

end Toml
end Document
end PackageBuild
