import PackageBuild.Number.Binary64
/-!
# Document values

Manifests, configuration files and reports are all trees of one kind: scalars, lists, and tables
whose keys keep the order in which they were written.
-/

namespace PackageBuild
namespace Document

/-- One value of a document. -/
inductive Value where
  /-- The absent value. -/
  | null
  | bool (value : Bool)
  | int (value : Int)
  /-- A number with a fraction or an exponent. -/
  | float (value : Binary64)
  | text (value : String)
  /-- A date, a time, or both, as written. -/
  | moment (value : String)
  | list (items : List Value)
  /-- Keys with their values, in the order written. -/
  | table (entries : List (String × Value))

namespace Value

def texts (items : List String) : Value := .list (items.map .text)

def optionalText : Option String → Value
  | some value => .text value
  | none => .null

/-- The value under a key of a table; a missing key reads as the absent value. -/
def field (key : String) : Value → Value
  | .table entries => (entries.lookup key).getD .null
  | _ => .null

/-- Insert a key into entries sorted by key; a later entry for a key replaces an earlier one. -/
def insertSorted (key : String) (value : Value) :
    List (String × Value) → List (String × Value)
  | [] => [(key, value)]
  | entry :: rest =>
    if key < entry.1 then (key, value) :: entry :: rest
    else if key = entry.1 then (key, value) :: rest
    else entry :: insertSorted key value rest

mutual
/-- The same value with the keys of every table in increasing order. -/
def sorted : Value → Value
  | .list items => .list (sortedItems items)
  | .table entries => .table (sortedEntries entries [])
  | value => value

/-- The items of a list, each with sorted tables. -/
def sortedItems : List Value → List Value
  | [] => []
  | item :: rest => sorted item :: sortedItems rest

/-- Entries added one after the other to sorted ones. -/
def sortedEntries : List (String × Value) → List (String × Value) → List (String × Value)
  | [], done => done
  | (key, value) :: rest, done => sortedEntries rest (insertSorted key (sorted value) done)
end

@[simp]
theorem field_table_cons_self (key : String) (value : Value) (rest : List (String × Value)) :
    field key (.table ((key, value) :: rest)) = value := by
  simp [field]

end Value
end Document
end PackageBuild
