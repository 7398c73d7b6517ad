import PackageBuild.Document.Value
import PackageBuild.Text.Quoted
import PackageBuild.Text.Split
/-!
# Reading typed values from documents

A decoder turns a document value into a value of the domain or says what is wrong with it. Records
are read from tables, key by key in the order written, or from lists, field by field in the order
declared. The two formats differ in how they write a choice among names and in whether a list may
be longer than its record, so decoders are told which format a document came from.
-/

namespace PackageBuild
namespace Document

inductive Format where
  | toml
  | json
deriving DecidableEq, Repr

/-- Why a document value is not what was wanted. -/
inductive DecodeError where
  /-- The value has another type. -/
  | wrongType (got : Value) (want : String)
  /-- A required key is absent. -/
  | missingField (name : String)
  /-- A key is not among those of its record. -/
  | unknownField (name : String) (known : List String)
  /-- A name is not among those to choose from. -/
  | unknownVariant (name : String) (known : List String)
  /-- The value has none of the shapes its type may take. -/
  | noVariant (type : String)
  /-- A list ends before all required fields of a record were read. -/
  | tooShort (length : Nat) (record : String) (fields : Nat)
  /-- A list has more items than its record has fields. -/
  | tooLong (length : Nat)
  /-- A table stands for a choice but does not have exactly one key. -/
  | notSingleKey
  /-- The value violates a rule of the domain, told in its own words. -/
  | refused (reason : String)

namespace DecodeError

/-- Names between backticks, as alternatives. -/
def alternatives (names : List String) : String :=
  match names.map fun name => "`" ++ name ++ "`" with
  | [one] => one
  | [one, two] => one ++ " or " ++ two
  | all => "one of " ++ Text.join ", " all

/-- What kind of value was found, with the value itself when it is a scalar. -/
def describe : Value → String
  | .null => "null"
  | .bool value => "boolean `" ++ (if value then "true" else "false") ++ "`"
  | .int value => "integer `" ++ toString value ++ "`"
  | .float value => "floating point `" ++ value.display ++ "`"
  | .text value => "string " ++ Text.quoted value
  | .list _ => "sequence"
  | .moment _ => "map"
  | .table _ => "map"

def message : DecodeError → String
  | .wrongType got want => "invalid type: " ++ describe got ++ ", expected " ++ want
  | .missingField name => "missing field `" ++ name ++ "`"
  | .unknownField name known =>
    "unknown field `" ++ name ++ "`, expected " ++ alternatives known
  | .unknownVariant name known =>
    "unknown variant `" ++ name ++ "`, expected " ++ alternatives known
  | .noVariant type => "data did not match any variant of untagged enum " ++ type
  | .tooShort length record fields =>
    "invalid length " ++ toString length ++ ", expected struct " ++ record ++ " with " ++
      toString fields ++ " elements"
  | .tooLong length =>
    "invalid length " ++ toString length ++ ", expected fewer elements in array"
  | .notSingleKey => "invalid value: map, expected map with a single key"
  | .refused reason => reason

end DecodeError

/-- The result of reading a domain value from a document. -/
abbrev Decoded (α : Type) := Except DecodeError α

namespace Decode

/-- A text; `want` says what it is wanted for. -/
def textFor (want : String) : Value → Decoded String
  | .text value => .ok value
  | value => .error (.wrongType value want)

def text : Value → Decoded String := textFor "a string"

def pathText : Value → Decoded String := textFor "path string"

def bool : Value → Decoded Bool
  | .bool value => .ok value
  | value => .error (.wrongType value "a boolean")

/-- A list whose items are read one after the other. -/
def list {α : Type} (item : Value → Decoded α) : Value → Decoded (List α)
  | .list items => items.mapM item
  | value => .error (.wrongType value "a sequence")

def optional {α : Type} (item : Value → Decoded α) : Value → Decoded (Option α)
  | .null => .ok none
  | value => some <$> item value

/-- The key under which a date or time shows its text when a table is wanted. -/
def momentKey : String := "$__toml_private_datetime"

/-- The entries of a table, each read one after the other. -/
def entries {α : Type} (item : Value → Decoded α) : Value → Decoded (List (String × α))
  | .table entries => entries.mapM fun (key, value) => (key, ·) <$> item value
  | .moment value => (fun read => [(momentKey, read)]) <$> item (.text value)
  | value => .error (.wrongType value "a map")

def name (format : Format) (names : List String) (value : Value) : Decoded String :=
  let choose (name : String) : Decoded String :=
    if name ∈ names then .ok name else .error (.unknownVariant name names)
  match value, format with
  | .text name, _ => choose name
  | .table [(key, payload)], .json => do
    let name ← choose key
    match payload with
    | .null => return name
    | payload => .error (.wrongType payload "unit")
  | .table _, .json => .error .notSingleKey
  | value, .json => .error (.wrongType value "string or map")
  | .table [], .toml => .error (.refused "wanted exactly 1 element, found 0 elements")
  | .table [(key, payload)], .toml => do
    let name ← choose key
    match payload with
    | .table [] | .list [] => return name
    | .table _ => .error (.refused "expected empty table")
    | .list _ => .error (.refused "expected empty array")
    | payload =>
      let found := match payload with
        | .bool _ => "boolean"
        | .int _ => "integer"
        | .float _ => "float"
        | .moment _ => "datetime"
        | _ => "string"
      .error (.refused ("expected table, found " ++ found))
  | .table _, .toml => .error (.refused "wanted exactly 1 element, more than 1 element")
  | _, .toml => .error (.refused "wanted string or table")

end Decode

/-- How a record is read: its fields in order of declaration, and what each adds to a draft. -/
structure RecordReader (σ α : Type) where
  /-- The name of the record in messages. -/
  name : String
  /-- The keys of the record in order of declaration. -/
  fields : List String
  /-- Whether other keys are refused. -/
  strict : Bool
  /-- The draft before any field is read. -/
  start : σ
  /-- A draft with one more field. -/
  visit : String → Value → σ → Decoded σ
  /-- The record of a complete draft, or the first required field that is absent. -/
  finish : σ → Except String α

namespace RecordReader

variable {σ α : Type}

/-- Add one entry of a table to a draft. -/
def addEntry (reader : RecordReader σ α) (draft : σ) (entry : String × Value) : Decoded σ :=
  if entry.1 ∈ reader.fields then reader.visit entry.1 entry.2 draft
  else if reader.strict then .error (.unknownField entry.1 reader.fields)
  else .ok draft

/-- Read a record from the entries of a table. -/
def ofEntries (reader : RecordReader σ α) (entries : List (String × Value)) : Decoded α := do
  let draft ← entries.foldlM reader.addEntry reader.start
  match reader.finish draft with
  | .ok record => return record
  | .error missing => .error (.missingField missing)

/-- Read a record from the items of a list. -/
def ofItems (reader : RecordReader σ α) (format : Format) (items : List Value) : Decoded α := do
  let draft ← (reader.fields.zip items).foldlM reader.addEntry reader.start
  match reader.finish draft with
  | .error _ => .error (.tooShort items.length reader.name reader.fields.length)
  | .ok record =>
    if format = .json ∧ reader.fields.length < items.length then .error (.tooLong items.length)
    else return record

/-- Read a record from a document value. -/
def read (reader : RecordReader σ α) (format : Format) : Value → Decoded α
  | .table entries => reader.ofEntries entries
  | .list items => reader.ofItems format items
  | .moment value => reader.ofEntries [(Decode.momentKey, .text value)]
  | value => .error (.wrongType value ("struct " ++ reader.name))

end RecordReader

end Document
end PackageBuild
