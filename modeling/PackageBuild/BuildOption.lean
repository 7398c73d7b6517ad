import PackageBuild.Failure
import PackageBuild.Settings
import Std.Data.ExtTreeMap
/-!
# Build options

A package declares options, each with the values it may take and a default among them. Before they
are resolved the options are fitted to the target system, where Windows has no position-independent
code. Overrides then replace defaults one after the other.
-/

namespace PackageBuild

inductive OptionValue where
  | bool (value : Bool)
  | text (value : String)
deriving DecidableEq, Repr

namespace OptionValue

def display : OptionValue → String
  | .bool value => if value then "true" else "false"
  | .text value => value

/-- Whether a text names a value: a switch in any case, a text exactly. -/
def matchesText (text : String) : OptionValue → Bool
  | .bool value => Text.sameIgnoringCase text (if value then "true" else "false")
  | .text value => value == text

def asBool : OptionValue → Option Bool
  | .bool value => some value
  | .text _ => none

def toValue : OptionValue → Document.Value
  | .bool value => .bool value
  | .text value => .text value

def decode : Document.Value → Document.Decoded OptionValue
  | .bool value => .ok (.bool value)
  | .text value => .ok (.text value)
  | _ => .error (.noVariant "OptionValue")

@[simp]
theorem decode_toValue (v : OptionValue) : decode v.toValue = .ok v := by
  cases v <;> rfl

end OptionValue

/-- What an option may be and what it is unless overridden. -/
structure OptionDecl where
  values : List OptionValue
  default : OptionValue
deriving DecidableEq, Repr

namespace OptionDecl

open Document

def switch (default : Bool) : OptionDecl := ⟨[.bool true, .bool false], .bool default⟩

/-- The advice that lists the values of an option. -/
def allowed (decl : OptionDecl) : String :=
  "allowed values: " ++ Text.join ", " (decl.values.map OptionValue.display)

/-- The first value of the option that a text names. -/
def valueNamed? (text : String) (decl : OptionDecl) : Option OptionValue :=
  decl.values.find? (·.matchesText text)

def toValue (decl : OptionDecl) : Value :=
  .table [("values", .list (decl.values.map OptionValue.toValue)),
    ("default", decl.default.toValue)]

structure Draft where
  values : Option (List OptionValue) := none
  default : Option OptionValue := none

def reader : RecordReader Draft OptionDecl where
  name := "OptionDecl"
  fields := ["values", "default"]
  strict := true
  start := {}
  visit key value draft :=
    match key with
    | "values" => do return { draft with values := ← Decode.list OptionValue.decode value }
    | _ => do return { draft with default := ← OptionValue.decode value }
  finish
    | ⟨some values, some default⟩ => .ok ⟨values, default⟩
    | ⟨none, _⟩ => .error "values"
    | ⟨_, none⟩ => .error "default"

def decode (format : Format) : Value → Decoded OptionDecl := reader.read format

end OptionDecl

structure OptionOverride where
  name : String
  value : String
deriving DecidableEq, Repr

namespace OptionOverride

/-- The override that a text of the form `name=value` stands for. -/
def parse (text : String) : Except RecipeError OptionOverride :=
  match Text.cut '=' text with
  | none => .error (.malformedOverride text)
  | some (name, value) =>
    let name := Text.trim name
    let value := Text.trim value
    if name = "" ∨ value = "" then .error (.malformedOverride text) else .ok ⟨name, value⟩

end OptionOverride

/-- The options that exist in a package, each with its declaration. -/
structure OptionSchema where
  decls : Std.ExtTreeMap String OptionDecl
  /-- Every default is one of the values of its option. -/
  default_mem : ∀ {name : String} {decl : OptionDecl}, decls[name]? = some decl →
    decl.default ∈ decl.values

/-- The values all options have in one build. -/
structure OptionValues where
  values : Std.ExtTreeMap String OptionValue

namespace OptionValues

def get? (name : String) (v : OptionValues) : Option OptionValue := v.values[name]?

def toList (v : OptionValues) : List (String × OptionValue) := v.values.toList

def toValue (v : OptionValues) : Document.Value :=
  .table (v.toList.map fun (name, value) => (name, value.toValue))

/-- The name of the option that asks for a shared library. -/
def sharedName : String := "shared"

/-- Whether a shared library is asked for. -/
def shared (v : OptionValues) : Bool :=
  ((v.get? sharedName).bind OptionValue.asBool).getD false

end OptionValues

namespace OptionSchema

/-- The name of the option for position-independent code. -/
def fpicName : String := "fPIC"

/-- A declaration whose default is not among its values. -/
def misdeclared? (decls : Std.ExtTreeMap String OptionDecl) : Option (String × OptionDecl) :=
  decls.toList.find? fun entry => !entry.2.values.contains entry.2.default

theorem default_mem_of_misdeclared?_eq_none {decls : Std.ExtTreeMap String OptionDecl}
    (h : misdeclared? decls = none) {name : String} {decl : OptionDecl}
    (hdecl : decls[name]? = some decl) : decl.default ∈ decl.values := by
  have hmem : (name, decl) ∈ decls.toList :=
    Std.ExtTreeMap.mem_toList_iff_getElem?_eq_some.2 hdecl
  simpa using List.find?_eq_none.1 h _ hmem

/-- The schema with these declarations; the first default outside its domain is refused. -/
def ofDecls (decls : Std.ExtTreeMap String OptionDecl) : Except RecipeError OptionSchema :=
  match h : misdeclared? decls with
  | some (name, decl) =>
    .error (.invalidOptionValue name decl.default.display (some decl.allowed))
  | none => .ok ⟨decls, default_mem_of_misdeclared?_eq_none h⟩

/-- The options of a package that declares none itself: static, with position-independent code. -/
def standard : OptionSchema where
  decls := Std.ExtTreeMap.ofList
    [(OptionValues.sharedName, OptionDecl.switch false), (fpicName, OptionDecl.switch true)]
  default_mem := by
    intro name decl h
    rw [Std.ExtTreeMap.ofList_eq_insertMany_empty] at h
    simp only [Std.ExtTreeMap.insertMany_cons, Std.ExtTreeMap.insertMany_nil,
      Std.ExtTreeMap.getElem?_insert] at h
    split at h
    · obtain rfl := Option.some.inj h
      simp [OptionDecl.switch]
    · split at h
      · obtain rfl := Option.some.inj h
        simp [OptionDecl.switch]
      · simp at h

/-- The options that exist on a system: on Windows there is no position-independent code. -/
def normalize (os : Os) (schema : OptionSchema) : OptionSchema where
  decls := schema.decls.filter fun name _ => !(os.isWindows && name == fpicName)
  default_mem h := schema.default_mem (by
    rw [Std.ExtTreeMap.getElem?_filter] at h
    exact (Option.pfilter_eq_some_iff.1 h).1)

def get? (name : String) (schema : OptionSchema) : Option OptionDecl := schema.decls[name]?

def toList (schema : OptionSchema) : List (String × OptionDecl) := schema.decls.toList

def names (schema : OptionSchema) : List String := schema.decls.keys

def toValue (schema : OptionSchema) : Document.Value :=
  .table (schema.toList.map fun (name, decl) => (name, decl.toValue))

def defaults (schema : OptionSchema) : OptionValues :=
  ⟨schema.decls.map fun _ decl => decl.default⟩

/-- The advice that lists the options of a schema. -/
def available (schema : OptionSchema) : String :=
  let names := Text.join ", " schema.names
  if names = "" then "this package declares no options" else "available options: " ++ names

/-- The value that an override chooses. -/
def choose (schema : OptionSchema) (override : OptionOverride) :
    Except RecipeError OptionValue :=
  match schema.get? override.name with
  | none => .error (.unknownOption override.name (some schema.available))
  | some decl =>
    match decl.valueNamed? override.value with
    | some value => .ok value
    | none => .error (.invalidOptionValue override.name override.value (some decl.allowed))

/-- Values in which one more override is respected. -/
def apply (schema : OptionSchema) (values : OptionValues) (override : OptionOverride) :
    Except RecipeError OptionValues := do
  let value ← schema.choose override
  return ⟨values.values.insert override.name value⟩

/-- The defaults with every override in turn. -/
def resolve (schema : OptionSchema) (overrides : List OptionOverride) :
    Except RecipeError OptionValues :=
  overrides.foldlM schema.apply schema.defaults

end OptionSchema
end PackageBuild
