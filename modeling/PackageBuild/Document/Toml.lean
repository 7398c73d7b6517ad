import PackageBuild.Document.Toml.Scalar
import PackageBuild.Document.Toml.Tables
/-!
# Reading TOML

A document is a sequence of lines: blank ones, comments, headers, and keys with values. Each line
becomes a statement and the statements are assembled into one table. A text that breaks a rule of
the format anywhere has no value at all.
-/

namespace PackageBuild
namespace Document
namespace Toml

/-- Lists and tables may be nested this deep inside a value, and a key may have this many parts. -/
def depthLimit : Nat := 79

/-- The input after blanks of the same line. -/
def skipBlanks (cs : List Char) : List Char := cs.dropWhile isLineBlank

/-- The input after blanks, line breaks and comments; a flag tells whether it starts in a
comment. -/
def skipLines (comment : Bool) : List Char → Option (List Char)
  | [] => some []
  | '\r' :: rest => if rest.head? = some '\n' then skipLines comment rest else none
  | '\n' :: rest => skipLines false rest
  | c :: rest =>
    if comment then if isTextChar c then skipLines true rest else none
    else if isLineBlank c then skipLines false rest
    else if c = '#' then skipLines true rest
    else some (c :: rest)

/-- The input after the end of the line, which may hold a comment. -/
def skipEnd (comment : Bool) : List Char → Option (List Char)
  | [] => some []
  | '\r' :: rest => if rest.head? = some '\n' then skipEnd comment rest else none
  | '\n' :: rest => some rest
  | c :: rest =>
    if comment then if isTextChar c then skipEnd true rest else none
    else if isLineBlank c then skipEnd false rest
    else if c = '#' then skipEnd true rest
    else none

/-- Whether a character may stand in a key without quotes. -/
def isKeyChar (c : Char) : Bool := c.isAlphanum || c == '_' || c == '-'

def readKeyPart (cs : List Char) : Option (String × List Char) :=
  match cs with
  | '"' :: rest => (readBasic rest).map fun (text, rest) => (String.ofList text, rest)
  | '\'' :: rest => (readLiteral rest).map fun (text, rest) => (String.ofList text, rest)
  | _ =>
    let part := cs.takeWhile isKeyChar
    if part.isEmpty then none else some (String.ofList part, cs.dropWhile isKeyChar)

/-- The parts of a key with dots between them, at most as many as the first argument. -/
def readKey : Nat → List Char → Option (List String × String × List Char)
  | 0, _ => none
  | fuel + 1, cs => do
    let (part, rest) ← readKeyPart (skipBlanks cs)
    match skipBlanks rest with
    | '.' :: rest =>
      let (path, key, rest) ← readKey fuel rest
      return (part :: path, key, rest)
    | rest => return ([], part, rest)

/-- The items of a list up to its closing bracket, each read by `one`. -/
def readItems (one : List Char → Option (Value × List Char)) :
    Nat → List Char → Option (List Value × List Char)
  | 0, _ => none
  | fuel + 1, cs => do
    match ← skipLines false cs with
    | ']' :: rest => return ([], rest)
    | cs =>
      let (item, rest) ← one cs
      match ← skipLines false rest with
      | ']' :: rest => return ([item], rest)
      | ',' :: rest =>
        let (items, rest) ← readItems one fuel rest
        return (item :: items, rest)
      | _ => none

/-- A key with its value, which is read by `one`. -/
def readPair (one : List Char → Option (Value × List Char)) (cs : List Char) :
    Option ((List String × String × Value) × List Char) := do
  let (path, key, rest) ← readKey depthLimit cs
  match rest with
  | '=' :: rest =>
    let (value, rest) ← one (skipBlanks rest)
    return ((path, key, value), rest)
  | _ => none

/-- The pairs between braces up to the closing one, of which there is at least one. -/
def readPairs (one : List Char → Option (Value × List Char)) :
    Nat → List Char → Option (List (List String × String × Value) × List Char)
  | 0, _ => none
  | fuel + 1, cs => do
    let (pair, rest) ← readPair one cs
    match skipBlanks rest with
    | '\x7d' :: rest => return ([pair], rest)
    | ',' :: rest =>
      let (pairs, rest) ← readPairs one fuel rest
      return (pair :: pairs, rest)
    | _ => none

/-- A text in quotes or an unquoted scalar. -/
def readScalar (cs : List Char) : Option (Value × List Char) :=
  match cs with
  | '"' :: _ | '\'' :: _ =>
    (readQuoted cs).map fun (text, rest) => (.text (String.ofList text), rest)
  | _ => readBare cs

/-- One value at the head of the input; the first argument bounds how deep it may be nested. -/
def readValue : Nat → List Char → Option (Value × List Char)
  | depth + 1, '[' :: rest => do
    let (items, rest) ← readItems (readValue depth) (rest.length + 1) rest
    return (.list items, rest)
  | depth + 1, '\x7b' :: rest =>
    match skipBlanks rest with
    | '\x7d' :: rest => some (.table [], rest)
    | rest => do
      let (pairs, rest) ← readPairs (readValue depth) (rest.length + 1) rest
      let table ← Table.ofPairs? pairs .empty
      return (.table (Node.entryValues table.entries), rest)
  | _, cs => readScalar cs

/-- One line that is not blank and no comment, without its end. -/
def readStatement (cs : List Char) : Option (Statement × List Char) :=
  match cs with
  | '[' :: '[' :: rest => do
    let (path, key, rest) ← readKey depthLimit rest
    match rest with
    | ']' :: ']' :: rest => return (.row path key, rest)
    | _ => none
  | '[' :: rest => do
    let (path, key, rest) ← readKey depthLimit rest
    match rest with
    | ']' :: rest => return (.header path key, rest)
    | _ => none
  | _ => do
    let ((path, key, value), rest) ← readPair (readValue depthLimit) cs
    return (.pair path key value, rest)

/-- All statements of the input; the first argument bounds their number. -/
def readStatements : Nat → List Char → Option (List Statement)
  | 0, _ => none
  | fuel + 1, cs => do
    match ← skipLines false cs with
    | [] => return []
    | cs =>
      let (statement, rest) ← readStatement cs
      let statements ← readStatements fuel (← skipEnd false rest)
      return statement :: statements

end Toml

/-- The table a TOML text stands for; a byte order mark at its start is ignored. -/
def readToml? (text : String) : Option Value := do
  let cs := match text.toList with
    | '\uFEFF' :: rest => rest
    | cs => cs
  Toml.document? (← Toml.readStatements (cs.length + 1) cs)

end Document
end PackageBuild
