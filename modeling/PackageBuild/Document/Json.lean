import PackageBuild.Document.Value
/-!
# Documents written as JSON

`Value.pretty` writes a document over several lines with two blanks of indentation, `Value.compact`
on one line. Both escape a text in the same way: quotes, backslashes and control characters only.
-/

namespace PackageBuild
namespace Document

/-- A hexadecimal digit in lower case. -/
def hexDigit (n : Nat) : Char := Nat.digitChar (n % 16)

/-- How one character is written inside a JSON text. -/
def escapedChar (c : Char) : List Char :=
  match c with
  | '"' => ['\\', '"']
  | '\\' => ['\\', '\\']
  | '\x08' => ['\\', 'b']
  | '\x0c' => ['\\', 'f']
  | '\n' => ['\\', 'n']
  | '\r' => ['\\', 'r']
  | '\t' => ['\\', 't']
  | _ =>
    if c.toNat < 0x20 then ['\\', 'u', '0', '0', hexDigit (c.toNat / 16), hexDigit c.toNat]
    else [c]

/-- A text between double quotes with its escapes. -/
def jsonText (text : String) : List Char :=
  '"' :: text.toList.flatMap escapedChar ++ ['"']

namespace Value

/-- A scalar in JSON, or `none` for a list or a table. -/
def scalar? : Value → Option (List Char)
  | .null => some "null".toList
  | .bool value => some (if value then "true".toList else "false".toList)
  | .int value => some (toString value).toList
  | .float value => some value.display.toList
  | .text value => some (jsonText value)
  | .moment value => some (jsonText value)
  | .list _ => none
  | .table _ => none

mutual
/-- The value on one line, without blanks. -/
def compactChars : Value → List Char
  | .list items => '[' :: compactItems items
  | .table entries => '\x7b' :: compactEntries entries
  | value => value.scalar?.getD []

/-- The items of a list up to its closing bracket. -/
def compactItems : List Value → List Char
  | [] => [']']
  | [item] => compactChars item ++ [']']
  | item :: rest => compactChars item ++ ',' :: compactItems rest

/-- The entries of a table up to its closing brace. -/
def compactEntries : List (String × Value) → List Char
  | [] => ['\x7d']
  | [(key, value)] => jsonText key ++ ':' :: compactChars value ++ ['\x7d']
  | (key, value) :: rest => jsonText key ++ ':' :: compactChars value ++ ',' :: compactEntries rest
end

/-- A line break followed by two blanks for each level. -/
def lineBreak (level : Nat) : List Char := '\n' :: List.replicate (2 * level) ' '

mutual
/-- The value over several lines, its own first line without indentation. -/
def prettyChars (level : Nat) : Value → List Char
  | .list [] => ['[', ']']
  | .list items => '[' :: prettyItems level items
  | .table [] => ['\x7b', '\x7d']
  | .table entries => '\x7b' :: prettyEntries level entries
  | value => value.scalar?.getD []

/-- The items of a list, one to a line, up to its closing bracket. -/
def prettyItems (level : Nat) : List Value → List Char
  | [] => []
  | [item] => lineBreak (level + 1) ++ prettyChars (level + 1) item ++ lineBreak level ++ [']']
  | item :: rest =>
    lineBreak (level + 1) ++ prettyChars (level + 1) item ++ ',' :: prettyItems level rest

/-- The entries of a table, one to a line, up to its closing brace. -/
def prettyEntries (level : Nat) : List (String × Value) → List Char
  | [] => []
  | [(key, value)] =>
    lineBreak (level + 1) ++ jsonText key ++ ':' :: ' ' :: prettyChars (level + 1) value ++
      lineBreak level ++ ['\x7d']
  | (key, value) :: rest =>
    lineBreak (level + 1) ++ jsonText key ++ ':' :: ' ' :: prettyChars (level + 1) value ++
      ',' :: prettyEntries level rest
end

def compact (value : Value) : String := String.ofList value.compactChars

def pretty (value : Value) : String := String.ofList (value.prettyChars 0)

end Value
end Document
end PackageBuild
