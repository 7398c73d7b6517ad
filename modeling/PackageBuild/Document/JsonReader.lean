import PackageBuild.Document.Value
import PackageBuild.Text.Digit
/-!
# Reading JSON

`readJson?` accepts exactly one JSON value with blanks around it. A number without fraction and
exponent that fits 64 bits is an integer, every other number is rounded to binary floating point.
Lists and tables may be nested as deep as the text is long.
-/

namespace PackageBuild
namespace Document
namespace JsonReader

open Text (hex4? natOfDigits)

/-- The characters JSON allows between its tokens. -/
def isSpace (c : Char) : Bool := c == ' ' || c == '\t' || c == '\n' || c == '\r'

/-- The input after leading blanks. -/
def skip (cs : List Char) : List Char := cs.dropWhile isSpace

/-- The character a one-letter escape stands for. -/
def shortEscape? : Char → Option Char
  | '"' => some '"'
  | '\\' => some '\\'
  | '/' => some '/'
  | 'b' => some '\x08'
  | 'f' => some '\x0c'
  | 'n' => some '\n'
  | 'r' => some '\r'
  | 't' => some '\t'
  | _ => none

/-- The rest of a text after its opening quote, and the input after its closing one. -/
def readText : List Char → Option (List Char × List Char)
  | [] => none
  | '"' :: rest => some ([], rest)
  | '\\' :: 'u' :: a :: b :: c :: d :: '\\' :: 'u' :: e :: f :: g :: h :: rest => do
    let high ← hex4? a b c d
    let low ← hex4? e f g h
    if 0xD800 ≤ high ∧ high < 0xDC00 ∧ 0xDC00 ≤ low ∧ low < 0xE000 then
      let (text, after) ← readText rest
      return (Char.ofNat (0x10000 + (high - 0xD800) * 0x400 + (low - 0xDC00)) :: text, after)
    else
      let (text, after) ← readText ('\\' :: 'u' :: e :: f :: g :: h :: rest)
      if 0xD800 ≤ high ∧ high < 0xE000 then none else return (Char.ofNat high :: text, after)
  | '\\' :: 'u' :: a :: b :: c :: d :: rest => do
    let n ← hex4? a b c d
    let (text, after) ← readText rest
    if 0xD800 ≤ n ∧ n < 0xE000 then none else return (Char.ofNat n :: text, after)
  | '\\' :: e :: rest => do
    let c ← shortEscape? e
    let (text, after) ← readText rest
    return (c :: text, after)
  | c :: rest => do
    if c.toNat < 0x20 then none
    else
      let (text, after) ← readText rest
      return (c :: text, after)

/-- An exponent mark with its sign and digits. -/
def readExponent (cs : List Char) : Option (Option Int × List Char) :=
  match cs with
  | 'e' :: rest | 'E' :: rest =>
    let (negative, rest) : Bool × List Char :=
      match rest with
      | '-' :: rest => (true, rest)
      | '+' :: rest => (false, rest)
      | _ => (false, rest)
    let digits := rest.takeWhile Char.isDigit
    if digits.isEmpty then none
    else
      let n : Int := natOfDigits digits
      some (some (if negative then -n else n), rest.dropWhile Char.isDigit)
  | _ => some (none, cs)

/-- A decimal point with the digits after it. -/
def readFraction (cs : List Char) : Option (Option (List Char) × List Char) :=
  match cs with
  | '.' :: rest =>
    let digits := rest.takeWhile Char.isDigit
    if digits.isEmpty then none else some (some digits, rest.dropWhile Char.isDigit)
  | _ => some (none, cs)

/-- A number at the head of the input. -/
def readNumber (cs : List Char) : Option (Value × List Char) := do
  let (negative, cs) : Bool × List Char :=
    match cs with
    | '-' :: rest => (true, rest)
    | _ => (false, cs)
  let whole := cs.takeWhile Char.isDigit
  if whole.isEmpty then none
  else if whole.length > 1 ∧ whole.head? = some '0' then none
  else
    let (fraction, rest) ← readFraction (cs.dropWhile Char.isDigit)
    let (power, rest) ← readExponent rest
    let n : Int := natOfDigits whole
    let value : Int := if negative then -n else n
    let plain := fraction.isNone && power.isNone && !(negative && n == 0)
    if plain ∧ -9223372036854775808 ≤ value ∧ value ≤ 18446744073709551615 then
      return (.int value, rest)
    else
      let digits := fraction.getD []
      let power := power.getD 0 - digits.length
      return (.float (.ofDecimal negative (natOfDigits (whole ++ digits)) power), rest)

mutual
/-- One value at the head of the input; the first argument bounds the number of steps. -/
def readValue : Nat → List Char → Option (Value × List Char)
  | 0, _ => none
  | fuel + 1, cs =>
    match skip cs with
    | 'n' :: 'u' :: 'l' :: 'l' :: rest => some (.null, rest)
    | 't' :: 'r' :: 'u' :: 'e' :: rest => some (.bool true, rest)
    | 'f' :: 'a' :: 'l' :: 's' :: 'e' :: rest => some (.bool false, rest)
    | '"' :: rest => do
      let (text, rest) ← readText rest
      return (.text (String.ofList text), rest)
    | '[' :: rest =>
      match skip rest with
      | ']' :: rest => some (.list [], rest)
      | rest => do
        let (items, rest) ← readItems fuel rest
        return (.list items, rest)
    | '\x7b' :: rest =>
      match skip rest with
      | '\x7d' :: rest => some (.table [], rest)
      | rest => do
        let (entries, rest) ← readEntries fuel rest
        return (.table entries, rest)
    | cs => readNumber cs

/-- The items of a list that is not empty, up to and with its closing bracket. -/
def readItems : Nat → List Char → Option (List Value × List Char)
  | 0, _ => none
  | fuel + 1, cs => do
    let (item, rest) ← readValue fuel cs
    match skip rest with
    | ']' :: rest => return ([item], rest)
    | ',' :: rest =>
      let (items, rest) ← readItems fuel rest
      return (item :: items, rest)
    | _ => none

/-- The entries of a table that is not empty, up to and with its closing brace. -/
def readEntries : Nat → List Char → Option (List (String × Value) × List Char)
  | 0, _ => none
  | fuel + 1, cs =>
    match skip cs with
    | '"' :: rest => do
      let (key, rest) ← readText rest
      match skip rest with
      | ':' :: rest =>
        let (value, rest) ← readValue fuel rest
        let entry := (String.ofList key, value)
        match skip rest with
        | '\x7d' :: rest => return ([entry], rest)
        | ',' :: rest =>
          let (entries, rest) ← readEntries fuel rest
          return (entry :: entries, rest)
        | _ => none
      | _ => none
    | _ => none
end

end JsonReader

/-- The value a JSON text stands for. -/
def readJson? (text : String) : Option Value := do
  let cs := text.toList
  let (value, rest) ← JsonReader.readValue (2 * cs.length + 2) cs
  if (JsonReader.skip rest).isEmpty then return value else none

end Document
end PackageBuild
