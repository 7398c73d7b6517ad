import PackageBuild.Document.Value
import PackageBuild.Text.Digit
/-!
# Scalars of TOML

Texts in their four quotations, integers in four bases, floating point numbers, and dates and
times. Every reader returns what it read together with the input after it, and `none` where the
format allows no scalar.
-/

namespace PackageBuild
namespace Document
namespace Toml

open Text (hex4? isHexDigit natInBase natOfDigits)

def isLineBlank (c : Char) : Bool := c == ' ' || c == '\t'

/-- Characters that may stand in comments and quotations: all but controls other than the tab. -/
def isTextChar (c : Char) : Bool := c == '\t' || (0x20 ≤ c.toNat && c.toNat != 0x7F)

/-- The character with a code point, unless the code point is a surrogate or too large. -/
def scalarChar? (n : Nat) : Option Char :=
  if h : n.isValidChar then some (Char.ofNatAux n h) else none

/-- The character an escape of one letter stands for. -/
def shortEscape? : Char → Option Char
  | '"' => some '"'
  | '\\' => some '\\'
  | 'b' => some '\x08'
  | 'f' => some '\x0c'
  | 'n' => some '\n'
  | 'r' => some '\r'
  | 't' => some '\t'
  | _ => none

/-- A character in front of what was read after it. -/
def prepend (c : Char) (read : Option (List Char × List Char)) :
    Option (List Char × List Char) :=
  read.map fun (text, rest) => (c :: text, rest)

/-- A text in double quotes, after the opening quote. -/
def readBasic : List Char → Option (List Char × List Char)
  | [] => none
  | '"' :: rest => some ([], rest)
  | '\\' :: 'u' :: a :: b :: c :: d :: rest => do
    let n ← hex4? a b c d
    prepend (← scalarChar? n) (readBasic rest)
  | '\\' :: 'U' :: a :: b :: c :: d :: e :: f :: g :: h :: rest => do
    let high ← hex4? a b c d
    let low ← hex4? e f g h
    prepend (← scalarChar? (high * 0x10000 + low)) (readBasic rest)
  | '\\' :: e :: rest => do prepend (← shortEscape? e) (readBasic rest)
  | c :: rest => if isTextChar c then prepend c (readBasic rest) else none

/-- Where a reader of several lines stands with respect to a backslash at the end of a line. -/
inductive Gap where
  /-- No such backslash is pending. -/
  | closed
  /-- After the backslash, before the end of its line. -/
  | sameLine
  /-- After the end of that line, where all blanks are dropped. -/
  | nextLines
deriving DecidableEq

/-- A text over several lines in three double quotes, after the opening quotes. -/
def readBasicLines (gap : Gap) : List Char → Option (List Char × List Char)
  | [] => none
  | '\r' :: rest => if rest.head? = some '\n' then readBasicLines gap rest else none
  | c :: rest =>
    if gap = .sameLine then
      if isLineBlank c then readBasicLines .sameLine rest
      else if c = '\n' then readBasicLines .nextLines rest
      else none
    else if gap = .nextLines ∧ (isLineBlank c ∨ c = '\n') then readBasicLines .nextLines rest
    else if c = '"' then
      match rest with
      | '"' :: '"' :: '"' :: '"' :: after => some (['"', '"'], after)
      | '"' :: '"' :: '"' :: after => some (['"'], after)
      | '"' :: '"' :: after => some ([], after)
      | _ => prepend '"' (readBasicLines .closed rest)
    else if c = '\\' then
      match rest with
      | 'u' :: a :: b :: c :: d :: after => do
        let n ← hex4? a b c d
        prepend (← scalarChar? n) (readBasicLines .closed after)
      | 'U' :: a :: b :: c :: d :: e :: f :: g :: h :: after => do
        let high ← hex4? a b c d
        let low ← hex4? e f g h
        prepend (← scalarChar? (high * 0x10000 + low)) (readBasicLines .closed after)
      | e :: after =>
        if isLineBlank e ∨ e = '\n' ∨ e = '\r' then readBasicLines .sameLine (e :: after)
        else do prepend (← shortEscape? e) (readBasicLines .closed after)
      | [] => none
    else if c = '\n' ∨ isTextChar c then prepend c (readBasicLines .closed rest)
    else none

/-- A text in single quotes, after the opening quote. -/
def readLiteral : List Char → Option (List Char × List Char)
  | [] => none
  | '\'' :: rest => some ([], rest)
  | c :: rest => if isTextChar c then prepend c (readLiteral rest) else none

/-- A text over several lines in three single quotes, after the opening quotes. -/
def readLiteralLines : List Char → Option (List Char × List Char)
  | [] => none
  | '\r' :: rest => if rest.head? = some '\n' then readLiteralLines rest else none
  | '\'' :: '\'' :: '\'' :: '\'' :: '\'' :: rest => some (['\'', '\''], rest)
  | '\'' :: '\'' :: '\'' :: '\'' :: rest => some (['\''], rest)
  | '\'' :: '\'' :: '\'' :: rest => some ([], rest)
  | c :: rest => if c = '\n' ∨ isTextChar c then prepend c (readLiteralLines rest) else none

/-- The input after a line break that directly follows three opening quotes. -/
def afterFirstBreak : List Char → List Char
  | '\n' :: rest => rest
  | '\r' :: '\n' :: rest => rest
  | cs => cs

/-- A quoted text of any of the four kinds. -/
def readQuoted : List Char → Option (List Char × List Char)
  | '"' :: '"' :: '"' :: rest => readBasicLines .closed (afterFirstBreak rest)
  | '"' :: rest => readBasic rest
  | '\'' :: '\'' :: '\'' :: rest => readLiteralLines (afterFirstBreak rest)
  | '\'' :: rest => readLiteral rest
  | _ => none

/-- Digits with single underscores between them, without the underscores. -/
def digitGroups? (isDigit : Char → Bool) : List Char → Option (List Char)
  | [] => none
  | [c] => if isDigit c then some [c] else none
  | c :: '_' :: rest => if isDigit c then (digitGroups? isDigit rest).map (c :: ·) else none
  | c :: rest => if isDigit c then (digitGroups? isDigit rest).map (c :: ·) else none

/-- An integer, when it fits 64 bits with sign. -/
def integer? (n : Int) : Option Value :=
  if -9223372036854775808 ≤ n ∧ n ≤ 9223372036854775807 then some (.int n) else none

def signed : List Char → Bool × List Char
  | '+' :: rest => (false, rest)
  | '-' :: rest => (true, rest)
  | cs => (false, cs)

/-- Whether a character belongs to decimal digits with underscores. -/
def isGrouped (c : Char) : Bool := c.isDigit || c == '_'

/-- The exponent of a number: nothing, or a mark with an integer that fills the input. -/
def exponent? : List Char → Option (Option Int)
  | [] => some none
  | 'e' :: rest | 'E' :: rest => do
    let (negative, digits) := signed rest
    let n : Int := natOfDigits (← digitGroups? Char.isDigit digits)
    return some (if negative then -n else n)
  | _ => none

/-- A number in base ten that fills the input. -/
def decimal? (cs : List Char) : Option Value := do
  let (negative, cs) := signed cs
  let whole ← digitGroups? Char.isDigit (cs.takeWhile isGrouped)
  if whole.length > 1 ∧ whole.head? = some '0' then none
  else
    let float (digits : List Char) (power : Int) : Option Value :=
      match Binary64.ofDecimal negative (natOfDigits digits) power with
      | .infinite false => none
      | x => some (.float x)
    match cs.dropWhile isGrouped with
    | [] =>
      let n : Int := natOfDigits whole
      integer? (if negative then -n else n)
    | '.' :: rest =>
      let fraction ← digitGroups? Char.isDigit (rest.takeWhile isGrouped)
      let power ← exponent? (rest.dropWhile isGrouped)
      float (whole ++ fraction) (power.getD 0 - fraction.length)
    | rest =>
      let power ← exponent? rest
      float whole (power.getD 0)

/-- The number two digits stand for. -/
def twoDigits? (a b : Char) : Option Nat :=
  if a.isDigit ∧ b.isDigit then some (natOfDigits [a, b]) else none

def daysInMonth (year month : Nat) : Nat :=
  if month = 2 then
    if year % 4 = 0 ∧ (year % 100 ≠ 0 ∨ year % 400 = 0) then 29 else 28
  else if month = 4 ∨ month = 6 ∨ month = 9 ∨ month = 11 then 30
  else 31

/-- The input after a calendar date. -/
def afterDate? : List Char → Option (List Char)
  | y₁ :: y₂ :: y₃ :: y₄ :: '-' :: m₁ :: m₂ :: '-' :: d₁ :: d₂ :: rest => do
    let year := (← twoDigits? y₁ y₂) * 100 + (← twoDigits? y₃ y₄)
    let month ← twoDigits? m₁ m₂
    let day ← twoDigits? d₁ d₂
    if 1 ≤ month ∧ month ≤ 12 ∧ 1 ≤ day ∧ day ≤ daysInMonth year month then return rest else none
  | _ => none

def afterTime? : List Char → Option (List Char)
  | h₁ :: h₂ :: ':' :: m₁ :: m₂ :: ':' :: s₁ :: s₂ :: rest => do
    let hour ← twoDigits? h₁ h₂
    let minute ← twoDigits? m₁ m₂
    let second ← twoDigits? s₁ s₂
    if hour ≤ 23 ∧ minute ≤ 59 ∧ second ≤ 60 then
      match rest with
      | '.' :: digits =>
        if (digits.takeWhile Char.isDigit).isEmpty then none
        else return digits.dropWhile Char.isDigit
      | _ => return rest
    else none
  | _ => none

/-- Whether the input is nothing or exactly one distance from universal time. -/
def isOffset : List Char → Bool
  | [] => true
  | ['Z'] | ['z'] => true
  | [sign, h₁, h₂, ':', m₁, m₂] =>
    match twoDigits? h₁ h₂, twoDigits? m₁ m₂ with
    | some hour, some minute => (sign == '+' || sign == '-') && hour ≤ 23 && minute ≤ 59
    | _, _ => false
  | _ => false

/-- Whether the input is exactly one date, time, or date with time. -/
def isMoment (cs : List Char) : Bool :=
  match afterDate? cs with
  | some [] => true
  | some (mark :: rest) =>
    (mark == 'T' || mark == 't' || mark == ' ') && (afterTime? rest).any isOffset
  | none => (afterTime? cs).any List.isEmpty

/-- The value of an unquoted scalar that fills the input. -/
def bare? (cs : List Char) : Option Value :=
  match cs with
  | ['t', 'r', 'u', 'e'] => some (.bool true)
  | ['f', 'a', 'l', 's', 'e'] => some (.bool false)
  | '0' :: 'x' :: digits =>
    digitGroups? isHexDigit digits >>= fun ds => integer? (natInBase 16 ds)
  | '0' :: 'o' :: digits =>
    digitGroups? (fun c => '0' ≤ c ∧ c ≤ '7') digits >>= fun ds => integer? (natInBase 8 ds)
  | '0' :: 'b' :: digits =>
    digitGroups? (fun c => c == '0' || c == '1') digits >>= fun ds => integer? (natInBase 2 ds)
  | _ =>
    let (negative, magnitude) := signed cs
    if magnitude = ['i', 'n', 'f'] then some (.float (.infinite negative))
    else if magnitude = ['n', 'a', 'n'] then some (.float .nan)
    else if isMoment cs then some (.moment (String.ofList cs))
    else decimal? cs

/-- Whether a character may be part of an unquoted scalar. -/
def isBareChar (c : Char) : Bool :=
  c.isAlphanum || c == '+' || c == '-' || c == '_' || c == '.' || c == ':'

/-- An unquoted scalar; between a date and a time a single space belongs to it. -/
def readBare (cs : List Char) : Option (Value × List Char) :=
  let token := cs.takeWhile isBareChar
  let rest := cs.dropWhile isBareChar
  match afterDate? token, rest with
  | some [], ' ' :: c :: more =>
    if c.isDigit then
      (bare? (token ++ ' ' :: (c :: more).takeWhile isBareChar)).map
        (·, (c :: more).dropWhile isBareChar)
    else (bare? token).map (·, rest)
  | _, _ => (bare? token).map (·, rest)

end Toml
end Document
end PackageBuild
