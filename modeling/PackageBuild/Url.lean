import PackageBuild.Text.Blank
import PackageBuild.Text.Split
import PackageBuild.Text.Digit
/-!
# Texts that the program takes for addresses

Which texts are addresses is not for this library to say: everything in it takes the test as an
argument. The program that is run has no URL library at hand and passes the test below. A URL has a
scheme; the schemes of the web need a host, other schemes may have one after two slashes. Hosts are
names, dotted numbers or bracketed addresses, and the number after the colon has to fit 16 bits.
What follows is never refused. Of the rules for international names the test knows those for
encoded labels and for characters that names are read without, but not the tables.
-/

namespace PackageBuild
namespace Url

open Text (hexValue? isHexDigit natOfDigits)

/-- Whether a character may follow the first letter of a scheme. -/
def isSchemeChar (c : Char) : Bool := c.isAlphanum || c == '+' || c == '-' || c == '.'

/-- The text without control characters and blanks at its ends and without line breaks and tabs
inside. -/
def cleaned (cs : List Char) : List Char :=
  let inner := ((cs.dropWhile (·.toNat ≤ 0x20)).reverse.dropWhile (·.toNat ≤ 0x20)).reverse
  inner.filter fun c => c != '\t' && c != '\n' && c != '\r'

/-- The scheme of a URL in lower case, and what follows the colon. -/
def scheme? (cs : List Char) : Option (String × List Char) :=
  match cs, cs.dropWhile isSchemeChar with
  | first :: _, ':' :: rest =>
    if first.isAlpha then some (String.ofList ((cs.takeWhile isSchemeChar).map Char.toLower), rest)
    else none
  | _, _ => none

/-- The schemes that need a host, other than that of files. -/
def webSchemes : List String := ["http", "https", "ws", "wss", "ftp"]

/-- The bytes of a text in which a percent sign with two hexadecimal digits stands for a byte. -/
def percentDecoded : List Char → List UInt8
  | [] => []
  | '%' :: a :: b :: rest =>
    match hexValue? a, hexValue? b with
    | some high, some low => UInt8.ofNat (high * 16 + low) :: percentDecoded rest
    | _, _ => 0x25 :: percentDecoded (a :: b :: rest)
  | c :: rest => (String.singleton c).toUTF8.toList ++ percentDecoded rest

/-- The value of one number of a dotted address: decimal, octal after `0` or hexadecimal after
`0x`. -/
def addressNumber? (cs : List Char) : Option Nat :=
  let inBase (base : Nat) (digits : List Char) : Option Nat :=
    digits.foldlM (fun n c => do
      let d ← hexValue? c
      if d < base then some (n * base + d) else none) 0
  match cs with
  | [] => none
  | '0' :: 'x' :: rest | '0' :: 'X' :: rest => inBase 16 rest
  | '0' :: d :: rest => inBase 8 (d :: rest)
  | _ => inBase 10 cs

/-- The labels of a host name, without the empty one after a final dot. -/
def labels (host : List Char) : List (List Char) :=
  let all := Text.piecesChars '.' host
  if all.length > 1 ∧ all.getLast? = some [] then all.dropLast else all

/-- Whether the last label of a host name is a number, so that the host must be an address. -/
def endsInNumber (host : List Char) : Bool :=
  match (labels host).getLast? with
  | none => false
  | some last => !last.isEmpty && (last.all Char.isDigit || (addressNumber? last).isSome)

/-- Whether a host name is a dotted address of at most four numbers. -/
def isDottedAddress (host : List Char) : Bool :=
  let parts := labels host
  parts.length ≤ 4 &&
    match parts.mapM addressNumber? with
    | none => false
    | some numbers =>
      numbers.dropLast.all (· ≤ 255) &&
        numbers.getLast?.any (· < Nat.pow 256 (5 - numbers.length))

/-- Whether a text is one part of a bracketed address: one to four hexadecimal digits. -/
def isAddressPart (cs : List Char) : Bool :=
  1 ≤ cs.length && cs.length ≤ 4 && cs.all isHexDigit

/-- Whether a text is four decimal numbers below 256 with dots between them. -/
def isEmbeddedAddress (cs : List Char) : Bool :=
  let parts := Text.piecesChars '.' cs
  parts.length == 4 && parts.all fun part =>
    !part.isEmpty && part.all Char.isDigit && part.length ≤ 3 &&
      (part.length == 1 || part.head? != some '0') &&
      (addressNumber? part).any (· ≤ 255)

/-- How many 16-bit parts a list of texts between colons stands for, when each is one; the last may
be a dotted address, which counts twice. -/
def partCount? (parts : List (List Char)) (mayEndDotted : Bool) : Option Nat :=
  match parts with
  | [] => some 0
  | [last] =>
    if isAddressPart last then some 1
    else if mayEndDotted && isEmbeddedAddress last then some 2 else none
  | part :: rest => if isAddressPart part then (· + 1) <$> partCount? rest mayEndDotted else none

/-- The parts before and after the first two colons in a row. -/
def cutDouble : List Char → Option (List Char × List Char)
  | ':' :: ':' :: rest => some ([], rest)
  | c :: rest => (cutDouble rest).map fun (before, after) => (c :: before, after)
  | [] => none

/-- The texts between the colons of a text; an empty text has none. -/
def colonParts (cs : List Char) : List (List Char) :=
  if cs.isEmpty then [] else Text.piecesChars ':' cs

/-- Whether a text is an address as it stands between brackets: eight parts between colons, of
which two colons in a row may stand for one or more zeros. -/
def isBracketedAddress (cs : List Char) : Bool :=
  match cutDouble cs with
  | none => partCount? (colonParts cs) true == some 8
  | some (before, after) =>
    match partCount? (colonParts before) false, partCount? (colonParts after) true with
    | some a, some b => a + b ≤ 7
    | _, _ => false

/-- The characters that no host name of the web may have. -/
def isForbidden (c : Char) : Bool :=
  c.toNat ≤ 0x20 || c.toNat == 0x7F || "%#/:<>?@[\\]^|".toList.contains c ||
    (0x7F < c.toNat && Text.isBlank c)

/-- Whether host names are read without a character. -/
def isIgnored (c : Char) : Bool :=
  [0xAD, 0x34F, 0x180B, 0x180C, 0x180D, 0x180F, 0x200B, 0x2060, 0x2064, 0xFEFF].contains c.toNat ||
    (0xFE00 ≤ c.toNat && c.toNat ≤ 0xFE0F)

/-- What is known while the inserted characters of an encoded label are read. -/
structure Insertions where
  /-- How many characters the label has so far. -/
  length : Nat
  /-- The latest inserted character. -/
  latest : Nat := 128
  /-- Where the next one goes. -/
  position : Nat := 0
  /-- How large the digits of a number may be before it ends. -/
  bias : Nat := 72
  /-- The number that is being read, its weight for the next digit and the digits so far. -/
  number : Nat := 0
  weight : Nat := 1
  digits : Nat := 0

/-- The bias that belongs to a scaled number. -/
def settledBias : Nat → Nat → Nat
  | 0, _ => 0
  | fuel + 1, scaled =>
    if scaled > 455 then 36 + settledBias fuel (scaled / 35) else 36 * scaled / (scaled + 38)

/-- The bias after a number. -/
def adaptedBias (number length : Nat) (first : Bool) : Nat :=
  let scaled := if first then number / 700 else number / 2
  settledBias (scaled + 1) (scaled + scaled / length)

/-- The value of a digit of an encoded label. -/
def labelDigit? (c : Char) : Option Nat :=
  if c.isDigit then some (c.toNat - '0'.toNat + 26)
  else if c.isAlpha then some (c.toLower.toNat - 'a'.toNat) else none

/-- Whether the rest of an encoded label inserts characters, the last one completely. -/
def insertsCharacters (s : Insertions) : List Char → Bool
  | [] => s.digits == 0 && s.position > 0
  | c :: rest =>
    match labelDigit? c with
    | none => false
    | some d =>
      let number := s.number + d * s.weight
      let threshold := min 26 (max 1 (36 * (s.digits + 1) - s.bias))
      if d < threshold then
        let length := s.length + 1
        let latest := s.latest + (s.position + number) / length
        latest ≤ 0x10FFFF && !(0xD800 ≤ latest && latest ≤ 0xDFFF) &&
          insertsCharacters {
            length, latest
            position := (s.position + number) % length + 1
            bias := adaptedBias number length (s.position == 0) } rest
      else
        insertsCharacters { s with
          number, weight := s.weight * (36 - threshold), digits := s.digits + 1 } rest

/-- Whether a label of a host name is no encoded one, or one that stands for a text that needs
encoding. -/
def isLabel (label : List Char) : Bool :=
  match label with
  | 'x' :: 'n' :: '-' :: '-' :: encoded =>
    let tail := (encoded.reverse.takeWhile (· != '-')).reverse
    insertsCharacters { length := encoded.length - tail.length - 1 } tail
  | _ => true

/-- Whether a text between brackets, a dotted number or a name is a host of the web. -/
def isWebHost (host : List Char) : Bool :=
  match host with
  | '[' :: rest => rest.getLast? == some ']' && isBracketedAddress rest.dropLast
  | _ =>
    match String.fromUTF8? ⟨(percentDecoded host).toArray⟩ with
    | none => false
    | some name =>
      let cs := name.toList.filter (!isIgnored ·)
      !cs.isEmpty && !cs.any isForbidden && (!endsInNumber cs || isDottedAddress cs) &&
        (labels (cs.map Char.toLower)).all isLabel

/-- Whether a text is a host of a scheme that the web does not know. -/
def isOtherHost (host : List Char) : Bool :=
  match host with
  | '[' :: rest => rest.getLast? == some ']' && isBracketedAddress rest.dropLast
  | _ => !host.any fun c => c == '\x00' || " #/:<>?@[\\]^|".toList.contains c

/-- Whether a character ends the authority of a URL. -/
def endsAuthority (web : Bool) (c : Char) : Bool :=
  c == '/' || c == '?' || c == '#' || (web && c == '\\')

/-- The host at the head of an authority, up to a colon outside of brackets. -/
def hostLength (brackets : Bool) : List Char → Nat
  | [] => 0
  | c :: rest =>
    if c = ':' ∧ ¬ brackets then 0
    else 1 + hostLength (if c = '[' then true else if c = ']' then false else brackets) rest

/-- Whether digits are a number of 16 bits, if there are any. -/
def fits16Bits (cs : List Char) : Bool :=
  cs.all Char.isDigit && natOfDigits cs < 65536

/-- The part of an authority after its last at sign, when there is one. -/
def afterUser (authority : List Char) : Option (List Char) :=
  if authority.contains '@' then
    some (authority.reverse.takeWhile (· != '@')).reverse
  else none

/-- Whether the part of a URL after two slashes has an acceptable user, host and number. -/
def hasAuthority (web : Bool) (cs : List Char) : Bool :=
  let authority := cs.takeWhile fun c => !endsAuthority web c
  let more := cs.dropWhile fun c => !endsAuthority web c
  let place := (afterUser authority).getD authority
  let user := authority.take (authority.length - place.length)
  let host := place.take (hostLength false place)
  let number := place.drop (hostLength false place)
  let number := if web then number else number.takeWhile (· != '\\')
  if host.isEmpty then !web && number.isEmpty && (user.isEmpty || (user == ['@'] && more.isEmpty))
  else (if web then isWebHost host else isOtherHost host) && fits16Bits (number.drop 1)

/-- Whether the part of a file URL after its scheme has an acceptable host. -/
def hasFileHost (cs : List Char) : Bool :=
  match cs with
  | a :: b :: rest =>
    if (a == '/' || a == '\\') && (b == '/' || b == '\\') then
      let host := rest.takeWhile fun c => !endsAuthority true c
      match host with
      | [] => true
      | [letter, mark] => (letter.isAlpha && (mark == ':' || mark == '|')) || isWebHost host
      | host => isWebHost host
    else true
  | _ => true

/-- Whether the program takes a text for an address. -/
def isValid (text : String) : Bool :=
  match scheme? (cleaned text.toList) with
  | none => false
  | some (scheme, rest) =>
    if scheme = "file" then hasFileHost rest
    else if scheme ∈ webSchemes then
      hasAuthority true (rest.dropWhile fun c => c == '/' || c == '\\')
    else match rest with
      | '/' :: '/' :: rest => hasAuthority false rest
      | _ => true

end Url
end PackageBuild
