import PackageBuild.Failure
/-!
# File name patterns

A pattern is matched against a whole file name. A star stands for any characters, a question mark
for one, and brackets for one character of a class, which an exclamation mark turns around. Two
stars in a row must be a component of their own and stand for any directories.
-/

namespace PackageBuild

/-- The characters a class lists: single ones and ranges. -/
inductive CharRange where
  | single (c : Char)
  /-- All characters from one to another. -/
  | range (first last : Char)
deriving DecidableEq, Repr

namespace CharRange

def contains (c : Char) : CharRange → Bool
  | .single d => c == d
  | .range first last => first.toNat ≤ c.toNat && c.toNat ≤ last.toNat

end CharRange

inductive GlobToken where
  | char (c : Char)
  | anyChar
  | anySequence
  /-- Any number of whole components. -/
  | anyComponents
  /-- One character that a class lists, or does not list. -/
  | oneOf (listed : Bool) (ranges : List CharRange)
deriving DecidableEq, Repr

/-- A pattern for file names. -/
structure Glob where
  tokens : List GlobToken
deriving DecidableEq, Repr

namespace Glob

def classRanges : List Char → List CharRange
  | a :: '-' :: b :: rest => .range a b :: classRanges rest
  | c :: rest => .single c :: classRanges rest
  | [] => []

/-- The inside of a class and what follows its closing bracket, which is not the first character of
the class. -/
def cutClass : List Char → Option (List Char × List Char)
  | [] => none
  | c :: rest =>
    let inside := rest.takeWhile (· != ']')
    match rest.dropWhile (· != ']') with
    | [] => none
    | _ :: after => some (c :: inside, after)

/-- The class that an opening bracket starts, and what follows it. -/
def readClass (cs : List Char) : Option (GlobToken × List Char) :=
  let (positive, cs) := match cs with
    | '!' :: rest => (false, rest)
    | _ => (true, cs)
  (cutClass cs).map fun (inside, after) => (.oneOf positive (classRanges inside), after)

/-- The elements of a pattern from a position on; `previous` is the character before it. -/
def readTokens (fuel : Nat) (position : Nat) (previous : Option Char) (cs : List Char) :
    Except PatternError (List GlobToken) :=
  match fuel with
  | 0 => .ok []
  | fuel + 1 =>
    match cs with
    | [] => .ok []
    | '?' :: rest => do
      return .anyChar :: (← readTokens fuel (position + 1) (some '?') rest)
    | '*' :: rest => do
      let stars := 1 + (rest.takeWhile (· == '*')).length
      let after := rest.dropWhile (· == '*')
      if stars = 1 then
        return .anySequence :: (← readTokens fuel (position + 1) (some '*') rest)
      else if 2 < stars then
        throw ⟨position + 2, "wildcards are either regular `*` or recursive `**`"⟩
      else if previous = none ∨ previous = some '/' then
        match after with
        | [] => return [.anyComponents]
        | '/' :: more =>
          return .anyComponents :: (← readTokens fuel (position + 3) (some '/') more)
        | _ => throw ⟨position + 2, "recursive wildcards must form a single path component"⟩
      else throw ⟨position - 1, "recursive wildcards must form a single path component"⟩
    | '[' :: rest =>
      match readClass rest with
      | none => .error ⟨position, "invalid range pattern"⟩
      | some (token, after) => do
        let taken := 1 + (rest.length - after.length)
        return token :: (← readTokens fuel (position + taken) (some ']') after)
    | c :: rest => do return .char c :: (← readTokens fuel (position + 1) (some c) rest)

def parse (text : String) : Except PatternError Glob :=
  let cs := text.toList
  (readTokens cs.length 0 none cs).map Glob.mk

/-- Whether one of the tails of a list satisfies a test, the list itself included. -/
def anyTail (test : List Char → Bool) : List Char → Bool
  | [] => test []
  | c :: rest => test (c :: rest) || anyTail test rest

/-- Whether one of the tails of a list that follow a slash satisfies a test, or the empty tail. -/
def anyTailAfterSlash (test : List Char → Bool) : List Char → Bool
  | [] => test []
  | c :: rest => (c == '/' && test rest) || anyTailAfterSlash test rest

/-- Whether elements match all of some characters. -/
def matchesTokens : List GlobToken → List Char → Bool
  | [], cs => cs.isEmpty
  | .anySequence :: tokens, cs => anyTail (matchesTokens tokens) cs
  | .anyComponents :: tokens, cs =>
    matchesTokens tokens cs || anyTailAfterSlash (matchesTokens tokens) cs
  | .char c :: tokens, d :: cs => c == d && matchesTokens tokens cs
  | .anyChar :: tokens, _ :: cs => matchesTokens tokens cs
  | .oneOf listed ranges :: tokens, d :: cs =>
    (ranges.any (·.contains d) == listed) && matchesTokens tokens cs
  | _ :: _, [] => false

/-- Whether a pattern matches a whole file name. -/
def isMatch (name : String) (g : Glob) : Bool := matchesTokens g.tokens name.toList

end Glob
end PackageBuild
