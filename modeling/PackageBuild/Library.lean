import PackageBuild.Text.DecimalDigit
import PackageBuild.Text.Split
/-!
# Names of libraries

The file of a library ends in one of a few suffixes; that of a shared library may be followed by
version numbers. A linker knows the library by what comes before the suffix, without a leading
`lib`.
-/

namespace PackageBuild
namespace Library

def plainSuffixes : List (List Char) :=
  [['.', 'a'], ['.', 'l', 'i', 'b'], ['.', 'd', 'y', 'l', 'i', 'b'], ['.', 'd', 'l', 'l']]

/-- Whether some characters are version numbers, each after a dot. -/
def isVersions (cs : List Char) : Bool :=
  match Text.piecesChars '.' cs with
  | first :: numbers =>
    first.isEmpty && numbers.all fun number => !number.isEmpty && number.all Text.isDecimalDigit
  | [] => false

/-- Whether some characters are the suffix of a library file. -/
def isSuffix (cs : List Char) : Bool :=
  match cs with
  | '.' :: 's' :: 'o' :: versions => isVersions versions
  | _ => plainSuffixes.contains cs

/-- What comes before the suffix of a library file. -/
def stem? : List Char → Option (List Char)
  | [] => none
  | c :: cs => if isSuffix (c :: cs) then some [] else (c :: ·) <$> stem? cs

/-- A name without a leading `lib`, unless nothing else is left. -/
def withoutLib (stem : List Char) : List Char :=
  match stem with
  | 'l' :: 'i' :: 'b' :: c :: rest => c :: rest
  | _ => stem

/-- The name under which a file is linked, when it is a library. -/
def linkName? (file : String) : Option String := do
  let stem ← stem? file.toList
  if stem.isEmpty || stem.contains '\n' then none
  else return String.ofList (withoutLib stem)

end Library
end PackageBuild
