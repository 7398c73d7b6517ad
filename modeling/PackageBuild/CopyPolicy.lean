/-!
# Copy policies

A policy says what becomes of packaging when a directory to copy from is missing.
-/

namespace PackageBuild

/-- What to do when a source directory is missing. -/
inductive CopyPolicy where
  /-- Nothing is copied from it. -/
  | lenient
  /-- Packaging fails. -/
  | strict
deriving DecidableEq, Repr

namespace CopyPolicy

def display : CopyPolicy → String
  | .lenient => "lenient"
  | .strict => "strict"

def all : List CopyPolicy := [.lenient, .strict]

/-- The policy with exactly this name. -/
def ofName? (name : String) : Option CopyPolicy := all.find? fun policy => policy.display = name

def parse (name : String) : Except String CopyPolicy :=
  match ofName? name with
  | some policy => .ok policy
  | none => .error ("invalid copy policy '" ++ name ++ "'; expected 'lenient' or 'strict'")

end CopyPolicy
end PackageBuild
