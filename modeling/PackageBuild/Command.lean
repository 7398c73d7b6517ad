import PackageBuild.Path
/-!
# Commands

A command is a program with its arguments and, possibly, the directory it runs in.
-/

namespace PackageBuild

/-- One run of an external tool. -/
structure Command where
  program : Path
  args : List String := []
  /-- The directory it runs in; none leaves it where it is. -/
  directory : Option Path := none
deriving DecidableEq, Repr

namespace Command

def display (c : Command) : String :=
  c.program.text ++ String.join (c.args.map fun arg => " " ++ arg)

/-- A command with further arguments. -/
def withArgs (args : List String) (c : Command) : Command := { c with args := c.args ++ args }

def inDirectory (directory : Path) (c : Command) : Command :=
  { c with directory := some directory }

@[simp]
theorem withArgs_withArgs (c : Command) (a b : List String) :
    (c.withArgs a).withArgs b = c.withArgs (a ++ b) := by
  simp [withArgs]

end Command
end PackageBuild
