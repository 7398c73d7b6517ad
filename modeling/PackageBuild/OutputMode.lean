/-!
# Output modes

A command tells its result either to a person, in lines, or to a program, as one JSON document. A
person may ask for more of what happens on the way; a program never sees status lines.
-/

namespace PackageBuild

/-- Whom a command writes for. -/
inductive OutputMode where
  /-- A person reads along, possibly in detail. -/
  | human (verbose : Bool)
  /-- A program reads the standard output. -/
  | json
deriving DecidableEq, Repr

namespace OutputMode

/-- The mode that two flags ask for; the document wins. -/
def ofFlags (verbose json : Bool) : OutputMode := if json then .json else .human verbose

def isVerbose (mode : OutputMode) : Bool := mode = .human true

def isJson (mode : OutputMode) : Bool := mode = .json

@[simp]
theorem isJson_ofFlags (verbose json : Bool) : (ofFlags verbose json).isJson = json := by
  cases json <;> rfl

@[simp]
theorem isVerbose_ofFlags (verbose json : Bool) :
    (ofFlags verbose json).isVerbose = (verbose && !json) := by
  cases verbose <;> cases json <;> rfl

end OutputMode
end PackageBuild
