import PackageBuild.OutputMode
import PackageBuild.Warning
/-!
# Notices

What a command has to say while it runs is a sequence of notices. How a notice is written, and to
which stream, depends on the output mode: beside a document on the standard output everything else
goes to the error stream, and status lines are left out.
-/

namespace PackageBuild

inductive Status where
  | building
  | finished
  | packaging
  | packaged
  /-- A step is left out. -/
  | skipped
  /-- A finding about the result. -/
  | warning
deriving DecidableEq, Repr

namespace Status

def verb : Status → String
  | .building => "Building"
  | .finished => "Finished"
  | .packaging => "Packaging"
  | .packaged => "Packaged"
  | .skipped => "Skipped"
  | .warning => "Warning"

/-- How many characters the verbs take. -/
def width : Nat := 12

/-- The verb at the right end of its column. -/
def column (status : Status) : String :=
  String.ofList (List.replicate (width - status.verb.length) ' ') ++ status.verb

end Status

inductive Stream where
  | output
  | errors
deriving DecidableEq, Repr

/-- Something told while an action goes on. -/
inductive Notice where
  /-- A step begins. -/
  | info (message : String)
  /-- A finding that stops nothing. -/
  | warning (finding : Warning)
  /-- A line a tool wrote to its standard output. -/
  | output (line : String)
  /-- How far a command has come. -/
  | status (verb : Status) (message : String)
  /-- A part of the result of a command. -/
  | result (text : String)
deriving DecidableEq, Repr

namespace Notice

/-- What is written for a notice, and where. -/
def line? (mode : OutputMode) : Notice → Option (Stream × String)
  | .info message => some (.errors, " INFO " ++ message)
  | .warning finding => some (.errors, " WARN " ++ finding.message)
  | .output line => some (if mode.isJson then .errors else .output, line)
  | .status verb message =>
    if mode.isJson then none else some (.errors, verb.column ++ " " ++ message)
  | .result text => some (.output, text)

end Notice
end PackageBuild
