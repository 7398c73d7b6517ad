import PackageBuild.Failure
/-!
# Reports of failures

A report is what a user sees of a failure: the outermost text as its headline, the texts below it as
context, the code and the advice of the first cause of a known kind, and the command line when a
command failed.
-/

namespace PackageBuild

/-- A failure as it is shown. -/
structure Report where
  message : String
  code : Option String
  /-- The causes below the headline, the outermost first. -/
  context : List String
  suggestions : List String
deriving DecidableEq, Repr

namespace Report

/-- The report of a chain of causes, the outermost first. Its first cause of a known kind gives the
code and the advice, and the command line if it has one. -/
def ofChain (chain : List Cause) : Report :=
  let texts := chain.map Cause.text
  let typed := chain.find? Cause.isTyped
  { message := texts.headD ""
    code := typed.bind Cause.code
    context := texts.drop 1 ++ ((typed.bind Cause.command).map ("command: " ++ ·)).toList
    suggestions := (typed.bind Cause.help).toList }

def ofFailure (failure : Failure) : Report := ofChain failure.chain

/-- A text in one of the terminal's bold colours. -/
def highlighted (colour : String) (text : String) : String :=
  "\x1b[1;" ++ colour ++ "m" ++ text ++ "\x1b[0m"

/-- The lines of a report, each with its line break. -/
def render (colour : Bool) (report : Report) : String :=
  let label := if colour then highlighted "31" "error" else "error"
  let help := if colour then highlighted "32" "help" else "help"
  let headline := match report.code with
    | some code => label ++ "[" ++ code ++ "]: " ++ report.message ++ "\n"
    | none => label ++ ": " ++ report.message ++ "\n"
  headline ++ String.join (report.context.map fun text => "  caused by: " ++ text ++ "\n") ++
    String.join (report.suggestions.map fun text => help ++ ": " ++ text ++ "\n")

end Report
end PackageBuild
