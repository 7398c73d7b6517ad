import PackageBuild.CommandLine.Argument
/-!
# Errors of the command line

Before anything runs, the words of the command line have to make up a request. What can be wrong
with them, and the line that says so.
-/

namespace PackageBuild
namespace CommandLine

/-- What is wrong with a command line. -/
inductive UsageError where
  /-- There are no words at all. -/
  | nothingAsked
  | missingSubcommand
  /-- A word stands in the place of a subcommand and is none. -/
  | unrecognizedSubcommand (word : String)
  | unexpectedArgument (word : String)
  | unexpectedValue (argument : Argument) (value : String)
  /-- An argument is not followed by its value, or its value is empty. -/
  | missingValue (argument : Argument)
  /-- A value is not one of those that an argument takes, for a reason if there is more to say. -/
  | invalidValue (argument : Argument) (value : String) (reason : Option String)
  | repeated (argument : Argument)
  | missingArgument (argument : Argument)
deriving DecidableEq, Repr

namespace UsageError

/-- What is said about an error, where a help text is more use than a message nothing. -/
def message? : UsageError → Option String
  | .nothingAsked => none
  | .missingSubcommand =>
    some ("'" ++ programName ++ "' requires a subcommand but one was not provided")
  | .unrecognizedSubcommand word => some ("unrecognized subcommand '" ++ word ++ "'")
  | .unexpectedArgument word => some ("unexpected argument '" ++ word ++ "' found")
  | .unexpectedValue argument value =>
    some ("unexpected value '" ++ value ++ "' for '" ++ argument.display ++
      "' found; no more were expected")
  | .missingValue argument =>
    some ("a value is required for '" ++ argument.display ++ "' but none was supplied")
  | .invalidValue argument value reason =>
    some ("invalid value '" ++ value ++ "' for '" ++ argument.display ++ "'" ++
      (match reason with
        | some reason => ": " ++ reason
        | none => ""))
  | .repeated argument =>
    some ("the argument '" ++ argument.display ++ "' cannot be used multiple times")
  | .missingArgument argument =>
    some ("the following required arguments were not provided:\n  " ++ argument.display)

end UsageError
end CommandLine
end PackageBuild
