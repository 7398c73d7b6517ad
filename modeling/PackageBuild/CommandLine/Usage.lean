import PackageBuild.CommandLine.Argument
/-!
# Help texts

The help text of the program lists its subcommands, that of a subcommand is about its arguments.
Both are laid out from the tables of names and summaries.
-/

namespace PackageBuild
namespace CommandLine

namespace Usage

def about : String := "A package-build orchestrator for CMake-based C/C++ libraries"

/-- A name and what it stands for, the latter in a column that begins after so many characters. -/
def row (width : Nat) (entry : String × String) : String :=
  "  " ++ entry.1 ++ String.ofList (List.replicate (width - entry.1.length) ' ') ++ "  " ++ entry.2

def section_ (heading : String) (entries : List (String × String)) : List String :=
  let width := (entries.map fun entry => entry.1.length).foldl max 0
  if entries.isEmpty then [] else "" :: (heading ++ ":") :: entries.map (row width)

def names (a : Argument) : String :=
  match a.short? with
  | some c => String.ofList ['-', c] ++ ", " ++ a.display
  | none => if a.long?.isSome then "    " ++ a.display else a.display

def pattern (subcommand : Option Subcommand) : String :=
  match subcommand with
  | none => "Usage: " ++ programName ++ " [OPTIONS] <COMMAND>"
  | some subcommand =>
    "Usage: " ++ programName ++ " " ++ subcommand.word ++ " [OPTIONS]" ++
      (if (Argument.available subcommand).contains .shell then " " ++ Argument.shell.display
        else "")

def lines (subcommand : Option Subcommand) : List String :=
  let available := Argument.available subcommand
  let entry (a : Argument) := (names a, a.summary subcommand)
  let commands := match subcommand with
    | none => Subcommand.all.map (fun s => (s.word, s.summary)) ++
        [("help", "Print this message or the help of the given subcommand(s)")]
    | some _ => []
  [(subcommand.map Subcommand.summary).getD about, "", pattern subcommand] ++
    section_ "Commands" commands ++
    section_ "Arguments" ((available.filter fun a => a.long?.isNone).map entry) ++
    section_ "Options" ((available.filter fun a => a.long?.isSome).map entry)

end Usage
end CommandLine
end PackageBuild
