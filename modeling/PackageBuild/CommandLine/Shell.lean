import PackageBuild.CommandLine.Argument
/-!
# Shells

The shells that command lines can be completed for, and the scripts that make them offer the
subcommands of the program.
-/

namespace PackageBuild
namespace CommandLine

inductive Shell where
  | bash
  | elvish
  | fish
  | powershell
  | zsh
deriving DecidableEq, Repr

namespace Shell

def all : List Shell := [.bash, .elvish, .fish, .powershell, .zsh]

def word : Shell → String
  | .bash => "bash"
  | .elvish => "elvish"
  | .fish => "fish"
  | .powershell => "powershell"
  | .zsh => "zsh"

def ofWord? (text : String) : Option Shell := all.find? fun shell => shell.word = text

@[simp]
theorem ofWord?_word (shell : Shell) : ofWord? shell.word = some shell := by
  cases shell <;> rfl

/-- The words to offer in the place of a subcommand. -/
def offered : String := " ".intercalate (Subcommand.all.map Subcommand.word ++ ["help"])

/-- The script that makes a shell offer the subcommands. -/
def script : Shell → String
  | .bash => "complete -W \"" ++ offered ++ "\" " ++ programName
  | .elvish =>
    "set edit:completion:arg-completer[" ++ programName ++ "] = \x7b|@words| put " ++ offered ++
      " \x7d"
  | .fish => "complete -c " ++ programName ++ " -f -a \"" ++ offered ++ "\""
  | .powershell =>
    "Register-ArgumentCompleter -Native -CommandName " ++ programName ++
      " -ScriptBlock \x7b param($word) \"" ++ offered ++
      "\" -split ' ' | Where-Object \x7b $_ -like \"$word*\" \x7d \x7d"
  | .zsh => "compctl -k \"(" ++ offered ++ ")\" " ++ programName

end Shell
end CommandLine
end PackageBuild
