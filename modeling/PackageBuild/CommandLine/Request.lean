import PackageBuild.CommandLine.Given
import PackageBuild.Text.Split
/-!
# Requests

The words of a command line are read from left to right. A word with two dashes names an argument
by its long name, a word with one dash holds short names, two dashes alone end the named arguments,
and any other word is the value that the last argument waits for, or a subcommand, or a positional
argument. An argument written without its value takes the next word; it counts as given only when
the following argument, or the end, shows that it is complete.
-/

namespace PackageBuild
namespace CommandLine

/-- What the words of a command line ask for. -/
inductive Request where
  | help (subcommand : Option Subcommand)
  | version
  | run (subcommand : Subcommand) (given : Given)
deriving Repr

/-- Why reading stops before the last word. -/
inductive Interruption where
  /-- The words are wrong. -/
  | wrong (error : UsageError)
  /-- The words before this one suffice. -/
  | settled (request : Request)
deriving Repr

/-- How far reading has come. -/
structure Reading where
  /-- The arguments that are complete. -/
  given : Given := {}
  /-- The last argument while it is not known to be complete, with its value if that is there. -/
  pending : Option (Argument × Option String) := none
deriving Repr

namespace Reading

/-- Whether the next word is taken as a value. -/
def waiting : Reading → Option Argument
  | ⟨_, some (a, none)⟩ => some a
  | _ => none

/-- Take the last argument as complete. -/
def settle (r : Reading) : Except UsageError Given :=
  match r.pending with
  | none => .ok r.given
  | some (a, none) => .error (.missingValue a)
  | some (a, some value) => r.given.addValue a value

/-- Take a flag; help and version stop reading. -/
def takeFlag (subcommand : Option Subcommand) (a : Argument) (r : Reading) :
    Except Interruption Reading := do
  let given ← r.settle.mapError .wrong
  match a with
  | .help => .error (.settled (.help subcommand))
  | .version => .error (.settled .version)
  | _ => return { given := ← (given.addFlag a).mapError .wrong }

/-- Take an argument with the value that is attached to its name, or wait for the next word. -/
def takeNamed (a : Argument) (attached : Option String) (r : Reading) :
    Except Interruption Reading := do
  let given ← r.settle.mapError .wrong
  match attached with
  | none => return { given, pending := some (a, none) }
  | some value => return { given := ← (given.addValue a value).mapError .wrong }

/-- Take a long name, with the value after an equals sign. -/
def takeLong (subcommand : Option Subcommand) (body : String) (r : Reading) :
    Except Interruption Reading :=
  let (name, attached) := match Text.cut '=' body with
    | some (name, value) => (name, some value)
    | none => (body, none)
  match Argument.ofLong? subcommand name with
  | none => .error (.wrong (.unexpectedArgument ("--" ++ name)))
  | some a =>
    if a.takesValue then r.takeNamed a attached
    else
      match attached with
      | some value => .error (.wrong (.unexpectedValue a value))
      | none => r.takeFlag subcommand a

/-- The value that is attached to a short name: the rest of the word, after an equals sign if there
is one. -/
def attachedValue : List Char → Option String
  | [] => none
  | '=' :: rest => some (String.ofList rest)
  | rest => some (String.ofList rest)

/-- Take the short names of a word. -/
def takeShort (subcommand : Option Subcommand) : List Char → Reading → Except Interruption Reading
  | [], r => .ok r
  | c :: rest, r =>
    match Argument.ofShort? subcommand c with
    | none => .error (.wrong (.unexpectedArgument (String.ofList ['-', c])))
    | some a =>
      if a.takesValue then r.takeNamed a (attachedValue rest)
      else do takeShort subcommand rest (← r.takeFlag subcommand a)

end Reading

inductive Word where
  /-- Two dashes alone: no names follow. -/
  | endOfNames
  /-- A long name, perhaps with a value. -/
  | long (body : String)
  /-- Short names, perhaps with a value. -/
  | short (names : List Char)
  /-- Anything else. -/
  | plain
deriving DecidableEq, Repr

namespace Word

def ofText (text : String) : Word :=
  match text.toList with
  | ['-', '-'] => .endOfNames
  | '-' :: '-' :: body => .long (String.ofList body)
  | ['-'] => .plain
  | '-' :: names => .short names
  | _ => .plain

end Word

namespace Reading

/-- Take a word in the place of a positional argument. -/
def takePositional (subcommand : Subcommand) (word : String) (r : Reading) :
    Except Interruption Reading :=
  let isFree := r.given.shell.isNone && !(r.pending.any fun pending => pending.1 = .shell)
  if (Argument.available subcommand).contains .shell && isFree then do
    return { given := ← r.settle.mapError .wrong, pending := some (.shell, some word) }
  else .error (.wrong (.unexpectedArgument word))

/-- Read the words after a subcommand; `named` says whether names may still follow. -/
def readWords (subcommand : Subcommand) (named : Bool) :
    List String → Reading → Except Interruption Reading
  | [], r => .ok r
  | word :: rest, r =>
    if named then
      match Word.ofText word with
      | .endOfNames => readWords subcommand false rest r
      | .long body => do readWords subcommand true rest (← r.takeLong (some subcommand) body)
      | .short names => do readWords subcommand true rest (← r.takeShort (some subcommand) names)
      | .plain =>
        match r.waiting with
        | some a => readWords subcommand true rest { r with pending := some (a, some word) }
        | none => do readWords subcommand true rest (← r.takePositional subcommand word)
    else do readWords subcommand false rest (← r.takePositional subcommand word)

end Reading

/-- The request for help on what some words name. -/
def helpFor (subcommand : Option Subcommand) : List String → Except UsageError Request
  | [] => .ok (.help subcommand)
  | word :: rest =>
    match subcommand, Subcommand.ofWord? word with
    | none, some named => helpFor (some named) rest
    | none, none => if word = "help" ∧ rest = [] then .ok (.help none)
      else .error (.unrecognizedSubcommand word)
    | some _, _ => .error (.unrecognizedSubcommand word)

/-- What is given for a subcommand by the words after it. -/
def readSubcommand (subcommand : Subcommand) (words : List String) : Except Interruption Given := do
  let r ← Reading.readWords subcommand true words {}
  let given ← r.settle.mapError .wrong
  if subcommand = .completions ∧ given.shell = none then
    .error (.wrong (.missingArgument .shell))
  return given

/-- Read the words up to a subcommand, and those after it. -/
def readProgram (named : Bool) : List String → Reading → Except Interruption Request
  | [], r => do
    let given ← r.settle.mapError .wrong
    .error (.wrong (if given.isNothing then .nothingAsked else .missingSubcommand))
  | word :: rest, r =>
    let isSubcommand := (Subcommand.ofWord? word).isSome || word = "help"
    if !named then
      .error (.wrong (if isSubcommand then .unexpectedArgument word
        else .unrecognizedSubcommand word))
    else
      match r.waiting, Subcommand.ofWord? word with
      | none, some subcommand => do
        let given ← readSubcommand subcommand rest
        let outer ← r.settle.mapError .wrong
        return .run subcommand (given.after outer)
      | waiting, _ =>
        match Word.ofText word with
        | .endOfNames => readProgram false rest r
        | .long body => do readProgram true rest (← r.takeLong none body)
        | .short names => do readProgram true rest (← r.takeShort none names)
        | .plain =>
          match waiting with
          | some a => readProgram true rest { r with pending := some (a, some word) }
          | none =>
            if word = "help" then
              match helpFor none rest with
              | .ok request => .error (.settled request)
              | .error error => .error (.wrong error)
            else .error (.wrong (.unrecognizedSubcommand word))

/-- What the words of a command line ask for. -/
def Request.parse (words : List String) : Except UsageError Request :=
  match readProgram true words {} with
  | .ok request => .ok request
  | .error (.settled request) => .ok request
  | .error (.wrong error) => .error error

end CommandLine
end PackageBuild
