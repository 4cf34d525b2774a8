import Playhouse.Text.Quoted
import Playhouse.Text.Similarity

/-!
# Playhouse.CommandLine.Arguments — commands, their options, and errors of usage

Every option of a command but the one for help takes a value, after a blank or an equals sign. Options may stand
among the other arguments of a command, but only before the name of a command.
-/

namespace Playhouse.CommandLine

/-- The program and its commands. -/
inductive Command where
  | program
  | run
  | debug
  | console
  deriving DecidableEq, Repr

/-- How a command is called. -/
def Command.path : Command → String
  | program => "shakespeare"
  | run => "shakespeare run"
  | debug => "shakespeare debug"
  | console => "shakespeare console"

/-- The usage of a command. -/
def Command.usage : Command → String
  | program => "shakespeare [OPTIONS] COMMAND [ARGS]..."
  | run => "shakespeare run [OPTIONS] FILE"
  | debug => "shakespeare debug [OPTIONS] FILE"
  | console => "shakespeare console [OPTIONS]"

/-- The options of a command and what they are for. -/
def Command.explanations : Command → List (String × String)
  | program | console =>
    [("--characters", "Characters to make available to the console, separated by commas. " ++
        "Default is Romeo and Juliet.")]
  | run =>
    [("--input-style", "Input style to use. 'basic' is the default and best for piped input. " ++
        "'interactive' is nicer when getting input from a human."),
      ("--output-style", "Output style to use. 'basic' is the default and outputs exactly what the SPL play " ++
        "generated. 'verbose' prefixes output and shows visible representations of whitespace characters. " ++
        "'debug' is like 'verbose' but with debug output from the interpreter.")]
  | debug =>
    [("--input-style", "Input style to use. 'interactive' is the default and nicer when getting input from a " ++
        "human. 'basic' is best for piped input."),
      ("--output-style", "Output style to use. 'verbose' is the default, prefixes output, and shows visible " ++
        "representations of whitespace characters. 'basic' outputs exactly what the SPL play generated. " ++
        "'debug' is like 'verbose' but with debug output from the interpreter.")]

/-- The options of a command. -/
def Command.options (c : Command) : List String := c.explanations.map Prod.fst

/-- The commands of the program by their names, in the order of the alphabet. -/
def commands : List (String × Command) := [("console", .console), ("debug", .debug), ("run", .run)]

/-- The command of a name. -/
def Command.ofName? (name : String) : Option Command := commands.lookup name

/-- Arguments that make no sense. -/
inductive UsageError where
  | missingFile
  | noSuchCommand (name : String)
  | noSuchOption (name : String) (alike : List String)
  | extraArguments (args : List String)
  | needsValue (option : String)
  | takesNoValue (option : String)
  deriving DecidableEq, Repr

/-- What is proposed in place of an unknown option. -/
def proposal : List String → String
  | [] => ""
  | [option] => " Did you mean " ++ option ++ "?"
  | options => " (Possible options: " ++ ", ".intercalate options ++ ")"

/-- The wording of an error of usage. -/
def UsageError.message : UsageError → String
  | missingFile => "Missing argument 'FILE'."
  | noSuchCommand name => "No such command " ++ Text.quoted name ++ "."
  | noSuchOption name alike => "No such option: " ++ name ++ proposal alike
  | extraArguments [arg] => "Got unexpected extra argument (" ++ arg ++ ")"
  | extraArguments args => "Got unexpected extra arguments (" ++ " ".intercalate args ++ ")"
  | needsValue option => "Option " ++ Text.quoted option ++ " requires an argument."
  | takesNoValue option => "Option " ++ Text.quoted option ++ " does not take a value."

/-- What is printed about an error of usage. -/
def UsageError.text (c : Command) (e : UsageError) : String :=
  match e with
  | needsValue _ | takesNoValue _ => "Error: " ++ e.message ++ "\n"
  | e => "Usage: " ++ c.usage ++ "\nTry '" ++ c.path ++ " --help' for help.\n\nError: " ++ e.message ++ "\n"

/-- The option that asks for help. It takes no value. -/
def helpOption : String := "--help"

/-- Arguments taken apart: the options, latest first, and the other arguments in order. -/
structure Arguments where
  options : List (String × String)
  others : List String
  deriving DecidableEq, Repr

/-- The value of an option. -/
def Arguments.option (a : Arguments) (name default : String) : String := (a.options.lookup name).getD default

/-- Help was asked for. -/
def Arguments.wantHelp (a : Arguments) : Bool := (a.options.lookup helpOption).isSome

/-- An argument before and after its first equals sign. -/
def splitEquals (arg : String) : String × Option String :=
  let cs := arg.toList
  if cs.contains '=' then
    (String.ofList (cs.takeWhile (· ≠ '=')), some (String.ofList ((cs.dropWhile (· ≠ '=')).drop 1)))
  else (arg, none)

/-- The error of an unknown option. Short options are one letter. -/
def unknownOption (c : Command) (arg : String) : UsageError :=
  match arg.toList with
  | '-' :: '-' :: _ =>
    let name := (splitEquals arg).1
    .noSuchOption name ((c.options ++ [helpOption]).filter (Text.areAlike · name) |>.mergeSort)
  | cs => .noSuchOption (String.ofList (cs.take 2)) []

/-- The argument is an option. -/
def isOption (arg : String) : Bool :=
  match arg.toList with
  | '-' :: _ :: _ => true
  | _ => false

/-- Take arguments apart. The program itself stops at the first argument that is no option: there a command
begins. -/
def parseArguments (c : Command) (a : Arguments) : List String → Except UsageError Arguments
  | [] => .ok a
  | "--" :: rest => .ok { a with others := a.others ++ rest }
  | arg :: rest =>
    if isOption arg then
      let (name, value) := splitEquals arg
      if name ∈ c.options then
        match value, rest with
        | some v, rest => parseArguments c { a with options := (name, v) :: a.options } rest
        | none, [] => .error (.needsValue name)
        | none, v :: rest => parseArguments c { a with options := (name, v) :: a.options } rest
      else if name = helpOption then
        match value with
        | some _ => .error (.takesNoValue name)
        | none => parseArguments c { a with options := (name, "") :: a.options } rest
      else .error (unknownOption c arg)
    else if c = .program then .ok { a with others := a.others ++ arg :: rest }
    else parseArguments c { a with others := a.others ++ [arg] } rest

end Playhouse.CommandLine
