import Playhouse.CommandLine.Arguments
import Playhouse.Text.Replace

/-!
# Playhouse.CommandLine.Help — pages of help

A page has the usage of a command, what it is for and its options; that of the program lists the commands too.
Words fill lines of a fixed width, and names stand in a column of their own.
-/

namespace Playhouse.CommandLine

/-- What a command is for, in paragraphs. -/
def Command.purpose : Command → List String
  | program =>
    ["Run or debug Shakespeare Programming Language plays, or start a console.",
      "shakespeare alone without a subcommand starts a console."]
  | run => ["Execute the Shakespeare Programming Language play located at filepath FILE."]
  | debug =>
    ["Execute the Shakespeare Programming Language play located at filepath FILE, pausing at breakpoints."]
  | console => ["Run a Shakespeare Programming Language console."]

/-- Fill lines of at most `width` characters with words. The first line has been begun. -/
def fillFrom (width : Nat) : String → List String → List String
  | line, [] => [line]
  | line, w :: ws =>
    if line.length + 1 + w.length ≤ width then fillFrom width (line ++ " " ++ w) ws
    else line :: fillFrom width w ws

/-- A text in lines of at most `width` characters. -/
def fill (width : Nat) (text : String) : List String :=
  match (Text.splitOnChar ' ' text.toList).map String.ofList with
  | [] => []
  | w :: ws => fillFrom width w ws

/-- The width of a page. -/
def pageWidth : Nat := 78

/-- Names in a column, and the texts beside them. -/
def columns (entries : List (String × String)) : List String :=
  let indent := 2 + (entries.map fun x => x.1.length).foldl max 0 + 2
  entries.flatMap fun (name, text) =>
    let head := "  " ++ name
    match fill (pageWidth - indent) text with
    | [] => [head]
    | line :: lines => (head.pushn ' ' (indent - head.length) ++ line) :: lines.map ("".pushn ' ' indent ++ ·)

/-- The beginning of a text, if it is longer than `limit`. -/
def shortened (limit : Nat) (text : String) : String :=
  if text.length ≤ limit then text else ((fill (limit - 3) text).headD "") ++ "..."

/-- The page of a command. -/
def Command.page (c : Command) : String :=
  let purpose := c.purpose.flatMap fun text => "" :: (fill (pageWidth - 2) text).map ("  " ++ ·)
  let options := c.explanations.map (fun (name, text) => (name ++ " TEXT", text)) ++
    [(helpOption, "Show this message and exit.")]
  -- a command takes one line, which leaves room for the longest name and for the blanks around it
  let listed := commands.map fun (name, c) => (name, shortened (pageWidth - 13) (c.purpose.headD ""))
  let others := if c = .program then "" :: "Commands:" :: columns listed else []
  String.join ((("Usage: " ++ c.usage) :: purpose ++ "" :: "Options:" :: columns options ++ others).map
    (· ++ "\n"))

end Playhouse.CommandLine
