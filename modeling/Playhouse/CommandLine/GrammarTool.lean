import Playhouse.CommandLine
import Playhouse.Grammar.Listing

/-!
# Playhouse.CommandLine.GrammarTool — a tool that reads a text by a rule and prints the tree

The arguments are a file and the name of a rule; the options turn the guard of words off, choose what is skipped
between words, or ask for a list of the rules.
-/

namespace Playhouse.CommandLine.GrammarTool

open Grammar

/-- What the arguments ask for. -/
structure Request where
  guardsWords : Bool := true
  skipped : Option (List Char) := none
  lists : Bool := false
  others : List String := []
  deriving DecidableEq, Repr

/-- The long options. -/
def longOptions : List String := ["--list", "--no-nameguard", "--whitespace"]

/-- The long option that a word abbreviates. -/
def longOption? (word : String) : Option String :=
  match longOptions.filter fun o => word.toList.isPrefixOf o.toList with
  | [o] => some o
  | _ => none

/-- Take a group of short options. The rest of a group after `w`, an equals sign apart, is its value; true if the
value is still to come. -/
def shortOptions (r : Request) : List Char → Option (Request × Bool)
  | [] => some (r, false)
  | 'n' :: cs => shortOptions { r with guardsWords := false } cs
  | 'l' :: cs => shortOptions { r with lists := true } cs
  | ['w'] => some (r, true)
  | 'w' :: '=' :: cs => some ({ r with skipped := some cs }, false)
  | 'w' :: cs => some ({ r with skipped := some cs }, false)
  | _ => none

/-- A long option with its value, if it has one in the same argument; true if the value is still to come. -/
def longOption (r : Request) (arg : String) : Option (Request × Bool) :=
  let (word, value) := splitEquals arg
  match longOption? word, value with
  | some "--list", none => some ({ r with lists := true }, false)
  | some "--no-nameguard", none => some ({ r with guardsWords := false }, false)
  | some "--whitespace", some v => some ({ r with skipped := some v.toList }, false)
  | some "--whitespace", none => some (r, true)
  | _, _ => none

/-- Take one option. -/
def takeOption (r : Request) (arg : String) : Option (Request × Bool) :=
  match arg.toList with
  | '-' :: '-' :: _ => longOption r arg
  | _ => shortOptions r (arg.toList.drop 1)

/-- Take arguments apart. None if they make no sense. -/
def parseRequest (r : Request) : List String → Option Request
  | [] => some r
  | "--" :: rest => some { r with others := r.others ++ rest }
  | arg :: rest =>
    if isOption arg then
      match takeOption r arg, rest with
      | some (r, false), rest => parseRequest r rest
      | some (r, true), v :: rest =>
        if isOption v then none else parseRequest { r with skipped := some v.toList } rest
      | _, _ => none
    else parseRequest { r with others := r.others ++ [arg] } rest

/-- How a request divides texts into words. -/
def Request.lexis (r : Request) : Lexis :=
  ⟨match r.skipped with
    | some cs => cs.contains
    | none => Text.isBlank,
   r.guardsWords⟩

/-- The names of all rules. -/
def ruleList : String := "Rules:\n" ++ String.join (Rule.all.map fun r => r.name ++ "\n") ++ "\n"

/-- The file that is read if none is named. -/
def usualFile : String := "-"

/-- The rule that is read if none is named: the forms of *to be*. -/
def usualRule : String := "be"

/-- The text that a name stands for: a hyphen or nothing is standard input. -/
def textOf (s : Surroundings) (name : String) : Except Breakdown (List Char) :=
  if name = "-" ∨ name = "" then .ok s.stdin
  else
    match s.file? name with
    | some text => .ok (Source.lineFeeds text)
    | none => .error (.fileNotFound name)

/-- Read a text by the rule of a name and print its tree. -/
def print (lx : Lexis) (rule : String) (text : List Char) : Outcome :=
  match parseNamed lx rule text with
  | .ok t => ⟨listing text 0 t ++ "\n", "", .returned⟩
  | .error e => ⟨"", "", .failed (.unreadable text e)⟩

/-- The outcome of calling the tool. -/
def outcome (s : Surroundings) (args : List String) : Outcome :=
  match parseRequest {} args with
  | none => ⟨"", "", .exit (some 2)⟩
  | some r =>
    if r.lists then ⟨ruleList, "", .exit (some 0)⟩
    else
      match r.others with
      | _ :: _ :: _ :: _ => ⟨"", "", .exit (some 2)⟩
      | names =>
        match textOf s (names[0]?.getD usualFile) with
        | .error b => ⟨"", "", .failed (.breakdown b)⟩
        | .ok text => print r.lexis (names[1]?.getD usualRule) text

end Playhouse.CommandLine.GrammarTool
