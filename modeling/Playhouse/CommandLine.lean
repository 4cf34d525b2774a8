import Playhouse.CommandLine.Help
import Playhouse.Session

/-!
# Playhouse.CommandLine — the program as it is called

`run` performs the play in a file, `debug` does so with consoles at its breakpoints, `console` opens a console;
that is also what happens without a command. Errors in a play are told, and the program still succeeds.
-/

namespace Playhouse.CommandLine

/-- What the program finds: the files by their names, and standard input. -/
structure Surroundings where
  file? : String → Option (List Char)
  stdin : List Char

/-- The outcome of an error of usage. -/
def misused (c : Command) (e : UsageError) : Outcome := ⟨"", e.text c, .exit (some 2)⟩

/-- How the program ends after a session: errors of plays are told on standard error, and so is the end of the
input in the middle of a question to the user. -/
def settle (o : Outcome) : Outcome :=
  match o.ending with
  | .returned => ⟨o.out, o.err, .exit (some 0)⟩
  | .exit status => ⟨o.out, o.err, .exit status⟩
  | .failed (.breakdown .endOfInput) => ⟨o.out, o.err ++ "\nAborted!\n", .exit (some 1)⟩
  | .failed (.breakdown b) => ⟨o.out, o.err, .failed (.breakdown b)⟩
  | .failed r =>
    match r.text with
    | .ok text => ⟨o.out, o.err ++ text ++ "\n", .exit (some 0)⟩
    | .error b => ⟨o.out, o.err, .failed (.breakdown b)⟩

/-- The cast of a console when none is named. -/
def usualCast : String := "Romeo,Juliet"

/-- A console with the cast of the arguments. -/
def consoleWith (s : Surroundings) (a : Arguments) : Outcome :=
  settle (Session.console (Text.splitOnChar ',' (a.option "--characters" usualCast).toList) s.stdin)

/-- A session with the play in a file. -/
def withFile (s : Surroundings) (c : Command) (a : Arguments) (session : List Char → Outcome) : Outcome :=
  match a.others with
  | [] => misused c .missingFile
  | [name] =>
    match s.file? name with
    | some text => settle (session (Source.lineFeeds text))
    | none => ⟨"", "", .failed (.breakdown (.fileNotFound name))⟩
  | _ :: extra => misused c (.extraArguments extra)

/-- The outcome of a call for help. -/
def helped (c : Command) : Outcome := ⟨c.page, "", .exit (some 0)⟩

/-- Carry out a command. -/
def perform (fuel : Nat) (s : Surroundings) (a : Arguments) : Command → Outcome
  | .run =>
    withFile s .run a fun text =>
      Session.run fuel text (a.option "--input-style" "basic") (a.option "--output-style" "basic") s.stdin
  | .debug =>
    withFile s .debug a fun text =>
      Session.debug fuel text (a.option "--input-style" "interactive") (a.option "--output-style" "verbose")
        s.stdin
  | .console => if a.others.isEmpty then consoleWith s a else misused .console (.extraArguments a.others)
  | .program => consoleWith s a

/-- The outcome of calling the program with the given arguments. Plays are performed for at most `fuel` rounds. -/
def outcome (fuel : Nat) (s : Surroundings) (args : List String) : Outcome :=
  match parseArguments .program ⟨[], []⟩ args with
  | .error e => misused .program e
  | .ok a =>
    if a.wantHelp then helped .program
    else
      match a.others with
      | [] => perform fuel s a .program
      | name :: rest =>
        match Command.ofName? name with
        | none => misused .program (.noSuchCommand name)
        | some c =>
          match parseArguments c ⟨[], []⟩ rest with
          | .error e => misused c e
          | .ok a => if a.wantHelp then helped c else perform fuel s a c

end Playhouse.CommandLine
