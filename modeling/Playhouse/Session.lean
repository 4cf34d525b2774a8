import Playhouse.Console

/-!
# Playhouse.Session — whole runs of the program

A session starts from what the user gave and ends with all that was printed. It returns, or the user or a fault
ended it.
-/

namespace Playhouse

/-- How a session ended. -/
inductive Ending where
  | returned
  /-- The program was left, with a status or without one. -/
  | exit (status : Option Nat)
  | failed (r : Report)
  deriving DecidableEq, Repr

/-- What a session has printed, and how it ended. -/
structure Outcome where
  out : String
  err : String
  ending : Ending
  deriving DecidableEq, Repr

namespace Session

/-- Streams with nothing printed yet. -/
def streams (stdin : List Char) (reader : Option (List Char)) : Streams := ⟨stdin, reader, "", ""⟩

/-- The outcome of what was asked of a performance. -/
def outcome {α : Type} : EStateM.Result Report Performance α → Outcome
  | .ok _ p => ⟨p.streams.out, p.streams.err, .returned⟩
  | .error (.breakdown .quit) p => ⟨p.streams.out, p.streams.err, .exit none⟩
  | .error r p => ⟨p.streams.out, p.streams.err, .failed r⟩

/-- Open a performance and ask something of it. -/
def perform {α : Type} (source : List Char) (inputName outputName : String) (s : Streams) (m : ReportM α) :
    Outcome :=
  match Performance.ofText source inputName outputName s with
  | .ok p => outcome (m p)
  | .error r => ⟨s.out, s.err, .failed r⟩

/-- The console with a cast of its own. The play is shown, the cast enters, and the user begins. -/
def console (names : List (List Char)) (stdin : List Char) : Outcome :=
  let play := Console.playFor names
  perform play "basic" "basic" ⟨stdin, none, String.ofList play ++ "\n", ""⟩ do
    ReportM.stepForward
    ReportM.console

/-- Perform a play. -/
def run (fuel : Nat) (source : List Char) (inputName outputName : String) (stdin : List Char) : Outcome :=
  perform source inputName outputName (streams stdin none) (ReportM.run (pure ()) fuel)

/-- Perform a play with a console at each breakpoint. -/
def debug (fuel : Nat) (source : List Char) (inputName outputName : String) (stdin : List Char) : Outcome :=
  perform source inputName outputName (streams stdin none) (ReportM.run ReportM.pause fuel)

end Session

end Playhouse
