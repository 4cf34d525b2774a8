import Playhouse.Report
import Playhouse.Script

/-!
# Playhouse.Performance.Basic — the state of a performance

A performance has a script, a stage, a position in the script, a way of input and of output, and the streams that
these work on. Steps of a performance are `PerformanceM`; what the user asks for is `ReportM`, whose faults are
told as reports.
-/

namespace Playhouse

/-- Where the play's input comes from. -/
inductive InputDesk where
  /-- Standard input, line by line; what is left of the present line is held. -/
  | basic (held : List Char)
  /-- Standard input, one line for each question to the user. -/
  | interactive
  /-- The reader, character by character; one character may be held. -/
  | reader (held : Option Char)
  deriving DecidableEq, Repr

/-- How the play's output is shown. -/
inductive OutputStyle where
  | basic
  | verbose
  | debug
  deriving DecidableEq, Repr

/-- What a play puts out, however it is shown. -/
inductive Utterance where
  | number (n : Int)
  | character (code : Int)
  deriving DecidableEq, Repr

/-- The streams: what is still to be read, and what was printed. -/
structure Streams where
  stdin : List Char
  reader : Option (List Char)
  out : String
  err : String
  deriving DecidableEq, Repr

/-- A performance of a play. -/
structure Performance where
  script : Script
  stage : Stage
  position : Int
  desk : InputDesk
  style : OutputStyle
  streams : Streams
  /-- What the play has put out, latest first. -/
  uttered : List Utterance
  deriving DecidableEq, Repr

/-- A step of a performance. What was changed before a fault stays changed. -/
abbrev PerformanceM := EStateM Fault Performance

/-- What the user asks of a performance. -/
abbrev ReportM := EStateM Report Performance

/-- The way of input of a name. The reader has to be given. -/
def InputDesk.ofName (name : String) (reader : Option (List Char)) : Except Breakdown InputDesk :=
  match name with
  | "basic" => .ok (.basic [])
  | "interactive" => .ok .interactive
  | "reader" => if reader.isSome then .ok (.reader none) else .error .missingReader
  | _ => .error .unknownInputStyle

/-- The name of a way of input. -/
def InputDesk.name : InputDesk → String
  | basic _ => "basic"
  | interactive => "interactive"
  | reader _ => "reader"

/-- The style of output of a name. -/
def OutputStyle.ofName : String → Except Breakdown OutputStyle
  | "basic" => .ok .basic
  | "verbose" => .ok .verbose
  | "debug" => .ok .debug
  | _ => .error .unknownOutputStyle

/-- The name of a style of output. -/
def OutputStyle.name : OutputStyle → String
  | basic => "basic"
  | verbose => "verbose"
  | debug => "debug"

/-- The style tells what is being done. -/
def OutputStyle.narrates : OutputStyle → Bool
  | basic => false
  | verbose | debug => true

namespace PerformanceM

/-- Stop with an error of the play. -/
def fail {α : Type} (cause : Cause) : PerformanceM α := throw (.error cause none)

/-- Stop with a breakdown. -/
def breakDown {α : Type} (b : Breakdown) : PerformanceM α := throw (.breakdown b)

/-- An outcome that may be a breakdown. -/
def ofBreakdown {α : Type} : Except Breakdown α → PerformanceM α
  | .ok a => pure a
  | .error b => breakDown b

/-- Look at the stage. -/
def look {α : Type} (f : Stage → Except Fault α) : PerformanceM α := fun p =>
  match f p.stage with
  | .ok a => .ok a p
  | .error e => .error e p

/-- Do something on the stage. -/
def onStage {α : Type} (m : StageM α) : PerformanceM α := fun p =>
  match m p.stage with
  | .ok a s => .ok a { p with stage := s }
  | .error e s => .error e { p with stage := s }

/-- An error without a place is placed at `span`. -/
def locating {α : Type} (span : Span) (m : PerformanceM α) : PerformanceM α := fun p =>
  match m p with
  | .ok a p => .ok a p
  | .error e p => .error (e.locate span) p

/-- Print on standard output. -/
def print (text : String) : PerformanceM Unit :=
  modify fun p => { p with streams := { p.streams with out := p.streams.out ++ text } }

/-- Print a line on standard output. -/
def printLine (text : String) : PerformanceM Unit := print (text ++ "\n")

/-- Say what is being done, if the style tells it. -/
def narrate (text : String) : PerformanceM Unit := do
  if (← get).style.narrates then printLine text

end PerformanceM

namespace ReportM

/-- Stop with a breakdown. -/
def breakDown {α : Type} (b : Breakdown) : ReportM α := throw (.breakdown b)

/-- Carry out a step. Its errors are told with the stage and with their place in `source`; `fallback` is the place
of errors without one. -/
def reporting {α : Type} (source : List Char) (fallback : Option Span) (m : PerformanceM α) : ReportM α := fun p =>
  match m p with
  | .ok a p => .ok a p
  | .error (.breakdown b) p => .error (.breakdown b) p
  | .error (.error cause span) p =>
    .error (.error cause ((span <|> fallback).map (source, ·)) (some p.stage)) p

end ReportM

end Playhouse
