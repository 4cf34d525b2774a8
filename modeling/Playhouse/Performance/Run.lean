import Playhouse.Grammar.Reading
import Playhouse.Performance.Step

/-!
# Playhouse.Performance.Run — what a performance can be asked for

Opening a performance of a text, running it to its end, single steps, and events, sentences and values from outside
of the script.
-/

namespace Playhouse

open Grammar

/-- Read a text as something that trees of a rule describe. -/
def readAs {α : Type} (r : Rule) (ofTree? : Tree → Option α) (text : List Char) : Except Report α :=
  match parse r text with
  | .error e => .error (.unreadable text e)
  | .ok t =>
    match ofTree? t with
    | some a => .ok a
    | none => .error (.breakdown .unknownForm)

/-- A fault while a play is being prepared. There is no stage to be shown yet. -/
def Report.ofPreparation (source : List Char) : Fault → Report
  | .breakdown b => .breakdown b
  | .error cause span => .error cause (span.map (source, ·)) none

namespace Performance

/-- The performance of a play about to begin. -/
def ofPlay (source : List Char) (play : Play) (desk : InputDesk) (style : OutputStyle) (streams : Streams) :
    Except Fault Performance := do
  let script ← Script.ofPlay source play
  let stage ← play.stage
  return ⟨script, stage, 0, desk, style, streams, []⟩

/-- Open a performance of the play in a text. The names of the styles are looked at first. -/
def ofText (source : List Char) (inputName outputName : String) (streams : Streams) :
    Except Report Performance := do
  let desk ← (InputDesk.ofName inputName streams.reader).mapError .breakdown
  let style ← (OutputStyle.ofName outputName).mapError .breakdown
  let play ← readAs .play Play.ofTree? source
  (ofPlay source play desk style streams).mapError (Report.ofPreparation source)

end Performance

namespace ReportM

/-- Carry out a step of the script. -/
def ofScript {α : Type} (m : PerformanceM α) : ReportM α := do
  reporting (← get).script.source none m

/-- Perform the operation at the present position. -/
def stepForward : ReportM Unit := ofScript PerformanceM.step

/-- The play has come to its end. -/
def playOver : ReportM Bool := return PerformanceM.isOver (← get)

/-- The next operation in its source. -/
def nextOperationText : ReportM String := ofScript do
  let op ← PerformanceM.nextOperation
  let context ← PerformanceM.ofBreakdown (Source.showSpan (← get).script.source op.span Source.usualContext)
  return String.ofList context

/-- One round of a run: the next operation, or a breakpoint and what is to be done there. -/
def round {α : Type} (atBreakpoint : ReportM α) : ReportM (Option α) := do
  let op ← ofScript PerformanceM.nextOperation
  if op.isBreakpoint then
    ofScript PerformanceM.advance
    return some (← atBreakpoint)
  else
    stepForward
    return none

/-- Perform the play to its end, in at most `fuel` rounds. Returns what was done at the breakpoints after `seen`,
which holds what was done before, latest first. -/
def runFrom {α : Type} (atBreakpoint : ReportM α) : Nat → List α → ReportM (List α)
  | 0, _ => breakDown .endless
  | fuel + 1, seen => do
    if ← playOver then return seen.reverse
    match ← round atBreakpoint with
    | none => runFrom atBreakpoint fuel seen
    | some a => runFrom atBreakpoint fuel (a :: seen)

/-- Perform the play to its end, in at most `fuel` rounds. Returns what was done at the breakpoints. -/
def run {α : Type} (atBreakpoint : ReportM α) (fuel : Nat) : ReportM (List α) := runFrom atBreakpoint fuel []

/-- Something from outside of the script, read from a text. -/
def ofText {α : Type} (r : Except Report α) : ReportM α :=
  match r with
  | .ok a => pure a
  | .error e => throw e

/-- Perform an operation that is not part of the script. -/
def performApart (op : Operation) : PerformanceM Unit := PerformanceM.perform (fun _ => pure ()) op

/-- Perform an event. -/
def performEvent (source : List Char) (e : Event) : ReportM Unit :=
  reporting source (some e.span) ((Operation.ofEvent e).forM performApart)

/-- Perform a sentence that a character of the given name says. -/
def performSentence (source : List Char) (s : Sentence) (speaker : String) : ReportM Unit :=
  reporting source (some s.span) (performApart (Operation.ofSentence (Name.normalize speaker) s))

/-- Evaluate a value that a character of the given name speaks of. -/
def evaluateValue (source : List Char) (v : Value) (speaker : String) : ReportM Int :=
  reporting source (some v.span) do
    let (n, _) ← PerformanceM.evaluate (Name.normalize speaker) (fun _ => pure ()) (Expression.ofValue v)
    return n

/-- Perform the event in a text. -/
def runEvent (text : List Char) : ReportM Unit := do
  performEvent text (← ofText (readAs .event Event.ofTree? text))

/-- Perform the sentence in a text. -/
def runSentence (text : List Char) (speaker : String) : ReportM Unit := do
  performSentence text (← ofText (readAs .sentence Sentence.ofTree? text)) speaker

/-- Evaluate the value in a text. -/
def evaluateText (text : List Char) (speaker : String) : ReportM Int := do
  evaluateValue text (← ofText (readAs .value Value.ofTree? text)) speaker

/-- Carry out a step whose errors are told without their place and without the stage. -/
def bare {α : Type} (m : PerformanceM α) : ReportM α := fun p =>
  match m p with
  | .ok a p => .ok a p
  | .error (.breakdown b) p => .error (.breakdown b) p
  | .error (.error cause _) p => .error (.error cause none none) p

/-- Choose a way of input. Held characters are lost. -/
def setInputStyle (name : String) : ReportM Unit := fun p =>
  match InputDesk.ofName name p.streams.reader with
  | .ok desk => .ok () { p with desk := desk }
  | .error b => .error (.breakdown b) p

/-- Choose a style of output. -/
def setOutputStyle (name : String) : ReportM Unit := fun p =>
  match OutputStyle.ofName name with
  | .ok style => .ok () { p with style := style }
  | .error b => .error (.breakdown b) p

end ReportM

end Playhouse
