import Playhouse.Performance.Input
import Playhouse.Performance.Output

/-!
# Playhouse.Performance.Step — what operations do

A sentence is performed by a speaker who is on stage, if its condition holds. A jump moves to the first operation
of an act, or of a scene of the present act. A step performs the operation at the present position and, unless that
moved, goes on to the next.
-/

namespace Playhouse.PerformanceM

open Number

/-- Evaluate an expression. It is handed to `remember` with the constants that were worked out, also on failure. -/
def evaluate (speaker : String) (remember : Expression → PerformanceM Unit) (e : Expression) :
    PerformanceM (Int × Expression) := do
  let (outcome, e') := e.evaluate speaker (← get).stage
  remember e'
  match outcome with
  | .ok n => return (n, e')
  | .error f => throw f

/-- Change the character of a name. -/
def changeCharacter (name : String) (f : Character → Except Fault Character) : PerformanceM Unit := do
  let c ← look (·.character name)
  match f c with
  | .ok c' => modify fun p => { p with stage := p.stage.setCharacter name c' }
  | .error e => throw e

/-- Perform what a sentence says, a jump apart. `remember` keeps what the action has worked out. -/
def performAction (speaker : String) (remember : Action Expression → PerformanceM Unit) :
    Action Expression → PerformanceM Unit
  | .question comparison words first second => do
    let (a, first') ← evaluate speaker (fun x => remember (.question comparison words x second)) first
    let (b, _) ← evaluate speaker (fun y => remember (.question comparison words first' y)) second
    let answer := comparison.apply a b
    narrate ("Setting global boolean to " ++ Stage.flagText answer)
    modify fun p => { p with stage := { p.stage with flag := answer } }
  | .assignment value => do
    let other ← look (·.opposite speaker)
    let (n, _) ← evaluate speaker (fun x => remember (.assignment x)) value
    changeCharacter other fun c => .ok { c with value := n }
    if (← get).style.narrates then
      printLine (other ++ " set to " ++ (← ofBreakdown (numeral n)))
  | .input medium => do
    let other ← look (·.opposite speaker)
    let n ← input medium
    if (← get).style.narrates then
      printLine ("Setting " ++ other ++ " to input value " ++ (← ofBreakdown (numeral n)))
    changeCharacter other fun c => .ok { c with value := n }
  | .output medium => do
    let other ← look (·.opposite speaker)
    let c ← look (·.character other)
    narrate ("Outputting " ++ other)
    output medium c.value
  | .push value => do
    let other ← look (·.opposite speaker)
    let (n, _) ← evaluate speaker (fun x => remember (.push x)) value
    changeCharacter other fun c => .ok (c.push n)
    if (← get).style.narrates then
      printLine (other ++ " pushed " ++ (← ofBreakdown (numeral n)))
  | .pop _ => do
    let other ← look (·.opposite speaker)
    changeCharacter other Character.pop
    narrate ("Popping stack of " ++ other)
  | .goto _ _ => pure ()

/-- Where a jump from a position goes. -/
def destination (script : Script) (position : Int) (target : Target) (numeral : String) : Except Fault Nat :=
  match target with
  | .act =>
    match script.act? numeral with
    | some a => .ok a.position
    | none => .error (.error (.noSuchAct numeral) none)
  | .scene =>
    match script.actAt? position with
    | none => .error (.breakdown .positionOutOfRange)
    | some a =>
      match a.scenes.lookup numeral with
      | some n => .ok n
      | none => .error (.error (.noSuchScene numeral) none)

/-- Jump to an act or to a scene of the present act. -/
def jump (target : Target) (numeral : String) : PerformanceM Unit := do
  narrate ("Jumping to " ++ target.text ++ " " ++ numeral)
  let p ← get
  match destination p.script p.position target numeral with
  | .ok n => set { p with position := n }
  | .error f => throw f

/-- What is told of an action whose condition does not hold. -/
def refusal (a : Action Expression) (flag : Bool) : String :=
  match a with
  | .goto target numeral =>
    "Not jumping to " ++ target.text ++ " " ++ numeral ++ " because global boolean is " ++ Stage.flagText flag
  | a => "Not executing conditional " ++ a.kind ++ ", global boolean is " ++ Stage.flagText flag

/-- The condition, if there is one, holds of the flag. -/
def isMet (condition : Option Condition) (flag : Bool) : Bool := condition.all (·.holds flag)

/-- Perform a sentence. Errors of a jump, and the absence of the speaker, are not placed. -/
def performSentence (span : Span) (remember : Action Expression → PerformanceM Unit) (speaker : String)
    (condition : Option Condition) (a : Action Expression) : PerformanceM Unit := do
  look (·.checkPresent speaker)
  let flag := (← get).stage.flag
  if isMet condition flag then
    match a with
    | .goto target numeral => jump target numeral
    | a => locating span (performAction speaker remember a)
  else narrate (refusal a flag)

/-- Perform an operation. -/
def perform (remember : Action Expression → PerformanceM Unit) (op : Operation) : PerformanceM Unit :=
  match op.deed with
  | .enter names =>
    locating op.span do
      narrate ("Enter " ++ ", ".intercalate names)
      onStage (StageM.enter names)
  | .exit name =>
    locating op.span do
      narrate ("Exit " ++ name)
      onStage (StageM.exit name)
  | .exeunt names =>
    locating op.span do
      narrate ("Exeunt " ++ ", ".intercalate names)
      onStage (StageM.exeunt names)
  | .exeuntAll =>
    locating op.span do
      narrate "Exeunt all"
      onStage StageM.exeuntAll
  | .breakpoint => pure ()
  | .speak speaker condition a => performSentence op.span remember speaker condition a

/-- The operation at the present position. -/
def nextOperation : PerformanceM Operation := do
  let p ← get
  match p.script.operation? p.position with
  | some op => return op
  | none => breakDown .positionOutOfRange

/-- Go on to the next position. -/
def advance : PerformanceM Unit := modify fun p => { p with position := p.position + 1 }

/-- What is printed before an operation in the debug style. -/
def debugText (p : Performance) (op : Operation) : Except Breakdown String := do
  let context ← Source.showSpan p.script.source op.span Source.usualContext
  let state ← p.stage.text
  return "----------\nat line " ++ toString (Source.lineOf p.script.source op.span.start) ++ "\n-----\n"
    ++ String.ofList context ++ "-----\n" ++ state ++ "\n----------"

/-- Keep what an operation of the script has worked out. -/
def rememberAt (position : Int) (a : Action Expression) : PerformanceM Unit :=
  modify fun p => { p with script := p.script.remember position a }

/-- Perform the operation at the present position. -/
def step : PerformanceM Unit := do
  let op ← nextOperation
  if op.isBreakpoint then advance
  else
    let p ← get
    if p.style = .debug then printLine (← ofBreakdown (debugText p op))
    perform (rememberAt p.position) op
    if (← get).position = p.position then advance

/-- The play has come to its end. -/
def isOver (p : Performance) : Bool := (p.script.operations.length : Int) ≤ p.position

end Playhouse.PerformanceM
