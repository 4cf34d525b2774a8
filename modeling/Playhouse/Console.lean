import Playhouse.Performance.Run
import Playhouse.Text.Replace

/-!
# Playhouse.Console — the console and the debugger

At the console the user names commands, or types what a character says, an event, a value or a name. The console
remembers who spoke last. It runs with interactive input and verbose output, and leaves the performance so. The
debugger is a run with a console at each breakpoint.
-/

namespace Playhouse

open Grammar Text

namespace ReportM

/-- Print a line on standard error. -/
def complain (text : String) : ReportM Unit :=
  modify fun p => { p with streams := { p.streams with err := p.streams.err ++ text ++ "\n" } }

/-- Tell a report on standard error, unless it is a breakdown: then stop. -/
def tell (r : Report) : ReportM Unit :=
  match r with
  | .breakdown b => breakDown b
  | r =>
    match r.text with
    | .ok text => complain text
    | .error b => breakDown b

/-- Read a console line. -/
def readConsoleLine (text : List Char) : ReportM ConsoleLine :=
  ofText (readAs .replInput ConsoleLine.ofTree? text)

/-- Perform sentences that the speaker says. -/
def saySentences (source : List Char) (speaker : Option String) (ss : List Sentence) :
    ReportM (Option String) := do
  match speaker with
  | none =>
    bare (PerformanceM.printLine "Who's saying this?")
    return none
  | some name =>
    ss.forM fun s => performSentence source s name
    return some name

/-- Carry out a console line. Returns who speaks from now on. -/
def performConsoleLine (line : List Char) (speaker : Option String) : ReportM (Option String) := do
  let source := line ++ ['\n']
  match ← readConsoleLine source with
  | .event (.line _ name ss) => saySentences source (some (Name.normalizeWords name)) ss
  | .event e =>
    performEvent source e
    return speaker
  | .sentences ss => saySentences source speaker ss
  | .value name v =>
    match (name.map Name.normalizeWords) <|> speaker with
    | none => breakDown .nobodySpeaking
    | some speaker =>
      let n ← evaluateValue source v speaker
      bare do PerformanceM.printLine (← PerformanceM.ofBreakdown (Number.numeral n))
      return some speaker
  | .display name =>
    let c ← bare (PerformanceM.look (·.character (Name.normalizeWords name)))
    bare do PerformanceM.printLine (← PerformanceM.ofBreakdown c.text)
    return speaker

/-- After a line that moved the position: show where the play is now, or leave at its end. Returns who speaks, or
nothing if the console is to be left. -/
def showProgress (before : Int) (speaker : Option String) : ReportM (Option (Option String)) := do
  if (← get).position = before then return some speaker
  if ← playOver then return none
  let text ← nextOperationText
  bare (PerformanceM.printLine ("\n-----\n" ++ text ++ "\n-----\n"))
  return some speaker

/-- Answer a console line. Returns who speaks, or nothing if the console is to be left. -/
def answerLine (line : List Char) (speaker : Option String) : ReportM (Option (Option String)) := do
  let before := (← get).position
  match String.ofList line with
  | "exit" | "quit" => breakDown .quit
  | "continue" => return none
  | "next" =>
    if ← playOver then return none
    stepForward
    showProgress before speaker
  | "state" =>
    let stage := (← get).stage
    bare do PerformanceM.printLine (← PerformanceM.ofBreakdown stage.text)
    showProgress before speaker
  | _ => showProgress before (← performConsoleLine line speaker)

/-- One round of the console: ask for a line and answer it. Errors are told, and the speaker stays as before. -/
def consoleRound (speaker : Option String) : ReportM (Option (Option String)) := do
  let line ← bare (PerformanceM.ask ">> ")
  fun p =>
    match answerLine line speaker p with
    | .ok next p => .ok next p
    | .error r p =>
      match tell r p with
      | .ok _ p => .ok (some speaker) p
      | .error r p => .error r p

/-- Rounds of the console, at most `fuel` of them. -/
def consoleFrom : Nat → Option String → ReportM Unit
  | 0, _ => breakDown .endless
  | fuel + 1, speaker => do
    match ← consoleRound speaker with
    | some speaker => consoleFrom fuel speaker
    | none => return

/-- The console, until it is left. Each round takes a line of standard input. -/
def console : ReportM Unit := do
  setInputStyle "interactive"
  setOutputStyle "verbose"
  consoleFrom ((← get).streams.stdin.length + 1) none

/-- A console at a breakpoint. -/
def pause : ReportM Unit := do
  let text ← nextOperationText
  bare (PerformanceM.printLine ("-----\n" ++ text ++ "\n-----\n"))
  console

end ReportM

namespace Console

/-- The play that the console is opened with. -/
def template : String :=
  "\nA REPL-tastic Adventure.\n\n<dramatis personae>\n\n                    Act I: All the World.\n" ++
    "                    Scene I: A Stage.\n\n[Enter <entrance list>]\n"

/-- The characters as they stand in an entrance: `and` before the last, commas before the others. -/
def entranceList (names : List (List Char)) : List Char :=
  let joined := joinWith [',', ' '] names
  match splitAtLast? [',', ' '] joined with
  | some (before, after) => before ++ " and ".toList ++ after
  | none => joined

/-- The play for a cast. -/
def playFor (names : List (List Char)) : List Char :=
  let personae := joinWith ['\n'] (names.map (· ++ ", a player.".toList))
  let play := replaceAll "<dramatis personae>".toList personae template.toList
  replaceAll "<entrance list>".toList (entranceList names) play

end Console

end Playhouse
