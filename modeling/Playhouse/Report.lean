import Playhouse.Grammar.Failure
import Playhouse.Source.Excerpt
import Playhouse.Stage

/-!
# Playhouse.Report — faults as they are told to the user

A report of unreadable text shows the position of the failure and the rules that were being read. A report of an
error in a play shows its place, if it has one, and the stage, if the error came out of a performance.
-/

namespace Playhouse

open Grammar Source

/-- What is told to the user when something did not succeed. -/
inductive Report where
  | unreadable (source : List Char) (failure : Failure)
  | error (cause : Cause) (place : Option (List Char × Span)) (stage : Option Stage)
  | breakdown (b : Breakdown)
  deriving DecidableEq, Repr

namespace Report

/-- The text of a failure to read. -/
def unreadableText (source : List Char) (e : Failure) : Except Breakdown String := do
  let context ← showPosition source e.pos usualContext
  let line := if e.pos = 0 then 1 else lineOf source e.pos + 1
  return "\n".intercalate
    ["SPL parse error: failed to parse " ++ (e.stack.head?.map Rule.name).getD "",
     "  at line " ++ toString line,
     "----- context -----",
     String.ofList context,
     "----- details -----",
     "parsing stack: " ++ ", ".intercalate (e.stack.map Rule.name),
     "full error message:",
     "    " ++ e.message]

/-- The lines that tell where an error is. -/
def placeLines : Option (List Char × Span) → Except Breakdown (List String)
  | none => .ok []
  | some (source, span) => do
    let context ← showSpan source span usualContext
    return ["  at line " ++ toString (lineOf source span.start + 1), "----- context -----", String.ofList context]

/-- The lines that show the stage. -/
def stageLines : Option Stage → Except Breakdown (List String)
  | none => .ok []
  | some s => do return ["----- state -----", ← s.text]

/-- The text of an error in a play. -/
def errorText (cause : Cause) (place : Option (List Char × Span)) (stage : Option Stage) :
    Except Breakdown String := do
  let place ← placeLines place
  let stage ← stageLines stage
  return "\n".intercalate (["SPL runtime error: " ++ cause.message] ++ place ++ stage)

/-- The text of a report. -/
def text : Report → Except Breakdown String
  | unreadable source e => unreadableText source e
  | error cause place stage => errorText cause place stage
  | breakdown b => .ok b.message

end Report

end Playhouse
