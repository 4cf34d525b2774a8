import Playhouse.Grammar.Rule
import Playhouse.Text.Quoted

/-!
# Playhouse.Grammar.Failure — why a text cannot be read

A failure knows what was expected, where, and in which rules. Of all rules that failed while a text was read, the
failure that got furthest is reported; of two that got equally far, the earlier.
-/

namespace Playhouse.Grammar

/-- What a choice expects to see: a word, or the beginning of a rule. -/
inductive Expected where
  | word (w : String)
  | rule (r : Rule)
  deriving DecidableEq, Repr

/-- An expectation as it is printed. -/
def Expected.text : Expected → String
  | word w => Text.quoted w
  | rule r => "<" ++ r.name ++ ">"

/-- The columns that a line of expectations may have. -/
def expectedWidth : Nat := 40

/-- The parts of a text that a line may be broken between: each but the last ends in a hyphen. -/
def hyphenParts : List Char → List (List Char)
  | [] => [[]]
  | c :: cs =>
    match hyphenParts cs with
    | [] => [[c]]
    | part :: parts => if c = '-' ∧ ¬part.isEmpty then [c] :: part :: parts else (c :: part) :: parts

/-- The parts of a list of texts; those that begin a text are marked. -/
def markedParts (texts : List (List Char)) : List (Bool × List Char) :=
  texts.flatMap fun t =>
    match hyphenParts t with
    | [] => []
    | part :: parts => (true, part) :: parts.map (false, ·)

/-- Lay out parts in lines of at most `expectedWidth` columns, with a blank between two texts on one line and
nothing between two lines. `column` is where the present line ends. -/
def fillLines : Nat → List (Bool × List Char) → List Char
  | _, [] => []
  | column, (begins, part) :: rest =>
    let gap := if begins ∧ 0 < column then [' '] else []
    let stop := column + gap.length + part.length
    if stop ≤ expectedWidth then gap ++ part ++ fillLines stop rest
    else part ++ fillLines part.length rest

/-- A list of expectations as it is printed. -/
def expectedText (es : List Expected) : String :=
  String.ofList (fillLines 0 (markedParts (es.map (·.text.toList))))

/-- What was missing. The last three are never reported for this grammar: they are failures inside of choices and
lookaheads, a repetition that reads nothing, and a rule that calls itself without reading. -/
inductive Missing where
  | word (letters : List Char)
  | oneOf (expected : List Expected)
  | endOfText
  | rule (name : String)
  | pattern
  | unwanted
  | emptyRepetition
  | tooDeep
  deriving DecidableEq, Repr

/-- The wording of what was missing. -/
def Missing.message : Missing → String
  | word letters => "expecting " ++ Text.quoted (String.ofList letters)
  | oneOf expected => "expecting one of: " ++ expectedText expected
  | endOfText => "Expecting end of text"
  | rule name => "could not resolve reference to rule " ++ Text.quoted name
  | pattern => "expecting a pattern"
  | unwanted => "unexpected text"
  | emptyRepetition => "empty closure"
  | tooDeep => "too many nested rules"

/-- A failure to read: what was missing, the position, and the rules that were being read, innermost first. -/
structure Failure where
  missing : Missing
  pos : Nat
  stack : List Rule
  deriving DecidableEq, Repr

/-- The wording of a failure. -/
def Failure.message (e : Failure) : String := e.missing.message

/-- The failure that got furthest, after `e`. -/
def furthest (seen : Option Failure) (e : Failure) : Failure :=
  match seen with
  | none => e
  | some s => if s.pos < e.pos then e else s

end Playhouse.Grammar
