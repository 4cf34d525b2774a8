import Playhouse.Performance.Basic
import Playhouse.Text.Digit

/-!
# Playhouse.Performance.Input — numbers and characters from the input

Line by line, a number is the longest numeral at the present place, or zero, and a character is the next one; the
end of the input is the character -1. A user is asked for each. From a reader, a sign is taken even if no digit
follows it.
-/

namespace Playhouse.PerformanceM

open Text Number

/-- The first line of a text, with its line feed, and the rest. -/
def splitLine : List Char → List Char × List Char
  | [] => ([], [])
  | '\n' :: cs => (['\n'], cs)
  | c :: cs => (c :: (splitLine cs).1, (splitLine cs).2)

/-- The next line of standard input, with its line feed; empty at the end. -/
def readLine : PerformanceM (List Char) := do
  let p ← get
  let (line, rest) := splitLine p.streams.stdin
  set { p with streams := { p.streams with stdin := rest } }
  return line

/-- A line without its line feed. -/
def dropLineFeed (line : List Char) : List Char := if line.getLast? = some '\n' then line.dropLast else line

/-- Ask the user for a line. -/
def ask (prompt : String) : PerformanceM (List Char) := do
  print prompt
  let line ← readLine
  if line.isEmpty then breakDown .endOfInput
  return dropLineFeed line

/-- Hold the characters for the next input. -/
def hold (cs : List Char) : PerformanceM Unit := modify fun p => { p with desk := .basic cs }

/-- What is left of the present line, or else the next line; empty at the end of the input. -/
def presentLine (held : List Char) : PerformanceM (List Char) := do
  if held.isEmpty then
    let line ← readLine
    hold line
    return line
  return held

/-- A sign at the beginning of a text. -/
def sign? : List Char → Option Char
  | '+' :: _ => some '+'
  | '-' :: _ => some '-'
  | _ => none

/-- A number from standard input. -/
def lineNumber (held : List Char) : PerformanceM Int := do
  let line ← presentLine held
  let sign := sign? line
  let digits := (if sign.isSome then line.drop 1 else line).takeWhile isDigitChar
  if digits.isEmpty then return 0
  hold (line.drop (digits.length + (if sign.isSome then 1 else 0)))
  let n ← ofBreakdown (readNumeral digits)
  return if sign = some '-' then -n else n

/-- A character from standard input. -/
def lineCharacter (held : List Char) : PerformanceM Int := do
  match ← presentLine held with
  | [] => return -1
  | c :: cs =>
    hold cs
    return c.toNat

/-- A number from the user. -/
def askNumber : PerformanceM Int := do
  match readNumeral (← ask "Taking input number: ") with
  | .ok n => return n
  | .error _ => fail .noNumericInput

/-- A character from the user. -/
def askCharacter : PerformanceM Int := do
  match ← ask "Taking input character: " with
  | [] => return 10
  | ['E', 'O', 'F'] => return -1
  | c :: _ => return c.toNat

/-- Leave the reader with the given text and character held. -/
def setReader (rest : List Char) (held : Option Char) : PerformanceM Unit :=
  modify fun p => { p with desk := .reader held, streams := { p.streams with reader := some rest } }

/-- The characters that the reader still gives: the one held, and the rest. -/
def readerText (held : Option Char) (p : Performance) : List Char :=
  held.toList ++ p.streams.reader.getD []

/-- A number from the reader. The character after it is held. -/
def readerNumber (held : Option Char) : PerformanceM Int := do
  match readerText held (← get) with
  | [] => return 0
  | c :: cs =>
    if c = '+' ∨ c = '-' ∨ isDigitChar c then
      let digits := cs.takeWhile isDigitChar
      let rest := cs.dropWhile isDigitChar
      setReader (rest.drop 1) rest.head?
      ofBreakdown (readNumeral (c :: digits))
    else
      setReader cs (some c)
      return 0

/-- A character from the reader. -/
def readerCharacter (held : Option Char) : PerformanceM Int := do
  match readerText held (← get) with
  | [] => return -1
  | c :: cs =>
    setReader cs none
    return c.toNat

/-- The next input. -/
def input (medium : Medium) : PerformanceM Int := do
  match (← get).desk, medium with
  | .basic held, .number => lineNumber held
  | .basic held, .character => lineCharacter held
  | .interactive, .number => askNumber
  | .interactive, .character => askCharacter
  | .reader held, .number => readerNumber held
  | .reader held, .character => readerCharacter held

end Playhouse.PerformanceM
