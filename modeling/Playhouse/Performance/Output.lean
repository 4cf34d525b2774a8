import Playhouse.Performance.Basic

/-!
# Playhouse.Performance.Output — numbers and characters put out

A basic performance prints what the play puts out and nothing else. The other styles print a line about it, with
characters between quotes.
-/

namespace Playhouse.PerformanceM

open Number

/-- Note what the play puts out. -/
def utter (u : Utterance) : PerformanceM Unit := modify fun p => { p with uttered := u :: p.uttered }

/-- Put out a number. -/
def outputNumber (n : Int) : PerformanceM Unit := do
  let text ← ofBreakdown (numeral n)
  if (← get).style.narrates then printLine ("Outputting number: " ++ text) else print text
  utter (.number n)

/-- The code of a character. Codes of 32 bits and more are not even looked at. -/
def characterCode (n : Int) : PerformanceM Nat := do
  if n < -0x80000000 ∨ 0x80000000 ≤ n then breakDown .codeTooLarge
  if n < 0 ∨ 0x10ffff < n then fail (.invalidCode n)
  return n.toNat

/-- Put out the character of a code. -/
def outputCharacter (n : Int) : PerformanceM Unit := do
  let code ← characterCode n
  if (← get).style.narrates then
    printLine ("Outputting character: " ++ String.ofList (Text.quotedCodes [code]))
  else if code.isValidChar then print (String.singleton (Char.ofNat code))
  else breakDown (.unencodable code)
  utter (.character n)

/-- Put out a number or a character. -/
def output (medium : Medium) (n : Int) : PerformanceM Unit :=
  match medium with
  | .number => outputNumber n
  | .character => outputCharacter n

end Playhouse.PerformanceM
