import Playhouse.Text.Quoted

/-!
# Playhouse.Fault — why a performance stops

An error of the play has a cause and, once it is known, a place in the source. A breakdown is anything else that
ends what was going on: no number text that long, no more input, nobody there to remove.
-/

namespace Playhouse

/-- A stretch of a source, from the character at `start` up to but without the one at `stop`. -/
structure Span where
  start : Nat
  stop : Nat
  deriving DecidableEq, Repr

/-- What is wrong in a play. -/
inductive Cause where
  | notInitialized (name : String)
  | notOnStage (name : String)
  | alreadyOnStage (name : String)
  | ambiguousPronoun
  | talkingToNobody (name : String)
  | divisionByZero
  | negativeFactorial (operand : Int)
  | negativeRoot (operand : Int)
  | emptyStack
  | noSuchAct (numeral : String)
  | noSuchScene (numeral : String)
  | noNumericInput
  | invalidCode (code : Int)
  | repeatedAct (numeral : String)
  | repeatedScene (numeral act : String)
  | repeatedPersona (name : String)
  deriving DecidableEq, Repr

/-- The wording of a cause. -/
def Cause.message : Cause → String
  | notInitialized name => name ++ " was not initialized!"
  | notOnStage name => name ++ " is not on stage!"
  | alreadyOnStage name => name ++ " is already on stage!"
  | ambiguousPronoun => "Ambiguous second-person pronoun"
  | talkingToNobody name => name ++ " is talking to nobody!"
  | divisionByZero => "Cannot divide by zero"
  | negativeFactorial n => "Cannot take the factorial of a negative number: " ++ toString n
  | negativeRoot n => "Cannot take the square root of a negative number: " ++ toString n
  | emptyStack => "Tried to pop from an empty stack."
  | noSuchAct numeral => "Act " ++ numeral ++ " does not exist."
  | noSuchScene numeral => "Scene " ++ numeral ++ " does not exist."
  | noNumericInput => "No numeric input was given."
  | invalidCode n => "Invalid character code: " ++ toString n
  | repeatedAct numeral => "Act numeral " ++ numeral ++ " is not unique"
  | repeatedScene numeral act => "Scene numeral " ++ numeral ++ " is not unique in " ++ act
  | repeatedPersona name => name ++ " already initialized"

/-- What ends an activity without being an error of the play. -/
inductive Breakdown where
  | numeralTooLong
  | numeralTooLongToRead (digits : Nat)
  | unreadableNumeral (text : String)
  | quotientTooLarge
  | tooLargeForFloat
  | factorialTooLarge
  | codeTooLarge
  | unencodable (code : Nat)
  | positionOutOfRange
  | columnOutOfRange
  | nobodyToRemove (name : String)
  | nobodySpeaking
  | endOfInput
  | unknownInputStyle
  | unknownOutputStyle
  | missingReader
  | fileNotFound (path : String)
  | quit
  | endless
  | unknownForm
  deriving DecidableEq, Repr

/-- The wording of a breakdown. The shown text of an unreadable numeral is cut off after 200 characters. -/
def Breakdown.message : Breakdown → String
  | numeralTooLong =>
    "Exceeds the limit (4300 digits) for integer string conversion; use " ++
      "sys.set_int_max_str_digits() to increase the limit"
  | numeralTooLongToRead digits =>
    "Exceeds the limit (4300 digits) for integer string conversion: value has " ++ toString digits ++
      " digits; use sys.set_int_max_str_digits() to increase the limit"
  | unreadableNumeral text =>
    "invalid literal for int() with base 10: " ++ String.ofList ((Text.quoted text).toList.take 200)
  | quotientTooLarge => "integer division result too large for a float"
  | tooLargeForFloat => "int too large to convert to float"
  | factorialTooLarge => "factorial() argument should not exceed 9223372036854775807"
  | codeTooLarge => "Python int too large to convert to C int"
  | unencodable code =>
    "'utf-8' codec can't encode character '" ++ String.ofList (Text.escapeCode 39 code) ++
      "' in position 0: surrogates not allowed"
  | positionOutOfRange => "list index out of range"
  | columnOutOfRange => "string index out of range"
  | nobodyToRemove name => Text.quoted name
  | nobodySpeaking => "can only join an iterable"
  | endOfInput => "EOF when reading a line"
  | unknownInputStyle => "Unknown input style"
  | unknownOutputStyle => "Unknown output style"
  | missingReader => "Missing argument reader for input style reader"
  | fileNotFound path => "[Errno 2] No such file or directory: " ++ Text.quoted path
  | quit => ""
  | endless => "no end in sight"
  | unknownForm => "no such form"

/-- Why a step of a performance did not succeed. -/
inductive Fault where
  | error (cause : Cause) (span : Option Span)
  | breakdown (b : Breakdown)
  deriving DecidableEq, Repr

/-- An error that has no place yet is placed at `span`. -/
def Fault.locate (span : Span) : Fault → Fault
  | error cause none => error cause (some span)
  | fault => fault

end Playhouse
