import Playhouse.Fault
import Playhouse.Text.Blank
import Playhouse.Text.Digit

/-!
# Playhouse.Number.Numeral — integers as text

Numerals have at most 4300 digits, both when they are written and when they are read. Reading takes the decimal
digits of every script, one sign, blanks around the numeral and single underscores between its digits.
-/

namespace Playhouse.Number

open Text

/-- Numerals have at most this many digits. -/
def digitLimit : Nat := 4300

/-- The least natural number with too many digits. -/
def numeralBound : Nat := Nat.pow 10 digitLimit

/-- The numeral of an integer. -/
def numeral (n : Int) : Except Breakdown String :=
  if n.natAbs < numeralBound then .ok (toString n) else .error .numeralTooLong

/-- A blank before or after a numeral. The information separators do not count. -/
def isNumeralBlank (c : Char) : Bool :=
  isBlank c && !(0x1c ≤ c.toNat && c.toNat ≤ 0x1f)

/-- The value of digits, most significant first, after those that gave `acc`. -/
def digitsValue (acc : Nat) : List Nat → Nat
  | [] => acc
  | d :: ds => digitsValue (10 * acc + d) ds

/-- The digits of a numeral and what follows them. One underscore may stand between two digits; `afterDigit` tells
whether a digit was read just before. -/
def scanDigits : Bool → List Char → Option (List Nat × List Char)
  | afterDigit, [] => if afterDigit then some ([], []) else none
  | afterDigit, c :: cs =>
    match digitValue? c with
    | some d => (scanDigits true cs).map fun (ds, rest) => (d :: ds, rest)
    | none => if !afterDigit then none else if c = '_' then scanDigits false cs else some ([], c :: cs)

/-- The sign of a numeral, and the rest. -/
def splitSign : List Char → Bool × List Char
  | '-' :: cs => (true, cs)
  | '+' :: cs => (false, cs)
  | cs => (false, cs)

/-- Read a numeral. -/
def readNumeral (text : List Char) : Except Breakdown Int :=
  let (negative, cs) := splitSign (text.dropWhile isNumeralBlank)
  match scanDigits false cs with
  | none => .error (.unreadableNumeral (String.ofList text))
  | some (ds, rest) =>
    if digitLimit < ds.length then .error (.numeralTooLongToRead ds.length)
    else if rest.all isNumeralBlank then
      let n : Int := digitsValue 0 ds
      .ok (if negative then -n else n)
    else .error (.unreadableNumeral (String.ofList text))

end Playhouse.Number
