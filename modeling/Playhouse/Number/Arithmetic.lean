import Playhouse.Fault
import Playhouse.Number.Double
import Playhouse.Number.Numeral

/-!
# Playhouse.Number.Arithmetic — the operations of expressions

Sums, differences, products and powers are exact. Quotients, remainders and roots go through floating point, with
`Playhouse.Number.Double`.
-/

namespace Playhouse.Number

/-- The operations on one value. -/
inductive UnaryOperator where
  | cube
  | factorial
  | square
  | squareRoot
  | twice
  deriving DecidableEq, Repr

/-- The operations on two values. -/
inductive BinaryOperator where
  | difference
  | product
  | quotient
  | remainder
  | sum
  deriving DecidableEq, Repr

/-- The factorial of `n` times `acc`. -/
def factorialTimes : Nat → Nat → Nat
  | 0, acc => acc
  | n + 1, acc => factorialTimes n ((n + 1) * acc)

/-- The factorial is only taken of numbers up to this one. -/
def factorialLimit : Nat := Nat.pow 2 63 - 1

/-- An error that mentions a number, or a breakdown if the number has no numeral. -/
def errorAbout (n : Int) (cause : Cause) : Fault :=
  match numeral n with
  | .ok _ => .error cause none
  | .error b => .breakdown b

/-- The floating point number nearest to an integer, which is an integer again. -/
def nearest (n : Int) : Except Fault Int :=
  match nearest? n.natAbs with
  | some m => .ok (if n < 0 then -(m : Int) else m)
  | none => .error (.breakdown .tooLargeForFloat)

/-- The factorial of an integer. -/
def factorial (n : Int) : Except Fault Int :=
  if n < 0 then .error (errorAbout n (.negativeFactorial n))
  else if factorialLimit < n.natAbs then .error (.breakdown .factorialTooLarge)
  else .ok (factorialTimes n.natAbs 1)

/-- The square root of an integer, cut off. -/
def squareRoot (n : Int) : Except Fault Int :=
  if n < 0 then .error (errorAbout n (.negativeRoot n))
  else
    match nearest? n.natAbs with
    | some m => .ok (roundedRoot m)
    | none => .error (.breakdown .tooLargeForFloat)

/-- The quotient of two integers, cut off. -/
def quotient (a b : Int) : Except Fault Int :=
  if b = 0 then .error (.error .divisionByZero none)
  else
    match bounded? (roundedQuotient a.natAbs b.natAbs) with
    | some q => .ok (if (a < 0) = (b < 0) then (q : Int) else -(q : Int))
    | none => .error (.breakdown .quotientTooLarge)

/-- The remainder of a quotient: it has the sign of `a`. -/
def remainder (a b : Int) : Except Fault Int :=
  if b = 0 then .error (.error .divisionByZero none)
  else
    match nearest a with
    | .error e => .error e
    | .ok x =>
      match nearest b with
      | .error e => .error e
      | .ok y => .ok (x.tmod y)

/-- Apply an operation to one value. -/
def UnaryOperator.apply (op : UnaryOperator) (n : Int) : Except Fault Int :=
  match op with
  | cube => .ok (n * n * n)
  | factorial => Number.factorial n
  | square => .ok (n * n)
  | squareRoot => Number.squareRoot n
  | twice => .ok (n * 2)

/-- Apply an operation to two values. -/
def BinaryOperator.apply (op : BinaryOperator) (a b : Int) : Except Fault Int :=
  match op with
  | difference => .ok (a - b)
  | product => .ok (a * b)
  | quotient => Number.quotient a b
  | remainder => Number.remainder a b
  | sum => .ok (a + b)

end Playhouse.Number
