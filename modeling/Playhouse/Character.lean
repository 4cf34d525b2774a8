import Playhouse.Fault
import Playhouse.Number.Numeral

/-!
# Playhouse.Character — a value and a stack

The top of the stack is its head.
-/

namespace Playhouse

/-- What a character of a play holds. -/
structure Character where
  value : Int := 0
  stack : List Int := []
  deriving DecidableEq, Repr

namespace Character

/-- Put a number on the stack. -/
def push (c : Character) (n : Int) : Character := { c with stack := n :: c.stack }

/-- Take the top of the stack as value. -/
def pop (c : Character) : Except Fault Character :=
  match c.stack with
  | [] => .error (.error .emptyStack none)
  | n :: ns => .ok ⟨n, ns⟩

/-- The value, and the stack from its top down. -/
def text (c : Character) : Except Breakdown String := do
  let v ← Number.numeral c.value
  let ns ← c.stack.mapM Number.numeral
  return v ++ " (" ++ " ".intercalate ns ++ ")"

end Character

end Playhouse
