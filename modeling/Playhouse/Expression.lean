import Playhouse.Script.Value

/-!
# Playhouse.Expression — values that remember their constants

An expression is a value prepared for repeated evaluation. Constant parts (noun phrases, nothing, and operations on
constants) are worked out once and then remembered in place; evaluation therefore returns the expression too, also
when it fails.
-/

namespace Playhouse

open Number

/-- A value to be evaluated. Where a constant was worked out, `memo` holds it. -/
inductive Expression where
  | firstPerson (span : Span)
  | secondPerson (span : Span)
  | character (span : Span) (name : String)
  | nounPhrase (span : Span) (sign : Polarity) (adjectives : Nat) (memo : Option Int)
  | nothing (span : Span) (memo : Option Int)
  | unary (span : Span) (op : UnaryOperator) (operand : Expression) (memo : Option Int)
  | binary (span : Span) (op : BinaryOperator) (first second : Expression) (memo : Option Int)
  deriving DecidableEq, Repr

namespace Expression

/-- A value that nothing is remembered of yet. -/
def ofValue : Value → Expression
  | .firstPerson s _ => firstPerson s
  | .secondPerson s _ => secondPerson s
  | .character s name => character s (Name.normalizeWords name)
  | .nounPhrase s sign adjectives _ => nounPhrase s sign adjectives.length none
  | .nothing s _ => nothing s none
  | .unary s op x => unary s op (ofValue x) none
  | .binary s op x y => binary s op (ofValue x) (ofValue y) none

/-- The value is the same on every stage. -/
def isConstant : Expression → Bool
  | firstPerson _ | secondPerson _ | character _ _ => false
  | nounPhrase _ _ _ _ | nothing _ _ => true
  | unary _ _ x _ => x.isConstant
  | binary _ _ x y _ => x.isConstant && y.isConstant

/-- What is remembered of a result: constants only. -/
def remembered (constant : Bool) (n : Int) : Option Int := if constant then some n else none

/-- Evaluate for a speaker who is on stage. -/
def evaluatePresent (speaker : String) (stage : Stage) : Expression → Except Fault Int × Expression
  | firstPerson s => (Value.locate s ((stage.character speaker).map Character.value), firstPerson s)
  | secondPerson s =>
    (Value.locate s do
      let other ← stage.opposite speaker
      return (← stage.character other).value, secondPerson s)
  | character s name => (Value.locate s ((stage.character name).map Character.value), character s name)
  | nounPhrase s sign k (some n) => (.ok n, nounPhrase s sign k (some n))
  | nounPhrase s sign k none => (.ok (nounWorth sign k), nounPhrase s sign k (some (nounWorth sign k)))
  | nothing s (some n) => (.ok n, nothing s (some n))
  | nothing s none => (.ok 0, nothing s (some 0))
  | unary s op x (some n) => (.ok n, unary s op x (some n))
  | unary s op x none =>
    match x.evaluatePresent speaker stage with
    | (.error f, x') => (.error (f.locate s), unary s op x' none)
    | (.ok a, x') =>
      match op.apply a with
      | .error f => (.error (f.locate s), unary s op x' none)
      | .ok n => (.ok n, unary s op x' (remembered x.isConstant n))
  | binary s op x y (some n) => (.ok n, binary s op x y (some n))
  | binary s op x y none =>
    match x.evaluatePresent speaker stage with
    | (.error f, x') => (.error (f.locate s), binary s op x' y none)
    | (.ok a, x') =>
      match y.evaluatePresent speaker stage with
      | (.error f, y') => (.error (f.locate s), binary s op x' y' none)
      | (.ok b, y') =>
        match op.apply a b with
        | .error f => (.error (f.locate s), binary s op x' y' none)
        | .ok n => (.ok n, binary s op x' y' (remembered (x.isConstant && y.isConstant) n))

/-- Evaluate for a speaker. -/
def evaluate (speaker : String) (stage : Stage) (e : Expression) : Except Fault Int × Expression :=
  match stage.checkPresent speaker with
  | .error f => (.error f, e)
  | .ok _ => e.evaluatePresent speaker stage

end Expression

end Playhouse
