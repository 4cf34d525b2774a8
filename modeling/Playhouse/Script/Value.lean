import Playhouse.Grammar.Tree
import Playhouse.Name
import Playhouse.Number.Arithmetic
import Playhouse.Stage

/-!
# Playhouse.Script.Value — the values that sentences speak of

A noun phrase is worth one or minus one, doubled for each adjective. `Value.eval` is the meaning of a value on a
stage; an error is placed at the innermost operation or pronoun that caused it.
-/

namespace Playhouse

open Grammar Number

/-- Good and neutral nouns are positive. -/
inductive Polarity where
  | negative
  | positive
  deriving DecidableEq, Repr

/-- A value, as it is written. -/
inductive Value where
  | firstPerson (span : Span) (word : String)
  | secondPerson (span : Span) (word : String)
  | character (span : Span) (name : List String)
  | nounPhrase (span : Span) (sign : Polarity) (adjectives : List (List String)) (noun : List String)
  | nothing (span : Span) (word : String)
  | unary (span : Span) (op : UnaryOperator) (operand : Value)
  | binary (span : Span) (op : BinaryOperator) (first second : Value)
  deriving DecidableEq, Repr

/-- The operation on one value that the words name. -/
def unaryOperator? : List String → Option UnaryOperator
  | ["the", "cube", "of"] => some .cube
  | ["the", "factorial", "of"] => some .factorial
  | ["the", "square", "of"] => some .square
  | ["the", "square", "root", "of"] => some .squareRoot
  | ["twice"] => some .twice
  | _ => none

/-- The operation on two values that the words name. -/
def binaryOperator? : List String → Option BinaryOperator
  | ["the", "difference", "between"] => some .difference
  | ["the", "product", "of"] => some .product
  | ["the", "quotient", "between"] => some .quotient
  | ["the", "remainder", "of", "the", "quotient", "between"] => some .remainder
  | ["the", "sum", "of"] => some .sum
  | _ => none

/-- The worth of a noun phrase with so many adjectives. -/
def nounWorth (sign : Polarity) (adjectives : Nat) : Int :=
  match sign with
  | .negative => -(Nat.pow 2 adjectives : Int)
  | .positive => (Nat.pow 2 adjectives : Int)

namespace Value

/-- Where a value is written. -/
def span : Value → Span
  | firstPerson s _ | secondPerson s _ | character s _ | nounPhrase s _ _ _ | nothing s _ | unary s _ _
  | binary s _ _ _ => s

/-- A noun phrase from the fields of its tree. -/
def nounPhraseOf? (span : Span) (sign : Polarity) (fields : List (Field × Tree)) : Option Value := do
  let adjectives ← (← (← fields.lookup .adjectives).members?).mapM Tree.words?
  let noun ← (← fields.lookup .noun).words?
  return nounPhrase span sign adjectives noun

/-- The value that a tree describes. -/
def ofTree? (t : Tree) : Option Value :=
  match t with
  | .node .firstPersonValue span fields => do
    return firstPerson span (← (← fields.lookup .firstPersonWord).word?)
  | .node .secondPersonValue span fields => do
    return secondPerson span (← (← fields.lookup .secondPersonWord).word?)
  | .node .characterName span fields => do return character span (← (← fields.lookup .name).words?)
  | .node .negativeNounPhrase span fields => nounPhraseOf? span .negative fields
  | .node .positiveNounPhrase span fields => nounPhraseOf? span .positive fields
  | .node .nothing span fields => do return nothing span (← (← fields.lookup .nothingWord).word?)
  | .node .unaryExpression span fields =>
    match _h : fields.lookup .value with
    | none => none
    | some x => do
      let op ← unaryOperator? (← (← fields.lookup .operation).words?)
      return unary span op (← ofTree? x)
  | .node .binaryExpression span fields =>
    match _h : fields.lookup .firstValue, _k : fields.lookup .secondValue with
    | some x, some y => do
      let op ← binaryOperator? (← (← fields.lookup .operation).words?)
      let first ← ofTree? x
      return binary span op first (← ofTree? y)
    | _, _ => none
  | _ => none
termination_by sizeOf t
decreasing_by
  · have := Tree.sizeOf_lookup _h
    simp_wf
    omega
  · have := Tree.sizeOf_lookup _h
    simp_wf
    omega
  · have := Tree.sizeOf_lookup _k
    simp_wf
    omega

/-- An outcome whose error, if it has no place yet, is placed at `span`. -/
def locate {α : Type} (span : Span) : Except Fault α → Except Fault α
  | .ok a => .ok a
  | .error f => .error (f.locate span)

/-- The meaning of a value for a speaker who is on stage. -/
def evalPresent (speaker : String) (stage : Stage) : Value → Except Fault Int
  | firstPerson s _ => locate s ((stage.character speaker).map Character.value)
  | secondPerson s _ =>
    locate s do
      let other ← stage.opposite speaker
      return (← stage.character other).value
  | character s name => locate s ((stage.character (Name.normalizeWords name)).map Character.value)
  | nounPhrase _ sign adjectives _ => .ok (nounWorth sign adjectives.length)
  | nothing _ _ => .ok 0
  | unary s op x => locate s do op.apply (← x.evalPresent speaker stage)
  | binary s op x y =>
    locate s do
      let a ← x.evalPresent speaker stage
      let b ← y.evalPresent speaker stage
      op.apply a b

/-- The meaning of a value for a speaker. -/
def eval (speaker : String) (stage : Stage) (v : Value) : Except Fault Int := do
  stage.checkPresent speaker
  v.evalPresent speaker stage

end Value

end Playhouse
