import Playhouse.Expression

/-!
# Playhouse.Proofs.Evaluation — the ways an evaluation can go

`e.Evaluates speaker stage r e'` says how `e` comes to the result `r` and becomes `e'`: one rule for each way
through `evaluatePresent`, with the faults of the parts and those of the operations apart. Every evaluation goes by
these rules (`evaluates`), and they allow no other result (`Evaluates.eq`). Only these two proofs open the
function; what evaluation does is shown by induction over the rules.
-/

namespace Playhouse.Expression

open Number

/-- What is remembered of the whole expression. -/
def memo? : Expression → Option Int
  | firstPerson _ | secondPerson _ | character _ _ => none
  | nounPhrase _ _ _ memo | nothing _ memo | unary _ _ _ memo | binary _ _ _ _ memo => memo

/-- An evaluation for a speaker who is on stage: the expression, the result, and the expression afterwards. -/
inductive Evaluates (speaker : String) (stage : Stage) : Expression → Except Fault Int → Expression → Prop
  | firstPerson {s : Span} : Evaluates speaker stage (firstPerson s)
      (Value.locate s ((stage.character speaker).map Character.value)) (firstPerson s)
  | secondPerson {s : Span} : Evaluates speaker stage (secondPerson s)
      (Value.locate s do return (← stage.character (← stage.opposite speaker)).value) (secondPerson s)
  | character {s : Span} {name : String} : Evaluates speaker stage (character s name)
      (Value.locate s ((stage.character name).map Character.value)) (character s name)
  | recalled {e : Expression} {n : Int} : e.memo? = some n → Evaluates speaker stage e (.ok n) e
  | nounPhrase {s : Span} {sign : Polarity} {k : Nat} : Evaluates speaker stage (nounPhrase s sign k none)
      (.ok (nounWorth sign k)) (nounPhrase s sign k (some (nounWorth sign k)))
  | nothing {s : Span} : Evaluates speaker stage (nothing s none) (.ok 0) (nothing s (some 0))
  | operandFault {s : Span} {op : UnaryOperator} {x x' : Expression} {f : Fault} :
      Evaluates speaker stage x (.error f) x' →
      Evaluates speaker stage (unary s op x none) (.error (f.locate s)) (unary s op x' none)
  | unaryFault {s : Span} {op : UnaryOperator} {x x' : Expression} {a : Int} {f : Fault} :
      Evaluates speaker stage x (.ok a) x' → op.apply a = .error f →
      Evaluates speaker stage (unary s op x none) (.error (f.locate s)) (unary s op x' none)
  | unary {s : Span} {op : UnaryOperator} {x x' : Expression} {a n : Int} :
      Evaluates speaker stage x (.ok a) x' → op.apply a = .ok n →
      Evaluates speaker stage (unary s op x none) (.ok n) (unary s op x' (remembered x.isConstant n))
  | firstFault {s : Span} {op : BinaryOperator} {x x' y : Expression} {f : Fault} :
      Evaluates speaker stage x (.error f) x' →
      Evaluates speaker stage (binary s op x y none) (.error (f.locate s)) (binary s op x' y none)
  | secondFault {s : Span} {op : BinaryOperator} {x x' y y' : Expression} {a : Int} {f : Fault} :
      Evaluates speaker stage x (.ok a) x' → Evaluates speaker stage y (.error f) y' →
      Evaluates speaker stage (binary s op x y none) (.error (f.locate s)) (binary s op x' y' none)
  | binaryFault {s : Span} {op : BinaryOperator} {x x' y y' : Expression} {a b : Int} {f : Fault} :
      Evaluates speaker stage x (.ok a) x' → Evaluates speaker stage y (.ok b) y' → op.apply a b = .error f →
      Evaluates speaker stage (binary s op x y none) (.error (f.locate s)) (binary s op x' y' none)
  | binary {s : Span} {op : BinaryOperator} {x x' y y' : Expression} {a b n : Int} :
      Evaluates speaker stage x (.ok a) x' → Evaluates speaker stage y (.ok b) y' → op.apply a b = .ok n →
      Evaluates speaker stage (binary s op x y none) (.ok n)
        (binary s op x' y' (remembered (x.isConstant && y.isConstant) n))

variable {speaker : String} {stage : Stage}

theorem evaluatePresent_of_memo? {e : Expression} {n : Int} (h : e.memo? = some n) :
    e.evaluatePresent speaker stage = (.ok n, e) := by
  cases e with
  | firstPerson | secondPerson | character => cases h
  | nounPhrase | nothing | unary | binary =>
    cases h
    rfl

/-- Every evaluation goes one of these ways. -/
theorem evaluates (e : Expression) :
    e.Evaluates speaker stage (e.evaluatePresent speaker stage).1 (e.evaluatePresent speaker stage).2 := by
  induction e with
  | firstPerson s => exact .firstPerson
  | secondPerson s => exact .secondPerson
  | character s name => exact .character
  | nounPhrase s sign k memo =>
    cases memo with
    | none => exact .nounPhrase
    | some n => exact .recalled rfl
  | nothing s memo =>
    cases memo with
    | none => exact .nothing
    | some n => exact .recalled rfl
  | unary s op x memo ih =>
    cases memo with
    | some n => exact .recalled rfl
    | none =>
      unfold evaluatePresent
      split
      · next f x' hx =>
        rw [hx] at ih
        exact .operandFault ih
      · next a x' hx =>
        rw [hx] at ih
        split
        · next f happly => exact .unaryFault ih happly
        · next n happly => exact .unary ih happly
  | binary s op x y memo ihx ihy =>
    cases memo with
    | some n => exact .recalled rfl
    | none =>
      unfold evaluatePresent
      split
      · next f x' hx =>
        rw [hx] at ihx
        exact .firstFault ihx
      · next a x' hx =>
        rw [hx] at ihx
        split
        · next f y' hy =>
          rw [hy] at ihy
          exact .secondFault ihx ihy
        · next b y' hy =>
          rw [hy] at ihy
          split
          · next f happly => exact .binaryFault ihx ihy happly
          · next n happly => exact .binary ihx ihy happly

theorem Evaluates.eq {e e' : Expression} {r : Except Fault Int} (h : e.Evaluates speaker stage r e') :
    e.evaluatePresent speaker stage = (r, e') := by
  induction h with
  | firstPerson | secondPerson | character | nounPhrase | nothing => rfl
  | recalled hmemo => exact evaluatePresent_of_memo? hmemo
  | operandFault _ ih => simp only [evaluatePresent, ih]
  | unaryFault _ happly ih => simp only [evaluatePresent, ih, happly]
  | unary _ happly ih => simp only [evaluatePresent, ih, happly]
  | firstFault _ ih => simp only [evaluatePresent, ih]
  | secondFault _ _ ihx ihy => simp only [evaluatePresent, ihx, ihy]
  | binaryFault _ _ happly ihx ihy => simp only [evaluatePresent, ihx, ihy, happly]
  | binary _ _ happly ihx ihy => simp only [evaluatePresent, ihx, ihy, happly]

end Playhouse.Expression
