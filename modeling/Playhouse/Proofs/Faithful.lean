import Playhouse.Proofs.Constants
import Playhouse.Proofs.Layout
import Playhouse.Proofs.Remembering

/-!
# Playhouse.Proofs.Faithful — scripts that remember what is right

An expression is faithful if all it remembers is what its value is worth. Evaluation keeps that, a script is laid
out with nothing remembered, and what is kept at a position is what an evaluation has left there. Faithful
expressions that differ only in what they remember have the same outcome everywhere
(`Expression.Faithful.outcome_eq`).
-/

namespace Playhouse

/-! ### Expressions -/

/-- Each part of the expression remembers at most what it is worth. -/
def Expression.Faithful (e : Expression) : Prop := ∃ v, Recalls v e

theorem Recalls.forget_eq {v : Value} {e : Expression} (h : Recalls v e) : e.forget = Expression.ofValue v := by
  induction h with
  | firstPerson s word => rfl
  | secondPerson s word => rfl
  | character s name => rfl
  | nounPhrase _ => rfl
  | nothing _ => rfl
  | unary _ _ ih => rw [Expression.forget, ih, Expression.ofValue]
  | binary _ _ _ ihx ihy => rw [Expression.forget, ihx, ihy, Expression.ofValue]

namespace Expression

theorem faithful_ofValue (v : Value) : (ofValue v).Faithful := ⟨v, recalls_ofValue v⟩

theorem Faithful.evaluate {e : Expression} (h : e.Faithful) (speaker : String) (stage : Stage) :
    (e.evaluate speaker stage).2.Faithful := by
  obtain ⟨v, hv⟩ := h
  exact ⟨v, (hv.evaluate speaker stage).2⟩

/-- An evaluation has the outcome that it has if nothing is remembered. -/
theorem Faithful.outcome {e : Expression} (h : e.Faithful) (speaker : String) (stage : Stage) :
    (e.evaluate speaker stage).1 = (e.forget.evaluate speaker stage).1 := by
  obtain ⟨v, hv⟩ := h
  rw [hv.forget_eq, (hv.evaluate speaker stage).1, ((recalls_ofValue v).evaluate speaker stage).1]

theorem Faithful.outcome_eq {e e' : Expression} (h : e.Faithful) (h' : e'.Faithful)
    (hforget : e.forget = e'.forget) (speaker : String) (stage : Stage) :
    (e.evaluate speaker stage).1 = (e'.evaluate speaker stage).1 := by
  rw [h.outcome, h'.outcome, hforget]

/-- The other expression is this one with something right remembered. -/
def Redone (e e' : Expression) : Prop := e'.Faithful ∧ e'.forget = e.forget

end Expression

/-! ### Operations and scripts -/

/-- The expressions of the action are faithful. -/
def Action.Faithful : Action Expression → Prop
  | question _ _ x y => x.Faithful ∧ y.Faithful
  | assignment x | push x => x.Faithful
  | input _ | output _ | pop _ | goto _ _ => True

/-- The other action is this one with something right remembered. -/
def Action.Redone (a a' : Action Expression) : Prop := a'.Faithful ∧ a'.forget = a.forget

/-- The expressions of the operation are faithful. -/
def Operation.Faithful (op : Operation) : Prop :=
  ∀ speaker condition a, op.deed = .speak speaker condition a → a.Faithful

/-- All that the script remembers is right. -/
def Script.Faithful (s : Script) : Prop := ∀ op ∈ s.operations, op.Faithful

theorem faithful_ofSentence (speaker : String) (s : Sentence) : (Operation.ofSentence speaker s).Faithful := by
  rintro _ _ _ ⟨⟩
  cases s.action with
  | question comparison words x y => exact ⟨Expression.faithful_ofValue x, Expression.faithful_ofValue y⟩
  | assignment x => exact Expression.faithful_ofValue x
  | push x => exact Expression.faithful_ofValue x
  | input medium => trivial
  | output medium => trivial
  | pop recalled => trivial
  | goto target numeral => trivial

theorem faithful_ofEvent {e : Event} {op : Operation} (hop : op ∈ Operation.ofEvent e) : op.Faithful := by
  cases e with
  | line span speaker sentences =>
    obtain ⟨s, -, rfl⟩ := List.mem_map.mp hop
    exact faithful_ofSentence _ s
  | breakpoint span =>
    rw [List.mem_singleton.mp hop]
    rintro _ _ _ ⟨⟩
  | entrance span names =>
    rw [List.mem_singleton.mp hop]
    rintro _ _ _ ⟨⟩
  | exit span name =>
    rw [List.mem_singleton.mp hop]
    rintro _ _ _ ⟨⟩
  | exeunt span names =>
    cases names with
    | none =>
      rw [List.mem_singleton.mp hop]
      rintro _ _ _ ⟨⟩
    | some names =>
      rw [List.mem_singleton.mp hop]
      rintro _ _ _ ⟨⟩

theorem Script.faithful_ofActs (source : List Char) (as : List Act) : (Script.ofActs source as).Faithful := by
  intro op hop
  obtain ⟨a, -, ha⟩ := List.mem_flatMap.mp hop
  obtain ⟨s, -, hs⟩ := List.mem_flatMap.mp ha
  obtain ⟨e, -, he⟩ := List.mem_flatMap.mp hs
  exact faithful_ofEvent he

/-- What is kept in a faithful script leaves it faithful. -/
theorem Script.Faithful.remember {s : Script} (h : s.Faithful) (position : Int) {a : Action Expression}
    (ha : a.Faithful) :
    (s.remember position a).Faithful := by
  intro op hop
  obtain ⟨i, hi⟩ := List.mem_iff_getElem?.mp hop
  unfold Script.remember at hi
  rw [List.getElem?_modify] at hi
  obtain ⟨op', hop', rfl⟩ := Option.map_eq_some_iff.mp hi
  have hold := h op' (List.mem_of_getElem? hop')
  by_cases hat : Source.clampIndex s.operations.length position = i
  · rw [if_pos hat]
    intro speaker condition b hb
    unfold Operation.withAction at hb
    cases hdeed : op'.deed with
    | speak speaker' condition' a' =>
      rw [hdeed] at hb
      cases hb
      exact ha
    | _ =>
      rw [hdeed] at hb
      exact hold speaker condition b hb
  · rw [if_neg hat]
    exact hold

end Playhouse
