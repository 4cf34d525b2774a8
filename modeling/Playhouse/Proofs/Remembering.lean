import Mathlib.Tactic.SplitIfs
import Playhouse.Proofs.Evaluation
import Playhouse.Script

/-!
# Playhouse.Proofs.Remembering — a script but for its remembered constants

A performance keeps the constants it has worked out in the expressions of its script. `forget` takes them out
again. Evaluation changes nothing else in an expression, a script is laid out with nothing remembered, and what is
kept at a position is kept in the operation that stands there. So a script, but for what it remembers, never
changes.
-/

namespace Playhouse

/-! ### Forgetting -/

/-- The expression with nothing remembered. -/
def Expression.forget : Expression → Expression
  | firstPerson s => firstPerson s
  | secondPerson s => secondPerson s
  | character s name => character s name
  | nounPhrase s sign k _ => nounPhrase s sign k none
  | nothing s _ => nothing s none
  | unary s op x _ => unary s op x.forget none
  | binary s op x y _ => binary s op x.forget y.forget none

/-- The action with nothing remembered. -/
def Action.forget (a : Action Expression) : Action Expression := a.map Expression.forget

/-- The deed with nothing remembered. -/
def Deed.forget : Deed → Deed
  | speak speaker condition a => speak speaker condition a.forget
  | d => d

/-- The operation with nothing remembered. -/
def Operation.forget (op : Operation) : Operation := ⟨op.span, op.deed.forget⟩

/-- The script with nothing remembered. -/
def Script.forget (s : Script) : Script := { s with operations := s.operations.map Operation.forget }

theorem Deed.eq_of_forget_eq_speak {d : Deed} {speaker : String} {condition : Option Condition}
    {a : Action Expression} (h : d.forget = .speak speaker condition a) :
    ∃ b, d = .speak speaker condition b ∧ b.forget = a := by
  cases d with
  | speak speaker' condition' b =>
    obtain ⟨rfl, rfl, hb⟩ := Deed.speak.inj h
    exact ⟨b, rfl, hb⟩
  | enter names => cases h
  | exit name => cases h
  | exeunt names => cases h
  | exeuntAll => cases h
  | breakpoint => cases h

/-- Only sentences remember something. -/
theorem Deed.eq_of_forget_eq {d d' : Deed} (h : d'.forget = d.forget)
    (hd : ∀ speaker condition a, d ≠ .speak speaker condition a) : d' = d := by
  cases d with
  | speak speaker condition a => exact absurd rfl (hd speaker condition a)
  | _ =>
    cases d' <;> cases h
    rfl

theorem forget_ofValue (v : Value) : (Expression.ofValue v).forget = Expression.ofValue v := by
  induction v with
  | unary s op x ih => rw [Expression.ofValue, Expression.forget, ih]
  | binary s op x y ihx ihy => rw [Expression.ofValue, Expression.forget, ihx, ihy]
  | firstPerson s word => rfl
  | secondPerson s word => rfl
  | character s name => rfl
  | nounPhrase s sign adjectives noun => rfl
  | nothing s word => rfl

theorem forget_ofSentence (speaker : String) (s : Sentence) :
    (Operation.ofSentence speaker s).forget = Operation.ofSentence speaker s := by
  unfold Operation.ofSentence Operation.forget Deed.forget Action.forget
  cases s.action <;> simp only [Action.map, forget_ofValue]

theorem forget_ofEvent (e : Event) : (Operation.ofEvent e).map Operation.forget = Operation.ofEvent e := by
  cases e with
  | line span speaker sentences =>
    unfold Operation.ofEvent
    rw [List.map_map]
    exact List.map_congr_left fun s _ => forget_ofSentence _ s
  | exeunt span names => cases names <;> rfl
  | breakpoint span => rfl
  | entrance span names => rfl
  | exit span name => rfl

/-! ### Evaluation -/

theorem Expression.Evaluates.forget_eq {speaker : String} {stage : Stage} {e e' : Expression}
    {r : Except Fault Int} (h : e.Evaluates speaker stage r e') : e'.forget = e.forget := by
  induction h with
  | firstPerson | secondPerson | character | recalled | nounPhrase | nothing => rfl
  | operandFault _ ih | unaryFault _ _ ih | unary _ _ ih | firstFault _ ih => simp only [Expression.forget, ih]
  | secondFault _ _ ihx ihy | binaryFault _ _ _ ihx ihy | binary _ _ _ ihx ihy =>
    simp only [Expression.forget, ihx, ihy]

/-- Evaluation changes an expression at most in what it remembers. -/
theorem forget_evaluate (speaker : String) (stage : Stage) (e : Expression) :
    (e.evaluate speaker stage).2.forget = e.forget := by
  unfold Expression.evaluate
  split
  · rfl
  · exact (Expression.evaluates e).forget_eq

/-! ### Scripts -/

theorem clampIndex_of_at? {α : Type} {xs : List α} {i : Int} {x : α} (h : Source.at? xs i = some x) :
    xs[Source.clampIndex xs.length i]? = some x := by
  unfold Source.at? at h
  unfold Source.clampIndex
  by_cases hi : i < 0
  · rw [if_pos hi] at h ⊢
    split_ifs at h
    exact h
  · rw [if_neg hi] at h ⊢
    obtain ⟨hlt, -⟩ := List.getElem?_eq_some_iff.mp h
    rw [Nat.min_eq_left (Nat.le_of_lt hlt)]
    exact h

theorem at?_map {α β : Type} (f : α → β) (xs : List α) (i : Int) :
    Source.at? (xs.map f) i = (Source.at? xs i).map f := by
  unfold Source.at?
  rw [List.length_map]
  split_ifs <;> simp

theorem Script.operation?_forget (s : Script) (position : Int) :
    s.forget.operation? position = (s.operation? position).map Operation.forget :=
  at?_map Operation.forget s.operations position

/-- The operation at a position may take an action that differs from its own only in what is remembered. -/
theorem Script.forget_remember {s : Script} {position : Int} {op : Operation} {speaker : String}
    {condition : Option Condition} {a a' : Action Expression} (hop : s.operation? position = some op)
    (hdeed : op.deed = .speak speaker condition a) (ha : a'.forget = a.forget) :
    (s.remember position a').forget = s.forget := by
  have hat : s.operations[Source.clampIndex s.operations.length position]? = some op := clampIndex_of_at? hop
  have hact : (op.withAction a').forget = op.forget := by
    unfold Operation.withAction Operation.forget
    rw [hdeed]
    simp only [Deed.forget, ha]
  unfold Script.remember Script.forget
  simp only [Script.mk.injEq, and_true, true_and]
  apply List.ext_getElem?
  intro i
  rw [List.getElem?_map, List.getElem?_map, List.getElem?_modify]
  by_cases hi : Source.clampIndex s.operations.length position = i
  · rw [← hi, hat]
    simp [hact]
  · simp [hi]

/-- What an operation works out is kept where it stands. Something may have been kept before, so that the operation
there is no longer `op` but like it. -/
theorem Script.forget_remember_again {s s' : Script} {position : Int} {op : Operation} {speaker : String}
    {condition : Option Condition} {a a' : Action Expression} (hs : s'.forget = s.forget)
    (hop : s.operation? position = some op) (hdeed : op.deed = .speak speaker condition a)
    (ha : a'.forget = a.forget) :
    (s'.remember position a').forget = s.forget := by
  have hforget : (s'.operation? position).map Operation.forget = some op.forget := by
    rw [← operation?_forget, hs, operation?_forget, hop]
    rfl
  obtain ⟨op', hop', hsame⟩ := Option.map_eq_some_iff.mp hforget
  have hdeed' : op'.deed.forget = .speak speaker condition a.forget := by
    rw [show op'.deed.forget = op.deed.forget from congrArg Operation.deed hsame, hdeed]
    rfl
  obtain ⟨b, hb, hbforget⟩ := Deed.eq_of_forget_eq_speak hdeed'
  rw [forget_remember hop' hb (ha.trans hbforget.symm), hs]

end Playhouse
