import Playhouse.Proofs.Evaluation

/-!
# Playhouse.Proofs.Constants — remembered constants are never seen

An expression that was evaluated remembers its constants, and what is remembered is returned without looking at the
stage again. `Value.evalThroughout` remembers nothing and looks for the speaker at every part of a value.
`Recalls v e` ties each memory of `e` to a worth that the part of `v` has on every stage; evaluation gives what the
value means and keeps this. Main statement: `remembering_invisible`.
-/

namespace Playhouse

/-! ### Evaluation without memory -/

/-- The meaning of a value, with the speaker looked for anew at every part of it. -/
def Value.evalThroughout (speaker : String) (stage : Stage) : Value → Except Fault Int
  | .unary s op x => do
    stage.checkPresent speaker
    locate s do op.apply (← x.evalThroughout speaker stage)
  | .binary s op x y => do
    stage.checkPresent speaker
    locate s do
      let a ← x.evalThroughout speaker stage
      let b ← y.evalThroughout speaker stage
      op.apply a b
  | v => v.eval speaker stage

/-- Once the speaker is found on stage, the parts find the speaker too. -/
theorem evalThroughout_eq_eval (speaker : String) (stage : Stage) (v : Value) :
    v.evalThroughout speaker stage = v.eval speaker stage := by
  induction v with
  | unary s op x ih =>
    unfold Value.evalThroughout Value.eval
    rw [ih]
    unfold Value.eval
    cases stage.checkPresent speaker <;> rfl
  | binary s op x y ihx ihy =>
    unfold Value.evalThroughout Value.eval
    rw [ihx, ihy]
    unfold Value.eval
    cases stage.checkPresent speaker <;> rfl
  | firstPerson s word => rfl
  | secondPerson s word => rfl
  | character s name => rfl
  | nounPhrase s sign adjectives noun => rfl
  | nothing s word => rfl

/-! ### What may be remembered -/

/-- Whatever is remembered is what the value means to everybody on every stage. -/
def Value.Worth (v : Value) (memo : Option Int) : Prop :=
  ∀ n, memo = some n → ∀ speaker stage, v.evalPresent speaker stage = .ok n

/-- `e` is the expression of `v`, and each of its parts remembers at most what that part of `v` is worth. -/
inductive Recalls : Value → Expression → Prop
  | firstPerson (s : Span) (word : String) : Recalls (.firstPerson s word) (.firstPerson s)
  | secondPerson (s : Span) (word : String) : Recalls (.secondPerson s word) (.secondPerson s)
  | character (s : Span) (name : List String) :
      Recalls (.character s name) (.character s (Name.normalizeWords name))
  | nounPhrase {s : Span} {sign : Polarity} {adjectives : List (List String)} {noun : List String}
      {memo : Option Int} :
      (Value.nounPhrase s sign adjectives noun).Worth memo →
      Recalls (.nounPhrase s sign adjectives noun) (.nounPhrase s sign adjectives.length memo)
  | nothing {s : Span} {word : String} {memo : Option Int} :
      (Value.nothing s word).Worth memo → Recalls (.nothing s word) (.nothing s memo)
  | unary {s : Span} {op : Number.UnaryOperator} {v : Value} {x : Expression} {memo : Option Int} :
      Recalls v x → (Value.unary s op v).Worth memo → Recalls (.unary s op v) (.unary s op x memo)
  | binary {s : Span} {op : Number.BinaryOperator} {v w : Value} {x y : Expression} {memo : Option Int} :
      Recalls v x → Recalls w y → (Value.binary s op v w).Worth memo →
      Recalls (.binary s op v w) (.binary s op x y memo)

theorem Value.worth_none (v : Value) : v.Worth none := fun _ h => nomatch h

/-- A result may be remembered of a value that means the same to everybody on every stage. -/
theorem Value.worth_remembered {v : Value} {constant : Bool} {n : Int} {speaker : String} {stage : Stage}
    (h : v.evalPresent speaker stage = .ok n)
    (hc : constant = true → ∀ speaker' stage', v.evalPresent speaker' stage' = v.evalPresent speaker stage) :
    v.Worth (Expression.remembered constant n) := by
  intro m hm speaker' stage'
  unfold Expression.remembered at hm
  split at hm
  · next hconst =>
    rw [hc hconst, h, Option.some.inj hm]
  · cases hm

theorem recalls_ofValue (v : Value) : Recalls v (Expression.ofValue v) := by
  induction v with
  | firstPerson s word => exact Recalls.firstPerson s word
  | secondPerson s word => exact Recalls.secondPerson s word
  | character s name => exact Recalls.character s name
  | nounPhrase s sign adjectives noun => exact Recalls.nounPhrase (Value.worth_none _)
  | nothing s word => exact Recalls.nothing (Value.worth_none _)
  | unary s op x ih => exact Recalls.unary ih (Value.worth_none _)
  | binary s op x y ihx ihy => exact Recalls.binary ihx ihy (Value.worth_none _)

/-- Constants mean the same to everybody on every stage, also if they mean an error. -/
theorem Recalls.constant {v : Value} {e : Expression} (h : Recalls v e) (hc : e.isConstant = true)
    (speaker speaker' : String) (stage stage' : Stage) :
    v.evalPresent speaker' stage' = v.evalPresent speaker stage := by
  induction h with
  | firstPerson s word => cases hc
  | secondPerson s word => cases hc
  | character s name => cases hc
  | nounPhrase _ => rfl
  | nothing _ => rfl
  | unary _ _ ih =>
    unfold Value.evalPresent
    rw [ih hc]
  | binary _ _ _ ihx ihy =>
    obtain ⟨hx, hy⟩ := Bool.and_eq_true_iff.mp hc
    unfold Value.evalPresent
    rw [ihx hx, ihy hy]

/-! ### Evaluation -/

theorem Recalls.worth {v : Value} {e : Expression} (h : Recalls v e) : v.Worth e.memo? := by
  cases h with
  | firstPerson | secondPerson | character => exact Value.worth_none _
  | nounPhrase hw | nothing hw | unary _ hw | binary _ _ hw => exact hw

theorem Value.evalPresent_unary {speaker : String} {stage : Stage} {s : Span}
    {op : Number.UnaryOperator} {v : Value} {a : Int} (h : v.evalPresent speaker stage = .ok a) :
    (Value.unary s op v).evalPresent speaker stage = locate s (op.apply a) := by
  rw [evalPresent, h]
  rfl

theorem Value.evalPresent_binary {speaker : String} {stage : Stage} {s : Span} {op : Number.BinaryOperator}
    {v w : Value} {a b : Int} (hv : v.evalPresent speaker stage = .ok a)
    (hw : w.evalPresent speaker stage = .ok b) :
    (Value.binary s op v w).evalPresent speaker stage = locate s (op.apply a b) := by
  rw [evalPresent, hv, hw]
  rfl

/-- An evaluation gives what the value means, and what it remembers is right again. -/
theorem Expression.Evaluates.recalls {speaker : String} {stage : Stage} {e e' : Expression} {r : Except Fault Int}
    (he : e.Evaluates speaker stage r e') :
    ∀ {v : Value}, Recalls v e → v.evalPresent speaker stage = r ∧ Recalls v e' := by
  induction he with
  | firstPerson | secondPerson | character =>
    intro v h
    cases h
    exact ⟨rfl, by constructor⟩
  | recalled hmemo => exact fun h => ⟨h.worth _ hmemo speaker stage, h⟩
  | nounPhrase =>
    intro v h
    cases h
    exact ⟨rfl, .nounPhrase fun n hn _ _ => congrArg Except.ok (Option.some.inj hn)⟩
  | nothing =>
    intro v h
    cases h
    exact ⟨rfl, .nothing fun n hn _ _ => congrArg Except.ok (Option.some.inj hn)⟩
  | operandFault _ ih =>
    intro v h
    cases h with
    | unary hx =>
      obtain ⟨hv, hx'⟩ := ih hx
      refine ⟨?_, .unary hx' (Value.worth_none _)⟩
      rw [Value.evalPresent, hv]
      rfl
  | unaryFault _ happly ih =>
    intro v h
    cases h with
    | unary hx =>
      obtain ⟨hv, hx'⟩ := ih hx
      refine ⟨?_, .unary hx' (Value.worth_none _)⟩
      rw [Value.evalPresent_unary hv, happly, Value.locate]
  | @unary s op x x' a n _ happly ih =>
    intro _ h
    cases h with
    | @unary _ _ v _ _ hx =>
      obtain ⟨hv, hx'⟩ := ih hx
      have heval : (Value.unary s op v).evalPresent speaker stage = .ok n := by
        rw [Value.evalPresent_unary hv, happly, Value.locate]
      refine ⟨heval, .unary hx' (Value.worth_remembered heval fun hc speaker' stage' => ?_)⟩
      simp only [Value.evalPresent, hx.constant hc speaker speaker' stage stage']
  | firstFault _ ih =>
    intro v h
    cases h with
    | binary hx hy =>
      -- the second operand was not looked at: what it remembers is what it remembered before
      obtain ⟨hv, hx'⟩ := ih hx
      refine ⟨?_, .binary hx' hy (Value.worth_none _)⟩
      rw [Value.evalPresent, hv]
      rfl
  | secondFault _ _ ihx ihy =>
    intro v h
    cases h with
    | binary hx hy =>
      obtain ⟨hv, hx'⟩ := ihx hx
      obtain ⟨hw, hy'⟩ := ihy hy
      refine ⟨?_, .binary hx' hy' (Value.worth_none _)⟩
      rw [Value.evalPresent, hv, hw]
      rfl
  | binaryFault _ _ happly ihx ihy =>
    intro v h
    cases h with
    | binary hx hy =>
      obtain ⟨hv, hx'⟩ := ihx hx
      obtain ⟨hw, hy'⟩ := ihy hy
      refine ⟨?_, .binary hx' hy' (Value.worth_none _)⟩
      rw [Value.evalPresent_binary hv hw, happly, Value.locate]
  | @binary s op x x' y y' a b n _ _ happly ihx ihy =>
    intro _ h
    cases h with
    | @binary _ _ v w _ _ _ hx hy =>
      obtain ⟨hv, hx'⟩ := ihx hx
      obtain ⟨hw, hy'⟩ := ihy hy
      have heval : (Value.binary s op v w).evalPresent speaker stage = .ok n := by
        rw [Value.evalPresent_binary hv hw, happly, Value.locate]
      refine ⟨heval, .binary hx' hy' (Value.worth_remembered heval fun hc speaker' stage' => ?_)⟩
      obtain ⟨hcx, hcy⟩ := Bool.and_eq_true_iff.mp hc
      simp only [Value.evalPresent, hx.constant hcx speaker speaker' stage stage',
        hy.constant hcy speaker speaker' stage stage']

theorem Recalls.evaluate {v : Value} {e : Expression} (h : Recalls v e) (speaker : String) (stage : Stage) :
    (e.evaluate speaker stage).1 = v.evalThroughout speaker stage ∧ Recalls v (e.evaluate speaker stage).2 := by
  rw [evalThroughout_eq_eval]
  unfold Expression.evaluate Value.eval
  cases stage.checkPresent speaker with
  | error f => exact ⟨rfl, h⟩
  | ok _ =>
    obtain ⟨hr, he⟩ := (Expression.evaluates e).recalls h
    exact ⟨hr.symm, he⟩

/-- The results of evaluating an expression on one stage after the other. Each evaluation finds what those before
it have remembered. -/
def Expression.evaluations (speaker : String) : Expression → List Stage → List (Except Fault Int)
  | _, [] => []
  | e, stage :: stages =>
    (e.evaluate speaker stage).1 :: (e.evaluate speaker stage).2.evaluations speaker stages

theorem Recalls.evaluations (speaker : String) (stages : List Stage) :
    ∀ {v : Value} {e : Expression}, Recalls v e →
      e.evaluations speaker stages = stages.map fun stage => v.evalThroughout speaker stage := by
  induction stages with
  | nil => exact fun _ => rfl
  | cons stage stages ih =>
    intro v e h
    obtain ⟨houtcome, hnext⟩ := h.evaluate speaker stage
    unfold Expression.evaluations
    rw [houtcome, ih hnext, List.map_cons]

/-- **Remembered constants are never seen.** However the stages differ on which an expression is evaluated in turn,
and whether its evaluations succeed or fail, each gives the number, or the error in its place, that the value has
on that stage if nothing is remembered. -/
theorem remembering_invisible (v : Value) (speaker : String) (stages : List Stage) :
    (Expression.ofValue v).evaluations speaker stages = stages.map fun stage => v.evalThroughout speaker stage :=
  Recalls.evaluations speaker stages (recalls_ofValue v)

end Playhouse
