import Playhouse.Proofs.Hazards

/-!
# Playhouse.Proofs.Keeping — what every step of a performance keeps

`Keeping I E` lists what a condition on performances has to be closed under: the few things that operations are
made of. Whatever satisfies it is kept by operations and steps that succeed, and where they fail `E` is left. Main
statement of this file: `keeps_step`.
-/

namespace Playhouse.PerformanceM

/-- A character takes a number as its value, or onto its stack. -/
def Takes (take : Int → Character → Character) : Prop :=
  (take = fun n c => { c with value := n }) ∨ take = fun n c => c.push n

/-- What operations are made of keeps `I`, and leaves `E` where it fails. Nothing is printed before operations. -/
structure Keeping (I E : Performance → Prop) : Prop where
  fail : ∀ {p}, I p → E p
  notDebug : ∀ {p}, I p → p.style ≠ .debug
  record : ∀ {p} (script : Script), I p → I { p with script := script }
  move : ∀ {p} (n : Int), I p → I { p with position := n }
  answer : ∀ {p} (flag : Bool), I p → I { p with stage := { p.stage with flag := flag } }
  narrate : ∀ {p} (text : String), I p → Ends (narrate text) p (fun _ => I) (fun _ => E)
  direct : ∀ {p} (d : Direction), I p → Ends (onStage d.perform) p (fun _ => I) (fun _ => E)
  give : ∀ {p} {take : Int → Character → Character} (text : String → String) (other : String) (n : Int),
  Takes take → I p →
    Ends (do
        changeCharacter other fun c => .ok (take n c)
        if (← get).style.narrates then printLine (text (← ofBreakdown (Number.numeral n)))) p (fun _ => I)
        (fun _ => E)
  input : ∀ {p} (text : String → String) (other : String) (medium : Medium), I p →
    Ends (do
        let n ← input medium
        if (← get).style.narrates then printLine (text (← ofBreakdown (Number.numeral n)))
        changeCharacter other fun c => .ok { c with value := n }) p (fun _ => I) (fun _ => E)
  pop : ∀ {p} (other : String), I p → Ends (changeCharacter other Character.pop) p (fun _ => I) (fun _ => E)
  output : ∀ {p} (medium : Medium) (n : Int), I p → Ends (output medium n) p (fun _ => I) (fun _ => E)

variable {I E : Performance → Prop} {p : Performance} {speaker : String} (hI : Keeping I E)

include hI

theorem keeps_evaluate {remember : Expression → PerformanceM Unit} {x : Expression} (hrem : Discreet remember)
    (h : I p) : Ends (evaluate speaker remember x) p (fun _ => I) (fun _ => E) := by
  unfold evaluate
  apply ends_bind
  apply ends_get
  generalize x.evaluate speaker p.stage = a
  obtain ⟨outcome, x'⟩ := a
  obtain ⟨script, hscript⟩ := hrem x' p
  have hnext := hI.record script h
  apply ends_bind
  refine ends_of_ok hscript ?_
  cases outcome with
  | ok n => exact ends_pure hnext
  | error f => exact ends_throw (hI.fail hnext)

theorem keeps_look {α : Type} {f : Stage → Except Fault α} {m : α → PerformanceM Unit} (h : I p)
    (hm : ∀ a, Ends (m a) p (fun _ => I) (fun _ => E)) : Ends (look f >>= m) p (fun _ => I) (fun _ => E) :=
  ends_bind (ends_look (fun a _ => hm a) fun _ _ => hI.fail h)

theorem keeps_giving {x : Expression} {remember : Expression → PerformanceM Unit}
    {take : Int → Character → Character} (text : String → String → String) (htake : Takes take)
    (hrem : Discreet remember) (h : I p) :
    Ends (do
        let other ← look (·.opposite speaker)
        let (n, _) ← evaluate speaker remember x
        changeCharacter other fun c => .ok (take n c)
        if (← get).style.narrates then printLine (text other (← ofBreakdown (Number.numeral n)))) p
      (fun _ => I) (fun _ => E) := by
  refine keeps_look hI h fun other => ?_
  refine (keeps_evaluate hI hrem h).bind ?_
  rintro ⟨n, x'⟩ q hq
  exact hI.give (text other) other n htake hq

theorem keeps_performAction {a : Action Expression} {remember : Action Expression → PerformanceM Unit}
    (hrem : Discreet remember) (h : I p) :
    Ends (performAction speaker remember a) p (fun _ => I) (fun _ => E) := by
  cases a with
  | question comparison words x y =>
    unfold performAction
    refine (keeps_evaluate hI (fun x' => hrem _) h).bind ?_
    rintro ⟨m, x'⟩ q hq
    refine (keeps_evaluate hI (fun y' => hrem _) hq).bind ?_
    rintro ⟨n, y'⟩ r hr
    exact (hI.narrate _ hr).bind fun _ t ht => ends_modify (hI.answer _ ht)
  | assignment x =>
    exact keeps_giving hI (fun other numeral => other ++ " set to " ++ numeral) (.inl rfl) (fun x' => hrem _) h
  | input medium => exact keeps_look hI h fun other => hI.input _ other medium h
  | output medium =>
    refine keeps_look hI h fun other => keeps_look hI h fun c => ?_
    exact (hI.narrate _ h).bind fun _ q hq => hI.output medium c.value hq
  | push x =>
    exact keeps_giving hI (fun other numeral => other ++ " pushed " ++ numeral) (.inr rfl) (fun x' => hrem _) h
  | pop recalled => exact keeps_look hI h fun other => (hI.pop other h).bind fun _ q hq => hI.narrate _ hq
  | goto target numeral => exact ends_pure h

theorem keeps_jump (target : Target) (numeral : String) (h : I p) :
    Ends (jump target numeral) p (fun _ => I) (fun _ => E) := by
  unfold jump
  refine (hI.narrate _ h).bind fun _ q hq => ?_
  apply ends_bind
  apply ends_get
  split
  · exact ends_set (hI.move _ hq)
  · exact ends_throw (hI.fail hq)

theorem keeps_performSentence {span : Span} {condition : Option Condition} {a : Action Expression}
    {remember : Action Expression → PerformanceM Unit} (hrem : Discreet remember) (h : I p) :
    Ends (performSentence span remember speaker condition a) p (fun _ => I) (fun _ => E) := by
  refine keeps_look hI h fun _ => ?_
  apply ends_bind
  apply ends_get
  dsimp only
  split
  · split
    · exact keeps_jump hI _ _ h
    · exact ends_locating span (keeps_performAction hI hrem h)
  · exact hI.narrate _ h

theorem keeps_direction (d : Direction) (text : String) (span : Span) (h : I p) :
    Ends (locating span do narrate text; onStage d.perform) p (fun _ => I) (fun _ => E) :=
  ends_locating span ((hI.narrate text h).bind fun _ _ hq => hI.direct d hq)

theorem keeps_perform {op : Operation} {remember : Action Expression → PerformanceM Unit}
    (hrem : Discreet remember) (h : I p) : Ends (perform remember op) p (fun _ => I) (fun _ => E) := by
  unfold perform
  cases op.deed with
  | enter names => exact keeps_direction hI (.enter names) _ op.span h
  | exit name => exact keeps_direction hI (.exit name) _ op.span h
  | exeunt names => exact keeps_direction hI (.exeunt names) _ op.span h
  | exeuntAll => exact keeps_direction hI .exeuntAll _ op.span h
  | breakpoint => exact ends_pure h
  | speak speaker condition a => exact keeps_performSentence hI hrem h

theorem keeps_step (h : I p) : Ends step p (fun _ => I) (fun _ => E) := by
  have hrem : Discreet (rememberAt p.position) := fun a q => ⟨q.script.remember p.position a, rfl⟩
  unfold step
  apply ends_bind
  refine ends_nextOperation (fun op _ => ?_) fun _ => hI.fail h
  split
  · exact ends_modify (hI.move _ h)
  · apply ends_bind
    apply ends_get
    dsimp only
    rw [if_neg (hI.notDebug h)]
    refine (keeps_perform hI hrem h).bind fun _ q hq => ?_
    apply ends_bind
    apply ends_get
    split
    · exact ends_modify (hI.move _ hq)
    · exact ends_pure hq

end Playhouse.PerformanceM
