import Playhouse.Proofs.Hazards
import Playhouse.Proofs.Places
import Playhouse.Proofs.Rounds

/-!
# Playhouse.Proofs.Mishaps — what stops an operation at the console

At the console input is asked for and everything is told. An operation breaks down there if somebody is named twice
in an exeunt, or if there is nothing left to be read. There is no other reason, as long as the numbers that the
operation touches have at most 31 bits. Its errors are placed where it is written, or the values that it speaks of.
Main statements: `stopped_performApart` and `stopped_step`.
-/

namespace Playhouse

open Number Performance

/-! ### Numbers -/

/-- The number has more than 31 bits. -/
def Vast (n : Int) : Prop := 2 ^ 31 ≤ n.natAbs

theorem vast_of_floatBound {n : Int} (h : floatBound ≤ n.natAbs) : Vast n :=
  calc 2 ^ 31 ≤ 2 ^ 53 := Nat.pow_le_pow_right Nat.two_pos (by decide)
    _ ≤ floatBound := two_pow_53_le_floatBound
    _ ≤ n.natAbs := h

theorem vast_of_numeralBound {n : Int} (h : numeralBound ≤ n.natAbs) : Vast n := by
  have hpow : ∀ k, 10 ≤ k → 2 ^ 31 ≤ Nat.pow 10 k := fun k hk =>
    Nat.le_trans (show 2 ^ 31 ≤ 10 ^ 10 by decide) (Nat.pow_le_pow_right (by decide) hk)
  unfold numeralBound at h
  exact Nat.le_trans (hpow digitLimit (by decide)) h

theorem vast_of_factorialLimit {n : Int} (h : factorialLimit < n.natAbs) : Vast n :=
  Nat.le_trans (show 2 ^ 31 ≤ factorialLimit by decide) (Nat.le_of_lt h)

theorem vast_of_numeral {n : Int} {b : Breakdown} (h : numeral n = .error b) : Vast n := by
  unfold numeral at h
  split_ifs at h with hlt
  exact vast_of_numeralBound (Nat.not_lt.mp hlt)

theorem vast_of_unary {op : UnaryOperator} {n : Int} {b : Breakdown} (h : op.Overwhelmed n b) :
    Vast n := by
  cases op with
  | factorial =>
    obtain ⟨-, h, -⟩ | ⟨-, h, -⟩ := h
    · exact vast_of_factorialLimit h
    · exact vast_of_numeralBound h
  | squareRoot =>
    obtain ⟨-, h, -⟩ | ⟨-, h, -⟩ := h
    · exact vast_of_floatBound h
    · exact vast_of_numeralBound h
  | cube | square | twice => exact h.elim

theorem vast_of_binary {op : BinaryOperator} {m n : Int} {b : Breakdown} (h : op.Overwhelmed m n b) :
    Vast m ∨ Vast n := by
  cases op with
  | quotient =>
    obtain ⟨hn, h, -⟩ := h
    exact .inl (vast_of_floatBound (Nat.le_trans (Nat.le_mul_of_pos_right _ (Int.natAbs_pos.mpr hn)) h))
  | remainder =>
    obtain ⟨-, h | h, -⟩ := h
    · exact .inl (vast_of_floatBound h)
    · exact .inr (vast_of_floatBound h)
  | difference | product | sum => exact h.elim

/-- The values of an expression and of its parts, as far as it is evaluated. What is remembered is not worked out
again. -/
inductive Expression.Meets (speaker : String) (stage : Stage) : Expression → Int → Prop
  | value {e : Expression} {n : Int} : (e.evaluatePresent speaker stage).1 = .ok n → Meets speaker stage e n
  | operand {s : Span} {op : UnaryOperator} {x : Expression} {n : Int} : Meets speaker stage x n →
      Meets speaker stage (.unary s op x none) n
  | first {s : Span} {op : BinaryOperator} {x y : Expression} {n : Int} : Meets speaker stage x n →
      Meets speaker stage (.binary s op x y none) n
  | second {s : Span} {op : BinaryOperator} {x y : Expression} {m n : Int} :
      (x.evaluatePresent speaker stage).1 = .ok m → Meets speaker stage y n →
        Meets speaker stage (.binary s op x y none) n

/-- An expression that is too much to be worked out meets a vast number. -/
theorem Expression.Overwhelms.exists_vast {speaker : String} {stage : Stage} {e : Expression} {b : Breakdown}
    (h : e.Overwhelms speaker stage b) : ∃ n, e.Meets speaker stage n ∧ Vast n := by
  induction e with
  | firstPerson s | secondPerson s | character s name | nounPhrase s sign k memo | nothing s memo => exact h.elim
  | unary s op x memo ih =>
    cases memo with
    | some n => exact h.elim
    | none =>
      obtain h | ⟨n, hn, h⟩ := h
      · obtain ⟨n, hmeets, hvast⟩ := ih h
        exact ⟨n, .operand hmeets, hvast⟩
      · exact ⟨n, .operand (.value hn), vast_of_unary h⟩
  | binary s op x y memo ihx ihy =>
    cases memo with
    | some n => exact h.elim
    | none =>
      obtain h | ⟨m, hm, h | ⟨n, hn, h⟩⟩ := h
      · obtain ⟨n, hmeets, hvast⟩ := ihx h
        exact ⟨n, .first hmeets, hvast⟩
      · obtain ⟨n, hmeets, hvast⟩ := ihy h
        exact ⟨n, .second hm hmeets, hvast⟩
      · obtain hvast | hvast := vast_of_binary h
        · exact ⟨m, .first (.value hm), hvast⟩
        · exact ⟨n, .second hm (.value hn), hvast⟩

theorem Expression.meets_of_evaluate {speaker : String} {stage : Stage} {e : Expression} {n : Int}
    (h : (e.evaluate speaker stage).1 = .ok n) : e.Meets speaker stage n := by
  unfold evaluate at h
  split at h
  · cases h
  · exact .value h

/-! ### Operations -/

/-- The numbers that `speaker`, who is on stage, works with, takes or puts out by an action. -/
def Action.Touches (p : Performance) (speaker : String) : Action Expression → Int → Prop
  | .question _ _ x y, n => x.Meets speaker p.stage n ∨
      (∃ m, (x.evaluate speaker p.stage).1 = .ok m) ∧ y.Meets speaker p.stage n
  | .assignment x, n | .push x, n =>
    (∃ other, p.stage.opposite speaker = .ok other) ∧ x.Meets speaker p.stage n
  | .input medium, n =>
    (∃ other, p.stage.opposite speaker = .ok other) ∧ ∃ q, PerformanceM.input medium p = .ok n q
  | .output _, n => ∃ other c, p.stage.opposite speaker = .ok other ∧ p.stage.character other = .ok c ∧ c.value = n
  | .pop _, _ | .goto _ _, _ => False

/-- The numbers that are worked with, taken or put out. -/
def Deed.Touches (p : Performance) : Deed → Int → Prop
  | .speak speaker condition a, n =>
    speaker ∈ p.stage.present ∧ PerformanceM.isMet condition p.stage.flag = true ∧ a.Touches p speaker n
  | .enter _, _ | .exit _, _ | .exeunt _, _ | .exeuntAll, _ | .breakpoint, _ => False

/-- What `speaker`, who is on stage, is about to do asks for input, and there is none. -/
def Action.Stops (p : Performance) (speaker : String) : Action Expression → Breakdown → Prop
  | .input _, b => (∃ other, p.stage.opposite speaker = .ok other) ∧ p.streams.stdin = [] ∧ b = .endOfInput
  | .question _ _ _ _, _ | .assignment _, _ | .output _, _ | .push _, _ | .pop _, _ | .goto _ _, _ => False

/-- What is about to be done asks for input, and there is none, or takes somebody off the stage who is gone. -/
def Deed.Stops (p : Performance) : Deed → Breakdown → Prop
  | .exeunt names, b => p.stage.FindsGone names b
  | .speak speaker condition a, b =>
    speaker ∈ p.stage.present ∧ PerformanceM.isMet condition p.stage.flag = true ∧ a.Stops p speaker b
  | .enter _, _ | .exit _, _ | .exeuntAll, _ | .breakpoint, _ => False

/-- The fault is placed among `spans`, or is a breakdown as `H` says. There may be others only if `L` holds. -/
structure Mishap (spans : List Span) (H : Breakdown → Prop) (L : Prop) (f : Fault) : Prop where
  placed : f.PlacedIn spans
  stops : ∀ b, H b → f = .breakdown b
  only : ∀ b, f = .breakdown b → H b ∨ L

namespace Mishap

variable {spans spans' : List Span} {H H' : Breakdown → Prop} {L L' : Prop} {f : Fault}

theorem of_unplaced {cause : Cause} (hnone : ∀ b, ¬ H b) : Mishap spans H L (.error cause none) :=
  ⟨trivial, fun b hb => absurd hb (hnone b), nofun⟩

theorem of_breakdown {b : Breakdown} (hnone : ∀ b, ¬ H b) (hL : L) : Mishap spans H L (.breakdown b) :=
  ⟨trivial, fun b hb => absurd hb (hnone b), fun _ _ => .inr hL⟩

theorem mono (h : Mishap spans H L f) (hspans : spans ⊆ spans') (hH : ∀ b, H' b ↔ H b) (hL : L → L') :
    Mishap spans' H' L' f where
  placed := h.placed.mono hspans
  stops b hb := h.stops b ((hH b).mp hb)
  only b hb := (h.only b hb).imp (hH b).mpr hL

theorem locate (h : Mishap spans H L f) {span : Span} (hspan : span ∈ spans) :
    Mishap spans H L (f.locate span) where
  placed := h.placed.locate hspan
  stops b hb := Fault.locate_eq_breakdown_iff.mpr (h.stops b hb)
  only b hb := h.only b (Fault.locate_eq_breakdown_iff.mp hb)

/-- An expression fails where it is written, and breaks down only at a vast number. -/
theorem of_evaluate {speaker : String} {stage : Stage} {e : Expression} (hs : speaker ∈ stage.present)
    (h : (e.evaluate speaker stage).1 = .error f) (hspans : e.spans ⊆ spans) (hnone : ∀ b, ¬ H b)
    (hL : (∃ n, e.Meets speaker stage n ∧ Vast n) → L) : Mishap spans H L f where
  placed := (Expression.placed_of_evaluate h).mono hspans
  stops b hb := absurd hb (hnone b)
  only b hb := .inr (hL ((PerformanceM.breaksAs_of_error hs h b).mp hb).exists_vast)

end Mishap

namespace PerformanceM

variable {p q : Performance} {speaker : String} {spans : List Span} {H : Breakdown → Prop} {L : Prop}
  {remember : Action Expression → PerformanceM Unit} {limit : Nat}

/-- The activity returns if nothing stops it, and fails with a mishap otherwise. -/
abbrev Stopped (m : PerformanceM Unit) (p : Performance) (spans : List Span) (H : Breakdown → Prop) (L : Prop) :
    Prop :=
  Ends m p (fun _ _ => ∀ b, ¬ H b) (fun f _ => Mishap spans H L f)

theorem ends_numeral {Q : String → Performance → Prop} {E : Fault → Performance → Prop} (n : Int)
    (hok : ∀ t, Q t q) (herror : Vast n → ∀ b, E (.breakdown b) q) : Ends (ofBreakdown (numeral n)) q Q E := by
  have hvast : ∀ b, numeral n = .error b → Vast n := fun b => vast_of_numeral
  generalize numeral n = text at hvast ⊢
  cases text with
  | ok t => exact ends_pure (hok t)
  | error b => exact ends_throw (herror (hvast b rfl) b)

theorem stopped_look_opposite {m : String → PerformanceM Unit}
    (hH : ∀ b, H b → ∃ other, p.stage.opposite speaker = .ok other)
    (h : ∀ other, p.stage.opposite speaker = .ok other → Stopped (m other) p spans H L) :
    Stopped (look (·.opposite speaker) >>= m) p spans H L := by
  refine ends_bind (ends_look h fun e he => ?_)
  obtain ⟨cause, rfl⟩ := Stage.opposite_error he
  refine .of_unplaced fun b hb => ?_
  obtain ⟨other, hother⟩ := hH b hb
  rw [he] at hother
  cases hother

theorem stopped_changeCharacter {f : Character → Except Fault Character} (name : String) (hnone : ∀ b, ¬ H b)
    (hf : ∀ c e, f c = .error e → ∃ cause, e = .error cause none) :
    Ends (changeCharacter name f) q (fun _ r => r.style = q.style) (fun e _ => Mishap spans H L e) := by
  refine (ends_changeCharacter name f).mono ?_ ?_
  · rintro _ r ⟨c, -, rfl⟩
    rfl
  · rintro e r ⟨-, he | ⟨c, he⟩⟩
    · obtain ⟨cause, rfl⟩ := Stage.character_error he
      exact .of_unplaced hnone
    · obtain ⟨cause, rfl⟩ := hf c e he
      exact .of_unplaced hnone

theorem stopped_question {comparison : Comparison} {words : List String} {x y : Expression}
    (hs : speaker ∈ p.stage.present) (hrem : Discreet remember) :
    Stopped (performAction speaker remember (.question comparison words x y)) p
      (Action.question comparison words x y).spans ((Action.question comparison words x y).Stops p speaker)
      (∃ n, (Action.question comparison words x y).Touches p speaker n ∧ Vast n) := by
  unfold performAction
  apply ends_bind
  refine (ends_evaluate_plain fun x' => hrem (.question comparison words x' y)).mono ?_ ?_
  · rintro ⟨m, x'⟩ q ⟨hx, script, rfl⟩
    apply ends_bind
    refine (ends_evaluate_plain fun y' => hrem (.question comparison words x' y')).mono ?_ ?_
    · exact fun _ r _ => (ends_narrate _ (Alike.refl r)).bind fun _ _ _ => ends_modify fun b => id
    · intro f r hy
      refine .of_evaluate hs hy (List.subset_append_right _ _) (fun b => id) ?_
      rintro ⟨n, hmeets, hvast⟩
      exact ⟨n, .inr ⟨⟨m, hx⟩, hmeets⟩, hvast⟩
  · intro f r hx
    refine .of_evaluate hs hx (List.subset_append_left _ _) (fun b => id) ?_
    rintro ⟨n, hmeets, hvast⟩
    exact ⟨n, .inl hmeets, hvast⟩

/-- What an assignment and a push have in common. -/
theorem stopped_giving {x : Expression} (remember : Expression → PerformanceM Unit)
    (f : Int → Character → Character) (text : String → String → String) (hs : speaker ∈ p.stage.present)
    (hrem : Discreet remember) :
    Stopped (do
        let other ← look (·.opposite speaker)
        let (n, _) ← evaluate speaker remember x
        changeCharacter other fun c => .ok (f n c)
        if (← get).style.narrates then printLine (text other (← ofBreakdown (Number.numeral n)))) p
      (Action.assignment x).spans ((Action.assignment x).Stops p speaker)
      (∃ n, (Action.assignment x).Touches p speaker n ∧ Vast n) := by
  refine stopped_look_opposite (fun b => False.elim) fun other hother => ?_
  apply ends_bind
  refine (ends_evaluate_plain hrem).mono ?_ ?_
  · rintro ⟨n, x'⟩ q ⟨hx, script, rfl⟩
    refine Ends.bind (stopped_changeCharacter other (fun b => id) fun _ _ he => nomatch he) fun _ r _ => ?_
    refine ends_bind (ends_get ?_)
    split
    · refine ends_bind (ends_numeral n (fun t => ends_modify fun b => id) fun hvast b => ?_)
      exact .of_breakdown (fun b => id) ⟨n, ⟨⟨other, hother⟩, Expression.meets_of_evaluate hx⟩, hvast⟩
    · exact ends_pure fun b => id
  · intro g r hx
    refine .of_evaluate hs hx (List.Subset.refl _) (fun b => id) ?_
    rintro ⟨n, hmeets, hvast⟩
    exact ⟨n, ⟨⟨other, hother⟩, hmeets⟩, hvast⟩

/-- The user gives a number or a character, unless there is nothing left to be read. -/
theorem ends_input_interactive (medium : Medium) (hdesk : p.desk = .interactive) :
    Ends (input medium) p (fun _ q => p.streams.stdin ≠ [] ∧ q.style = p.style)
      (fun f _ => (p.streams.stdin = [] ∧ f = .breakdown .endOfInput) ∨
        p.streams.stdin ≠ [] ∧ ∃ cause, f = .error cause none) := by
  have hask : ∀ prompt, Ends (ask prompt) p (fun _ q => p.streams.stdin ≠ [] ∧ q.style = p.style)
      (fun f _ => p.streams.stdin = [] ∧ f = .breakdown .endOfInput) := by
    intro prompt
    have heq := ask_eq prompt p
    split at heq
    · next hempty => exact ends_of_error heq ⟨isEmpty_splitLine.mp hempty, rfl⟩
    · next hempty => exact ends_of_ok heq ⟨fun hnil => hempty (isEmpty_splitLine.mpr hnil), rfl⟩
  unfold input
  apply ends_bind
  apply ends_get
  rw [hdesk]
  cases medium with
  | number =>
    refine ((hask _).mono (fun _ _ h => h) fun _ _ h => .inl h).bind fun line q hq => ?_
    split
    · exact ends_pure hq
    · exact ends_throw (.inr ⟨hq.1, _, rfl⟩)
  | character =>
    refine ((hask _).mono (fun _ _ h => h) fun _ _ h => .inl h).bind fun line q hq => ?_
    split
    · exact ends_pure hq
    · exact ends_pure hq
    · exact ends_pure hq

theorem stopped_input (medium : Medium) (hp : p.AtConsole limit) :
    Stopped (performAction speaker remember (.input medium)) p (Action.input medium).spans
      ((Action.input medium).Stops p speaker) (∃ n, (Action.input medium).Touches p speaker n ∧ Vast n) := by
  unfold performAction
  refine stopped_look_opposite (fun b hb => hb.1) fun other hother => ?_
  have hends := ends_input_interactive medium hp.desk
  apply ends_bind
  cases hinput : input medium p with
  | ok n q =>
    obtain ⟨hstdin, hstyle⟩ := hends.ok hinput
    have hnone : ∀ b, ¬ (Action.input medium).Stops p speaker b := fun b hb => hstdin hb.2.1
    refine ends_of_ok hinput (ends_bind (ends_get ?_))
    dsimp only
    rw [if_pos (by rw [hstyle, hp.style]; rfl)]
    refine ends_bind (ends_numeral n (fun t => ends_bind (ends_modify ?_)) fun hvast b => ?_)
    · exact Ends.mono (stopped_changeCharacter other hnone fun _ _ he => nomatch he) (fun _ _ _ => hnone)
        fun _ _ h => h
    · exact .of_breakdown hnone ⟨n, ⟨⟨other, hother⟩, q, hinput⟩, hvast⟩
  | error f q =>
    refine ends_of_error hinput ?_
    obtain ⟨hstdin, rfl⟩ | ⟨hstdin, cause, rfl⟩ := hends.error hinput
    · refine ⟨trivial, fun b hb => congrArg Fault.breakdown hb.2.2.symm, fun b hb => .inl ?_⟩
      exact ⟨⟨other, hother⟩, hstdin, (Fault.breakdown.inj hb).symm⟩
    · exact .of_unplaced fun b hb => hstdin hb.2.1

/-- What is told of what is put out is always printed, only a vast number has no text. -/
theorem ends_output_verbose (medium : Medium) (n : Int) (hstyle : q.style = .verbose) :
    Ends (output medium n) q (fun _ _ => True)
      (fun f _ => (∃ cause, f = .error cause none) ∨ Vast n ∧ ∃ b, f = .breakdown b) := by
  cases medium with
  | number =>
    refine ends_bind (ends_numeral n (fun t => ?_) fun hvast b => .inr ⟨hvast, b, rfl⟩)
    refine ends_bind (ends_get ?_)
    dsimp only
    split
    · exact ends_bind (ends_modify (ends_modify trivial))
    · exact ends_bind (ends_modify (ends_modify trivial))
  | character =>
    unfold output outputCharacter characterCode
    apply ends_bind
    by_cases hlarge : n < -0x80000000 ∨ 0x80000000 ≤ n
    · rw [if_pos hlarge]
      have hvast : 2 ^ 31 ≤ n.natAbs := by omega
      exact ends_bind (ends_throw (.inr ⟨hvast, _, rfl⟩))
    · rw [if_neg hlarge]
      by_cases hinvalid : n < 0 ∨ 0x10ffff < n
      · rw [if_pos hinvalid]
        exact ends_bind (ends_throw (.inl ⟨_, rfl⟩))
      · rw [if_neg hinvalid]
        refine ends_pure (ends_bind (ends_get ?_))
        rw [hstyle]
        exact ends_bind (ends_modify (ends_modify trivial))

theorem stopped_performAction {a : Action Expression} (hp : p.AtConsole limit) (hs : speaker ∈ p.stage.present)
    (hrem : Discreet remember) :
    Stopped (performAction speaker remember a) p a.spans (a.Stops p speaker)
      (∃ n, a.Touches p speaker n ∧ Vast n) := by
  cases a with
  | question comparison words x y => exact stopped_question hs hrem
  | assignment x =>
    exact stopped_giving (fun x => remember (.assignment x)) (fun n c => { c with value := n })
      (fun other numeral => other ++ " set to " ++ numeral) hs fun x => hrem (.assignment x)
  | input medium => exact stopped_input medium hp
  | output medium =>
    unfold performAction
    refine stopped_look_opposite (fun b => False.elim) fun other hother => ?_
    refine ends_bind (ends_look (fun c hc => ?_) fun e he => ?_)
    · refine (ends_narrate _ (Alike.refl p)).bind fun _ q hq => ?_
      refine (ends_output_verbose medium c.value (hq.style.trans hp.style)).mono (fun _ _ _ b => id) ?_
      rintro f _ (⟨cause, rfl⟩ | ⟨hvast, b, rfl⟩)
      · exact .of_unplaced fun b => id
      · exact .of_breakdown (fun b => id) ⟨c.value, ⟨other, c, hother, hc, rfl⟩, hvast⟩
    · obtain ⟨cause, rfl⟩ := Stage.character_error he
      exact .of_unplaced fun b => id
  | push x =>
    exact stopped_giving (fun x => remember (.push x)) (fun n c => c.push n)
      (fun other numeral => other ++ " pushed " ++ numeral) hs fun x => hrem (.push x)
  | pop recalled =>
    unfold performAction
    refine stopped_look_opposite (fun b => False.elim) fun other hother => ?_
    refine Ends.bind (stopped_changeCharacter other (fun b => id) ?_) fun _ q _ => ?_
    · intro c e he
      unfold Character.pop at he
      split at he
      · cases he
        exact ⟨_, rfl⟩
      · cases he
    · exact (ends_narrate _ (Alike.refl q)).mono (fun _ _ _ b => id) fun _ _ h => h
  | goto target numeral => exact ends_pure fun b => id

/-- If there are acts, then a jump leads somewhere, or to an error of the play. -/
theorem destination_error {script : Script} {position : Int} {target : Target} {numeral : String} {f : Fault}
    (hacts : script.acts ≠ []) (h : destination script position target numeral = .error f) :
    ∃ cause, f = .error cause none := by
  unfold destination Script.actAt? at h
  cases hentries : script.acts with
  | nil => exact absurd hentries hacts
  | cons a as =>
    rw [hentries] at h
    cases target with
    | act =>
      dsimp only at h
      split at h
      · cases h
      · cases h
        exact ⟨_, rfl⟩
    | scene =>
      dsimp only at h
      split at h
      · cases h
      · cases h
        exact ⟨_, rfl⟩

theorem stopped_performSentence {span : Span} {condition : Option Condition} {a : Action Expression}
    (hp : p.AtConsole limit) (hrem : Discreet remember) (hacts : p.script.acts ≠ []) :
    Stopped (performSentence span remember speaker condition a) p (span :: a.spans)
      ((Deed.speak speaker condition a).Stops p) (∃ n, (Deed.speak speaker condition a).Touches p n ∧ Vast n) := by
  unfold performSentence
  refine ends_bind (ends_look (fun _ hpresent => ?_) fun e he => ?_)
  · have hs : speaker ∈ p.stage.present := checkPresent_ok_iff.mp hpresent
    refine ends_bind (ends_get ?_)
    dsimp only
    by_cases hmet : isMet condition p.stage.flag = true
    · rw [if_pos hmet]
      have hiff : ∀ b, (Deed.speak speaker condition a).Stops p b ↔ a.Stops p speaker b :=
        fun b => ⟨fun hb => hb.2.2, fun hb => ⟨hs, hmet, hb⟩⟩
      split
      · next target numeral =>
        refine (ends_jump target numeral).mono (fun _ _ _ b hb => (hiff b).mp hb) ?_
        rintro f q ⟨hf, -⟩
        obtain ⟨cause, rfl⟩ := destination_error hacts hf
        exact .of_unplaced fun b hb => (hiff b).mp hb
      · apply ends_locating
        refine (stopped_performAction hp hs hrem).mono (fun _ _ hnone b hb => hnone b ((hiff b).mp hb))
          fun f _ hf => ?_
        refine (hf.mono (List.subset_cons_self _ _) hiff ?_).locate List.mem_cons_self
        rintro ⟨n, htouches, hvast⟩
        exact ⟨n, ⟨hs, hmet, htouches⟩, hvast⟩
    · rw [if_neg hmet]
      exact (ends_narrate _ (Alike.refl p)).mono (fun _ _ _ b hb => hmet hb.2.1) fun _ _ h => h
  · obtain ⟨cause, rfl⟩ := checkPresent_error he
    refine .of_unplaced fun b hb => ?_
    rw [checkPresent_ok_iff.mpr hb.1] at he
    cases he

/-- A direction is stopped as the stage says, and touches no numbers. -/
theorem stopped_direction {m : StageM Unit} (text : String) (span : Span) (hspan : span ∈ spans)
    (h : Ends m p.stage (fun _ _ => ∀ b, ¬ H b) (fun f _ => (∃ cause, f = .error cause none) ∧ (∀ b, ¬ H b) ∨
      ∃ b, f = .breakdown b ∧ BreaksAs H f)) :
    Stopped (locating span do narrate text; onStage m) p spans H L := by
  apply ends_locating
  refine (ends_narrate text (Alike.refl p)).bind fun _ q hq => ends_onStage ?_
  rw [hq.stage]
  refine h.mono (fun _ _ hnone => hnone) fun f _ hf => Mishap.locate ?_ hspan
  obtain ⟨⟨cause, rfl⟩, hnone⟩ | ⟨b, rfl, hbreaks⟩ := hf
  · exact .of_unplaced hnone
  · exact ⟨trivial, fun b hb => (hbreaks b).mpr hb, fun b hb => .inl ((hbreaks b).mp hb)⟩

theorem stopped_perform {op : Operation} (hp : p.AtConsole limit) (hs : p.stage.Sound) (hrem : Discreet remember)
    (hacts : p.script.acts ≠ []) :
    Stopped (perform remember op) p op.spans (op.deed.Stops p) (∃ n, op.deed.Touches p n ∧ Vast n) := by
  obtain ⟨span, deed⟩ := op
  cases deed with
  | enter names =>
    refine stopped_direction _ span List.mem_cons_self ((StageM.ends_enter names).mono (fun _ _ _ b => id) ?_)
    exact fun f _ hf => .inl ⟨hf.2, fun b => id⟩
  | exit name =>
    refine stopped_direction _ span List.mem_cons_self ((StageM.ends_exit name).mono (fun _ _ _ b => id) ?_)
    exact fun f _ hf => .inl ⟨hf.2, fun b => id⟩
  | exeunt names =>
    refine stopped_direction _ span List.mem_cons_self
      (((StageM.ends_exeunt names).and (StageM.breaks_exeunt names)).mono (fun _ _ h => h.2) ?_)
    rintro f _ ⟨⟨-, cause, rfl⟩ | ⟨⟨b, rfl⟩, -⟩, hbreaks⟩
    · exact .inl ⟨⟨cause, rfl⟩, fun b hb => nomatch (hbreaks b).mpr hb⟩
    · exact .inr ⟨b, rfl, hbreaks⟩
  | exeuntAll =>
    exact stopped_direction _ span List.mem_cons_self
      ((StageM.breaks_exeuntAll hs.present_nodup).mono (fun _ _ _ b => id) fun _ _ h => h.elim)
  | breakpoint => exact ends_pure fun b => id
  | speak speaker condition a => exact stopped_performSentence hp hrem hacts

theorem Discreet.rememberAt (position : Int) : Discreet (rememberAt position) :=
  fun a q => ⟨q.script.remember position a, rfl⟩

/-- **What stops a step at the console.** -/
theorem stopped_step {op : Operation} (hp : p.AtConsole limit) (hs : p.stage.Sound) (hacts : p.script.acts ≠ [])
    (hop : p.script.operation? p.position = some op) :
    Stopped step p op.spans (op.deed.Stops p) (∃ n, op.deed.Touches p n ∧ Vast n) := by
  unfold step
  refine ends_bind (ends_of_ok (nextOperation_of_some hop) ?_)
  split
  · next hbreak =>
    have hdeed : op.deed = .breakpoint := by simpa [Operation.isBreakpoint] using hbreak
    rw [hdeed]
    exact ends_modify fun b => id
  · refine ends_bind (ends_get ?_)
    rw [hp.style]
    show Ends (do perform (rememberAt p.position) op; if (← get).position = p.position then advance) p _ _
    refine Ends.bind (stopped_perform hp hs (.rememberAt p.position) hacts) fun _ q hnone => ?_
    refine ends_bind (ends_get ?_)
    split
    · exact ends_modify hnone
    · exact ends_pure hnone

end PerformanceM

/-- **What stops an operation that is typed at the console.** -/
theorem stopped_performApart {p : Performance} {limit : Nat} (op : Operation) (hp : p.AtConsole limit)
    (hs : p.stage.Sound) (hacts : p.script.acts ≠ []) :
    PerformanceM.Stopped (ReportM.performApart op) p op.spans (op.deed.Stops p)
      (∃ n, op.deed.Touches p n ∧ Vast n) :=
  PerformanceM.stopped_perform hp hs (fun _ q => ⟨q.script, rfl⟩) hacts

end Playhouse
