import Playhouse.Proofs.Reachable

/-!
# Playhouse.Proofs.Effects — what a sentence touches

`Action.Effect` says what each kind of action does when it succeeds: the one thing that it changes, worked out from
the stage, and otherwise a performance alike, which may have printed and remembered something. From this follows
what every sentence leaves as it is, whichever way it is performed: who is on stage, what the speaker and all
others but the one spoken to hold, and the input unless it was asked for. Main statement: `sentence_touches_only`.
-/

namespace Playhouse

open Performance

/-! ### Who is spoken to -/

namespace Stage

variable {s : Stage} {name speaker other : String} {c : Character}

theorem character_setCharacter_self : (s.setCharacter name c).character name = .ok c := by
  unfold character setCharacter
  rw [lookup_tableSet_self]

theorem character_setCharacter_of_ne (h : name ≠ other) :
    (s.setCharacter other c).character name = s.character name := by
  unfold character setCharacter
  rw [lookup_tableSet_of_ne h]

/-- Besides `speaker`, only `other` is on stage. -/
def AloneWith (s : Stage) (speaker other : String) : Prop :=
  speaker ∈ s.present ∧ s.present.filter (· ≠ speaker) = [other]

theorem AloneWith.mem (h : s.AloneWith speaker other) : other ∈ s.present ∧ other ≠ speaker := by
  have hmem : other ∈ s.present.filter (· ≠ speaker) := by
    rw [h.2]
    exact List.mem_singleton_self other
  rw [List.mem_filter, decide_eq_true_iff] at hmem
  exact hmem

theorem AloneWith.unique {other' : String} (h : s.AloneWith speaker other) (h' : s.AloneWith speaker other') :
    other = other' :=
  (List.cons.inj (h.2.symm.trans h'.2)).1

end Stage

/-! ### Effects -/

/-- What is left of the input, and what is held of it. -/
def Performance.unread (p : Performance) : InputDesk × List Char × Option (List Char) :=
  (p.desk, p.streams.stdin, p.streams.reader)

/-- What an action that `speaker` performs in `p` leads to. A question sets the flag to its answer. The one spoken
to takes the value of an assignment, or what is read for an input, as value; takes the value of a push on top of
the stack; and takes the top of the stack as value for a pop. An output changes nothing, and a jump the
position. -/
inductive Action.Effect (speaker : String) (p : Performance) : Action Expression → Performance → Prop
  | question {comparison : Comparison} {words : List String} {x y : Expression} {m n : Int} {q : Performance} :
      (x.evaluate speaker p.stage).1 = .ok m → (y.evaluate speaker p.stage).1 = .ok n →
      Alike { p with stage := { p.stage with flag := comparison.apply m n } } q →
      Effect speaker p (.question comparison words x y) q
  | assignment {x : Expression} {n : Int} {other : String} {c : Character} {q : Performance} :
      p.stage.AloneWith speaker other → p.stage.character other = .ok c → (x.evaluate speaker p.stage).1 = .ok n →
      Alike { p with stage := p.stage.setCharacter other { c with value := n } } q →
      Effect speaker p (.assignment x) q
  | input {medium : Medium} {n : Int} {other : String} {c : Character} {p₀ r q : Performance} :
      p.stage.AloneWith speaker other → p.stage.character other = .ok c →
      p.Alike p₀ → PerformanceM.input medium p₀ = .ok n r →
      Alike { p with
        stage := p.stage.setCharacter other { c with value := n }, desk := r.desk, streams := r.streams } q →
      Effect speaker p (.input medium) q
  | output {medium : Medium} {q : Performance} : p.Alike q → Effect speaker p (.output medium) q
  | push {x : Expression} {n : Int} {other : String} {c : Character} {q : Performance} :
      p.stage.AloneWith speaker other → p.stage.character other = .ok c → (x.evaluate speaker p.stage).1 = .ok n →
      Alike { p with stage := p.stage.setCharacter other { c with stack := n :: c.stack } } q →
      Effect speaker p (.push x) q
  | pop {recalled : String} {n : Int} {ns : List Int} {other : String} {c : Character} {q : Performance} :
      p.stage.AloneWith speaker other → p.stage.character other = .ok c → c.stack = n :: ns →
      Alike { p with stage := p.stage.setCharacter other ⟨n, ns⟩ } q → Effect speaker p (.pop recalled) q
  | goto {target : Target} {numeral : String} {n : Nat} {q : Performance} :
      PerformanceM.destination p.script p.position target numeral = .ok n → Alike { p with position := n } q →
      Effect speaker p (.goto target numeral) q

/-- What becomes of the one spoken to, who held `c` and then holds `c'`. An assignment and an input keep the stack,
a push keeps the value and puts one value on the stack, and a pop moves the top of the stack to the value. -/
def Action.Leaves (a : Action Expression) (c c' : Character) : Prop :=
  match a with
  | .assignment _ | .input _ => c'.stack = c.stack
  | .push _ => c'.value = c.value ∧ ∃ n, c'.stack = n :: c.stack
  | .pop _ => c.stack = c'.value :: c'.stack
  | .question _ _ _ _ | .output _ | .goto _ _ => c' = c

namespace Performance

variable {p q : Performance}

theorem Alike.restage (h : p.Alike q) (s : Stage) : Alike { p with stage := s } { q with stage := s } :=
  ⟨h.script, rfl, h.position, h.desk, h.style, h.stdin, h.reader⟩

theorem Alike.unread_eq (h : p.Alike q) : q.unread = p.unread := by
  unfold unread
  rw [h.desk, h.stdin, h.reader]

end Performance

namespace Action.Effect

variable {speaker : String} {p q : Performance} {a : Action Expression}

/-- What was printed before does not matter. -/
theorem of_print {out : String} (h : a.Effect speaker (p.printed out) q) : a.Effect speaker p q := by
  cases h with
  | question hm hn hq => exact .question hm hn hq.of_print
  | assignment halone hc hn hq => exact .assignment halone hc hn hq.of_print
  | input halone hc hp₀ hr hq =>
    exact .input halone hc hp₀.of_print hr ⟨hq.script, hq.stage, hq.position, hq.desk, hq.style,
      hq.stdin, hq.reader⟩
  | output hq => exact .output hq.of_print
  | push halone hc hn hq => exact .push halone hc hn hq.of_print
  | pop halone hc hstack hq => exact .pop halone hc hstack hq.of_print
  | goto hn hq => exact .goto hn hq.of_print

/-- Nobody comes or goes. -/
theorem present (h : a.Effect speaker p q) : q.stage.present = p.stage.present := by
  cases h with
  | question _ _ hq | assignment _ _ _ hq | input _ _ _ _ hq => exact (congrArg Stage.present hq.stage).trans rfl
  | output hq | push _ _ _ hq | pop _ _ _ hq | goto _ hq => exact (congrArg Stage.present hq.stage).trans rfl

/-- The one spoken to is neither the speaker nor off stage, so that these keep what they hold. -/
theorem spared {name : String} (h : a.Effect speaker p q) (hname : name = speaker ∨ name ∉ p.stage.present) :
    q.stage.character name = p.stage.character name := by
  have hne : ∀ {other}, p.stage.AloneWith speaker other → name ≠ other := by
    rintro other halone rfl
    obtain ⟨hpresent, hother⟩ := halone.mem
    exact hname.elim hother fun haway => haway hpresent
  cases h with
  | question _ _ hq | output hq | goto _ hq => exact (congrArg (Stage.character · name) hq.stage).trans rfl
  | assignment halone _ _ hq | input halone _ _ _ hq | push halone _ _ hq | pop halone _ _ hq =>
    rw [hq.stage]
    exact Stage.character_setCharacter_of_ne (hne halone)

/-- The one spoken to is the one that the action has changed. -/
theorem spoken {other : String} {c : Character} (h : a.Effect speaker p q)
    (halone : p.stage.AloneWith speaker other) (hc : p.stage.character other = .ok c) :
    ∃ c', q.stage.character other = .ok c' ∧ a.Leaves c c' := by
  have hset : ∀ {name : String} {d d' : Character}, p.stage.AloneWith speaker name →
      p.stage.character name = .ok d →
      q.stage = p.stage.setCharacter name d' → d = c ∧ q.stage.character other = .ok d' := by
    intro name d d' hname hd hq
    obtain rfl := halone.unique hname
    rw [hq]
    exact ⟨Except.ok.inj (hd.symm.trans hc), Stage.character_setCharacter_self⟩
  cases h with
  | question _ _ hq | output hq | goto _ hq =>
    exact ⟨c, (congrArg (Stage.character · other) hq.stage).trans hc, rfl⟩
  | assignment halone' hc' _ hq | input halone' hc' _ _ hq =>
    obtain ⟨rfl, hq'⟩ := hset halone' hc' hq.stage
    exact ⟨_, hq', rfl⟩
  | push halone' hc' _ hq =>
    obtain ⟨rfl, hq'⟩ := hset halone' hc' hq.stage
    exact ⟨_, hq', rfl, _, rfl⟩
  | pop halone' hc' hstack hq =>
    obtain ⟨rfl, hq'⟩ := hset halone' hc' hq.stage
    exact ⟨_, hq', hstack⟩

/-- Only a question sets the flag. -/
theorem flag_eq (h : a.Effect speaker p q) (ha : ∀ comparison words x y, a ≠ .question comparison words x y) :
    q.stage.flag = p.stage.flag := by
  cases h with
  | question => exact absurd rfl (ha _ _ _ _)
  | assignment _ _ _ hq | input _ _ _ _ hq | output hq | push _ _ _ hq | pop _ _ _ hq | goto _ hq =>
    exact (congrArg Stage.flag hq.stage).trans rfl

/-- Only a jump moves. -/
theorem position_eq (h : a.Effect speaker p q) (ha : ∀ target numeral, a ≠ .goto target numeral) :
    q.position = p.position := by
  cases h with
  | question _ _ hq | assignment _ _ _ hq | input _ _ _ _ hq | output hq | push _ _ _ hq | pop _ _ _ hq =>
    exact hq.position
  | goto => exact absurd rfl (ha _ _)

/-- Only an input reads. -/
theorem unread_eq (h : a.Effect speaker p q) (ha : ∀ medium, a ≠ .input medium) : q.unread = p.unread := by
  cases h with
  | question _ _ hq | assignment _ _ _ hq | output hq | push _ _ _ hq | pop _ _ _ hq | goto _ hq =>
    exact hq.unread_eq
  | input => exact absurd rfl (ha _)

end Action.Effect

/-- What a sentence of `speaker` has changed from `p` to `q`. If its condition does not hold then nothing has
changed, and otherwise what the action says; the one spoken to is left with what the action leaves. In any case the
same are on stage, the speaker and those off stage hold what they held, and only a question, a jump or an input
that was performed has set the flag, moved or read anything. -/
structure Performance.Touched (p : Performance) (speaker : String) (condition : Option Condition)
    (a : Action Expression) (q : Performance) : Prop where
  speaking : speaker ∈ p.stage.present
  refused : PerformanceM.isMet condition p.stage.flag = false → p.Alike q
  performed : PerformanceM.isMet condition p.stage.flag = true → a.Effect speaker p q
  spoken : PerformanceM.isMet condition p.stage.flag = true → ∀ other c, p.stage.AloneWith speaker other →
    p.stage.character other = .ok c → ∃ c', q.stage.character other = .ok c' ∧ a.Leaves c c'
  present : q.stage.present = p.stage.present
  spared : ∀ name, name = speaker ∨ name ∉ p.stage.present → q.stage.character name = p.stage.character name
  flag : (∀ comparison words x y, a ≠ .question comparison words x y) → q.stage.flag = p.stage.flag
  position : (∀ target numeral, a ≠ .goto target numeral) → q.position = p.position
  unread : (∀ medium, a ≠ .input medium) → q.unread = p.unread

namespace Performance.Touched

variable {speaker : String} {condition : Option Condition} {a : Action Expression} {p q : Performance}

theorem of_alike (hs : speaker ∈ p.stage.present) (hmet : PerformanceM.isMet condition p.stage.flag = false)
    (h : p.Alike q) : p.Touched speaker condition a q where
  speaking := hs
  refused _ := h
  performed hmet' := absurd hmet' (Bool.eq_false_iff.mp hmet)
  spoken hmet' := absurd hmet' (Bool.eq_false_iff.mp hmet)
  present := congrArg Stage.present h.stage
  spared name _ := congrArg (Stage.character · name) h.stage
  flag _ := congrArg Stage.flag h.stage
  position _ := h.position
  unread _ := h.unread_eq

theorem of_effect (hs : speaker ∈ p.stage.present) (hmet : PerformanceM.isMet condition p.stage.flag = true)
    (h : a.Effect speaker p q) : p.Touched speaker condition a q where
  speaking := hs
  refused hmet' := absurd hmet (Bool.eq_false_iff.mp hmet')
  performed _ := h
  spoken _ _ _ halone hc := h.spoken halone hc
  present := h.present
  spared _ hname := h.spared hname
  flag := h.flag_eq
  position := h.position_eq
  unread := h.unread_eq

theorem of_print {out : String} (h : (p.printed out).Touched speaker condition a q) :
    p.Touched speaker condition a q where
  speaking := h.speaking
  refused hmet := (h.refused hmet).of_print
  performed hmet := (h.performed hmet).of_print
  spoken := h.spoken
  present := h.present
  spared := h.spared
  flag := h.flag
  position := h.position
  unread := h.unread

end Performance.Touched

/-! ### Actions -/

namespace PerformanceM

variable {speaker : String} {p q : Performance} {remember : Action Expression → PerformanceM Unit}

theorem ends_look_opposite {m : String → PerformanceM Unit} {Q : Unit → Performance → Prop} (hs : p.stage.Sound)
    (h : ∀ other, p.stage.AloneWith speaker other → Ends (m other) p Q (fun _ _ => True)) :
    Ends (look (·.opposite speaker) >>= m) p Q (fun _ _ => True) :=
  ends_bind (ends_look (fun other hother => h other (hs.opposite_eq_ok_iff.mp hother)) fun _ _ => trivial)

/-- What an evaluation returns is what the expression is worth on the stage. -/
theorem ends_evaluate_worth {e : Expression} {remember : Expression → PerformanceM Unit} (h : p.Alike q)
    (hrem : Keeper Expression.forget p e remember) :
    Ends (evaluate speaker remember e) q
      (fun x r => p.Alike r ∧ x.2.forget = e.forget ∧ (e.evaluate speaker p.stage).1 = .ok x.1)
        (fun _ _ => True) := by
  have hworth : Ends (evaluate speaker remember e) q (fun x _ => (e.evaluate speaker p.stage).1 = .ok x.1)
      (fun _ _ => True) := by
    rw [← h.stage]
    unfold evaluate
    apply ends_bind
    apply ends_get
    generalize e.evaluate speaker q.stage = x
    obtain ⟨outcome, e'⟩ := x
    refine (ends_anyhow (remember e') q).bind fun _ r _ => ?_
    cases outcome with
    | ok n => exact ends_pure rfl
    | error f => exact ends_throw trivial
  have hkept : Ends (evaluate speaker remember e) q (fun x r => p.Alike r ∧ x.2.forget = e.forget)
      (fun _ _ => True) :=
    ends_evaluate h hrem fun _ _ _ => trivial
  exact (hkept.and hworth).mono (fun _ _ hx => ⟨hx.1.1, hx.1.2, hx.2⟩) fun _ _ _ => trivial

theorem effect_question {comparison : Comparison} {words : List String} {x y : Expression}
    (hrem : Keeper Action.forget p (.question comparison words x y) remember) :
    Ends (performAction speaker remember (.question comparison words x y)) p
      (fun _ q => (Action.question comparison words x y).Effect speaker p q) (fun _ _ => True) := by
  unfold performAction
  refine (ends_evaluate_worth (Alike.refl p) hrem.first).bind ?_
  rintro ⟨m, x'⟩ q ⟨hq, hx', hm⟩
  refine (ends_evaluate_worth hq (hrem.second hx')).bind ?_
  rintro ⟨n, y'⟩ r ⟨hr, -, hn⟩
  refine (ends_narrate _ hr).bind fun _ t ht => ?_
  apply ends_modify
  rw [ht.stage]
  exact .question hm hn (ht.restage _)

/-- What an assignment and a push have in common: the one spoken to takes a value by `f`. -/
theorem effect_giving {x : Expression} (remember : Expression → PerformanceM Unit)
    (f : Int → Character → Character) (text : String → String → String) (hs : p.stage.Sound)
    (hrem : Keeper Expression.forget p x remember) :
    Ends (do
        let other ← look (·.opposite speaker)
        let (n, _) ← evaluate speaker remember x
        changeCharacter other fun c => .ok (f n c)
        if (← get).style.narrates then printLine (text other (← ofBreakdown (Number.numeral n)))) p
      (fun _ q => ∃ other c n, p.stage.AloneWith speaker other ∧ p.stage.character other = .ok c ∧
        (x.evaluate speaker p.stage).1 = .ok n ∧ Alike { p with stage := p.stage.setCharacter other (f n c) } q)
      (fun _ _ => True) := by
  refine ends_look_opposite hs fun other halone => ?_
  refine (ends_evaluate_worth (Alike.refl p) hrem).bind ?_
  rintro ⟨n, x'⟩ q ⟨hq, -, hn⟩
  refine (ends_changed other).bind ?_
  rintro _ _ ⟨c, _, hc, ⟨⟩, rfl⟩
  rw [hq.stage] at hc ⊢
  have hdone := hq.restage (p.stage.setCharacter other (f n c))
  refine (ends_tell _ hdone (fun _ out ht => ht.print out) fun _ => trivial).mono (fun _ r hr => ?_) fun _ _ h => h
  exact ⟨other, c, n, halone, hc, hn, hr⟩

theorem effect_input {medium : Medium} (hs : p.stage.Sound) :
    Ends (performAction speaker remember (.input medium)) p
      (fun _ q => (Action.input medium).Effect speaker p q) (fun _ _ => True) := by
  unfold performAction
  refine ends_look_opposite hs fun other halone => ?_
  apply ends_bind
  cases hinput : input medium p with
  | error f r => exact ends_of_error hinput trivial
  | ok n r =>
    have hfed : p.Fed r := (ends_input medium (Alike.refl p).fed).ok hinput
    have hdone : ∀ t, r.Alike t → Ends (changeCharacter other fun c => .ok { c with value := n }) t
        (fun _ q => (Action.input medium).Effect speaker p q) (fun _ _ => True) := by
      intro t ht
      refine (ends_changed other).mono ?_ fun _ _ h => h
      rintro _ _ ⟨c, _, hc, ⟨⟩, rfl⟩
      rw [ht.stage, hfed.stage] at hc ⊢
      exact .input halone hc (Alike.refl p) hinput
        ⟨ht.script.trans hfed.script, rfl, ht.position.trans hfed.position,
        ht.desk, ht.style.trans hfed.style, ht.stdin, ht.reader⟩
    refine ends_of_ok hinput (ends_bind (ends_get ?_))
    dsimp only
    generalize Number.numeral n = numeral
    split
    · refine ends_bind (ends_ofBreakdown (fun text _ => ?_) fun _ => trivial)
      exact ends_bind (ends_modify (hdone _ ((Alike.refl r).print _)))
    · exact hdone r (Alike.refl r)

/-- Every action that succeeds has its effect, jumps apart. -/
theorem effect_performAction {a : Action Expression} (hs : p.stage.Sound)
    (hrem : Keeper Action.forget p a remember) (ha : ∀ target numeral, a ≠ .goto target numeral) :
    Ends (performAction speaker remember a) p (fun _ q => a.Effect speaker p q) (fun _ _ => True) := by
  cases a with
  | question comparison words x y => exact effect_question hrem
  | assignment x =>
    refine (effect_giving _ (fun n c => { c with value := n })
      (fun other numeral => other ++ " set to " ++ numeral) hs hrem.assigned).mono ?_ fun _ _ h => h
    rintro _ q ⟨other, c, n, halone, hc, hn, hq⟩
    exact .assignment halone hc hn hq
  | input medium => exact effect_input hs
  | output medium =>
    unfold performAction
    refine ends_look_opposite hs fun other _ => ?_
    apply ends_bind
    refine ends_look (fun c _ => ?_) fun _ _ => trivial
    refine (ends_narrate _ (Alike.refl p)).bind fun _ q hq => ?_
    exact (ends_output medium c.value hq).mono (fun _ _ hr => .output hr) fun _ _ _ => trivial
  | push x =>
    refine (effect_giving _ (fun n c => c.push n) (fun other numeral => other ++ " pushed " ++ numeral) hs
      hrem.pushed).mono ?_ fun _ _ h => h
    rintro _ q ⟨other, c, n, halone, hc, hn, hq⟩
    exact .push halone hc hn hq
  | pop recalled =>
    unfold performAction
    refine ends_look_opposite hs fun other halone => ?_
    refine (ends_changed other).bind ?_
    rintro _ _ ⟨c, c', hc, hpop, rfl⟩
    unfold Character.pop at hpop
    split at hpop
    · cases hpop
    · next n ns hstack =>
      cases hpop
      refine (ends_narrate _ ((Alike.refl p).restage _)).mono (fun _ _ hq => ?_) fun _ _ h => h
      exact .pop halone hc hstack hq
  | goto target numeral => exact absurd rfl (ha target numeral)

/-! ### Sentences -/

theorem touched_performSentence {span : Span} {condition : Option Condition} {a : Action Expression}
    (hs : p.stage.Sound) (hrem : Keeper Action.forget p a remember) :
    Ends (performSentence span remember speaker condition a) p (fun _ q => p.Touched speaker condition a q)
      (fun _ _ => True) := by
  unfold performSentence
  apply ends_bind
  refine ends_look (fun _ hpresent => ?_) fun _ _ => trivial
  have hspeaking := checkPresent_ok_iff.mp hpresent
  apply ends_bind
  apply ends_get
  dsimp only
  split
  · next hmet =>
    split
    · next target numeral =>
      refine (ends_jump target numeral).mono ?_ fun _ _ _ => trivial
      rintro _ q ⟨n, r, hn, hr, rfl⟩
      refine .of_effect hspeaking hmet (.goto hn ?_)
      exact ⟨hr.script, hr.stage, rfl, hr.desk, hr.style, hr.stdin, hr.reader⟩
    · next ha =>
      apply ends_locating
      exact (effect_performAction hs hrem ha).mono (fun _ _ hq => .of_effect hspeaking hmet hq)
        fun _ _ _ => trivial
  · next hmet =>
    exact (ends_narrate _ (Alike.refl p)).mono (fun _ _ hq => .of_alike hspeaking (Bool.eq_false_iff.mpr hmet) hq)
      fun _ _ h => h

/-- A step over a sentence goes on to the next position if the sentence has not moved. -/
theorem touched_step {op : Operation} {condition : Option Condition} {a : Action Expression} (hs : p.stage.Sound)
    (hop : p.script.operation? p.position = some op) (hdeed : op.deed = .speak speaker condition a) :
    Ends step p
      (fun _ q => ∃ r, p.Touched speaker condition a r ∧
        q = if r.position = p.position then { r with position := p.position + 1 } else r)
      (fun _ _ => True) := by
  unfold step
  apply ends_bind
  refine ends_nextOperation (fun op' hop' => ?_) fun _ => trivial
  obtain rfl : op = op' := Option.some.inj (hop.symm.trans hop')
  have hnot : op.isBreakpoint = false := by
    unfold Operation.isBreakpoint
    rw [hdeed]
    rfl
  rw [hnot, if_neg Bool.false_ne_true]
  refine ends_announce (fun _ out => ?_) fun _ _ _ => trivial
  have hsentence : Ends (perform (rememberAt p.position) op) (p.printed out)
      (fun _ r => p.Touched speaker condition a r) (fun _ _ => True) := by
    unfold perform
    rw [hdeed]
    exact (touched_performSentence (p := p.printed out) hs (keeper_rememberAt (p := p.printed out) hop hdeed)).mono
      (fun _ _ hr => hr.of_print) fun _ _ h => h
  refine hsentence.bind fun _ r hr => ends_bind (ends_get ?_)
  split
  · next hstay => exact ends_modify ⟨r, hr, by rw [if_pos hstay, hstay]⟩
  · next hmoved => exact ends_pure ⟨r, hr, by rw [if_neg hmoved]⟩

end PerformanceM

/-! ### All ways to perform a sentence -/

/-- Sentences of `speaker`, performed one after the other, lead from one performance to the other. -/
inductive Recited (speaker : String) : List Sentence → Performance → Performance → Prop
  | nil (p : Performance) : Recited speaker [] p p
  | cons {s : Sentence} {ss : List Sentence} {p q r : Performance} :
      p.Touched speaker s.condition (s.action.map Expression.ofValue) q → Recited speaker ss q r →
      Recited speaker (s :: ss) p r

namespace ReportM

variable {p : Performance}

theorem touched_performApart (speaker : String) (s : Sentence) (hs : p.stage.Sound) :
    Ends (performApart (Operation.ofSentence speaker s)) p
      (fun _ q => p.Touched speaker s.condition (s.action.map Expression.ofValue) q) (fun _ _ => True) :=
  PerformanceM.touched_performSentence hs fun _ hq => ends_pure hq

theorem recited_performApart (speaker : String) (ss : List Sentence) : ∀ {p : Performance}, p.stage.Sound →
    Ends ((ss.map (Operation.ofSentence speaker)).forM performApart) p (fun _ q => Recited speaker ss p q)
      (fun _ _ => True) := by
  induction ss with
  | nil => exact fun _ => ends_pure (.nil _)
  | cons s ss ih =>
    intro p hs
    have hperformed := ends_performApart (p := p) (Operation.ofSentence speaker s) hs
    refine ends_bind (((touched_performApart speaker s hs).and hperformed).mono ?_ fun _ _ _ => trivial)
    rintro _ q ⟨htouched, hq⟩
    exact (ih (hs.changed hq.stage)).mono (fun _ _ hr => .cons htouched hr) fun _ _ h => h

end ReportM

/-- **Each sentence touches only what it may.** Let a performance of a play have come to anything. A sentence from
outside of the script, the sentences of a line from outside of it one after the other, and the sentence that stands
next in the script: each that succeeds has exactly the effect of its action, and none if its condition does not
hold. The step over the one in the script then goes on to the next position, unless the sentence has moved. -/
theorem sentence_touches_only {source : List Char} {play : Play} {p : Performance} (hp : p.Reachable source play) :
    (∀ text s name q, ReportM.performSentence text s name p = .ok () q →
      p.Touched (Name.normalize name) s.condition (s.action.map Expression.ofValue) q) ∧
    (∀ text span name ss q, ReportM.performEvent text (.line span name ss) p = .ok () q →
      Recited (Name.normalizeWords name) ss p q) ∧
    (∀ op speaker condition a q, p.script.operation? p.position = some op → op.deed = .speak speaker condition a →
      ReportM.stepForward p = .ok () q → ∃ r, p.Touched speaker condition a r ∧
        q = if r.position = p.position then { r with position := p.position + 1 } else r) := by
  have hs := hp.sound.stage
  refine ⟨fun text s name q hq => ?_, fun text span name ss q hq => ?_,
    fun op speaker condition a q hop hdeed hq => ?_⟩
  · exact (ReportM.ends_reporting (ReportM.touched_performApart _ s hs)).ok hq
  · exact (ReportM.ends_reporting (ReportM.recited_performApart _ ss hs)).ok hq
  · exact (ReportM.ends_ofScript (PerformanceM.touched_step hs hop hdeed)).ok hq

/-- One tells another to remember something and to recall it, while a third is off stage. -/
def reminding : Play :=
  ⟨"Reminding", [⟨⟨0, 1⟩, ["Romeo"]⟩, ⟨⟨1, 2⟩, ["Juliet"]⟩, ⟨⟨2, 3⟩, ["The", "Ghost"]⟩],
    [⟨⟨⟨3, 4⟩, "I"⟩, "", [⟨⟨⟨4, 5⟩, "I"⟩, "", [ .entrance ⟨5, 6⟩ [["Romeo"], ["Juliet"]], .line ⟨6, 9⟩ ["Romeo"] [
      ⟨⟨7, 8⟩, none, .push (.nounPhrase ⟨7, 8⟩ .positive [] ["cat"])⟩, ⟨⟨8, 9⟩, none, .pop "that"⟩]]⟩]⟩]⟩

/-- The performance of `reminding` about to begin. -/
def remindingStart : Performance :=
  ⟨Script.ofActs [] reminding.acts, Stage.ofCast ["Romeo", "Juliet", "The Ghost"], 0, .basic [], .verbose,
    ⟨[], none, "", ""⟩, []⟩

/-- The performance of `reminding` before something is recalled. -/
def reminded : Performance := stateAfter ReportM.stepForward (stateAfter ReportM.stepForward remindingStart)

theorem reminded_reachable : reminded.Reachable [] reminding := by
  have hstart : Performance.ofPlay [] reminding (.basic []) .verbose ⟨[], none, "", ""⟩ = .ok remindingStart := rfl
  exact .ask .step (.ask .step (.start hstart))

/-- One recalls what that one was told, and a sentence whose condition does not hold changes nothing. -/
theorem sentence_touches_only_reminded :
    (∃ q r, ReportM.stepForward reminded = .ok () q ∧ reminded.Touched "Romeo" none (.pop "that") r ∧
      reminded.stage.character "Juliet" = .ok ⟨0, [1]⟩ ∧ r.stage.character "Juliet" = .ok ⟨1, []⟩) ∧
    (∃ q, ReportM.performSentence [] ⟨⟨0, 1⟩, some .ifSo, .assignment (.nothing ⟨0, 1⟩ "nothing")⟩
      "romeo" reminded =
      .ok () q ∧ reminded.Alike q) := by
  have hop : reminded.script.operation? reminded.position = some ⟨⟨8, 9⟩, .speak "Romeo" none (.pop "that")⟩ := by
    decide +kernel
  have hstep : ReportM.stepForward reminded = .ok () (stateAfter ReportM.stepForward reminded) :=
    ok_of_outcomeOf (by decide +kernel)
  have hrefused := ok_of_outcomeOf (s := reminded) (a := ())
    (m := ReportM.performSentence [] ⟨⟨0, 1⟩, some .ifSo, .assignment (.nothing ⟨0, 1⟩ "nothing")⟩ "romeo")
    (by decide +kernel)
  have hrecalled : (stateAfter ReportM.stepForward reminded).stage.character "Juliet" = .ok ⟨1, []⟩ := by
    decide +kernel
  obtain ⟨hsentence, -, hnext⟩ := sentence_touches_only reminded_reachable
  obtain ⟨r, hr, hq⟩ := hnext _ _ _ _ _ hop rfl hstep
  have hstage : (stateAfter ReportM.stepForward reminded).stage = r.stage := by
    rw [hq]
    split <;> rfl
  rw [hstage] at hrecalled
  exact ⟨⟨_, r, hstep, hr, by decide +kernel, hrecalled⟩, _, hrefused,
    (hsentence _ _ _ _ hrefused).refused (by decide +kernel)⟩

end Playhouse
