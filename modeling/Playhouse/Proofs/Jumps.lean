import Playhouse.Proofs.Reachable

/-!
# Playhouse.Proofs.Jumps — where jumps land

A jump sets the position, and a step goes on to the next position if it finds the position unchanged. So a jump
that leads away lands where it says, while a jump that leads to itself is passed: a scene that begins with the jump
to it is no endless loop. Where a jump leads is said by the acts and scenes of the play (`Leads`), not by the
entries of the layout. Main statement: `jump_lands`.
-/

namespace Playhouse

/-- A jump from position `k` leads to position `n`: to the first operation of the act of a numeral, or of the scene
of a numeral in the act that the operation at `k` belongs to. -/
inductive Leads (as : List Act) (k : Nat) : Target → String → Nat → Prop
  | act {a : Act} {n : Nat} : ActStart as a n → Leads as k .act a.number.text n
  | scene {a : Act} {s : Scene} {n m : Nat} : ActStart as a n → n ≤ k → k < n + a.operations.length →
      SceneStart a.scenes s m → Leads as k .scene s.number.text (n + m)

/-- The error of a jump that leads nowhere. -/
def Target.missing : Target → String → Cause
  | act => .noSuchAct
  | scene => .noSuchScene

/-! ### Destinations -/

section Destinations

variable {as : List Act} {k : Nat} {target : Target} {numeral : String} {source : List Char}

/-- The entries of acts and scenes are where jumps lead. -/
theorem destination_of_leads (hd : NumeralsDiffer as) {n : Nat} (h : Leads as k target numeral n) :
    PerformanceM.destination (Script.ofActs source as) k target numeral = .ok n := by
  unfold PerformanceM.destination
  cases h with
  | act ha => rw [Script.act?_of_start hd ha]
  | scene ha hn hk hs =>
    simp only [Script.actAt?_of_start ha hn hk, Script.lookup_sceneEntries (hd.2 _ ha.mem) hs]

theorem destination_of_not_leads (hk : k < (as.flatMap Act.operations).length)
    (h : ¬ ∃ n, Leads as k target numeral n) :
    PerformanceM.destination (Script.ofActs source as) k target numeral =
      .error (.error (target.missing numeral) none) := by
  unfold PerformanceM.destination
  cases target with
  | act =>
    have hmem : numeral ∉ as.map fun a => a.number.text := by
      intro hmem
      obtain ⟨a, ha, rfl⟩ := List.mem_map.mp hmem
      obtain ⟨n, hn⟩ := exists_start_of_mem ha
      exact h ⟨n, Leads.act hn⟩
    rw [Script.act?_eq_none hmem]
    rfl
  | scene =>
    obtain ⟨a, n, ha, hnk, hkn, -⟩ := exists_actStart hk
    have hnone : (Script.sceneEntries n a.scenes).lookup numeral = none := by
      cases hl : (Script.sceneEntries n a.scenes).lookup numeral with
      | none => rfl
      | some m =>
        have hkey := List.mem_map_of_mem (f := Prod.fst) (mem_of_lookup hl)
        rw [Script.sceneEntries_keys] at hkey
        obtain ⟨s, hs, rfl⟩ := List.mem_map.mp hkey
        obtain ⟨before, after, hscenes⟩ := List.append_of_mem hs
        exact absurd ⟨_, Leads.scene ha hnk hkn ⟨before, after, hscenes, rfl⟩⟩ h
    simp only [Script.actAt?_of_start ha hnk hkn, hnone]
    rfl

end Destinations

/-! ### A step at a jump -/

namespace PerformanceM

open Performance

/-- The operation at the present position is a jump that is to be made: the speaker is on stage and the condition,
if there is one, holds. -/
structure AtJump (p : Performance) (op : Operation) (target : Target) (numeral : String) : Prop where
  next : p.script.operation? p.position = some op
  made : ∃ speaker condition, op.deed = .speak speaker condition (.goto target numeral) ∧
    speaker ∈ p.stage.present ∧ isMet condition p.stage.flag = true

variable {p : Performance} {op : Operation} {target : Target} {numeral : String}

theorem AtJump.not_breakpoint (h : AtJump p op target numeral) : op.isBreakpoint = false := by
  obtain ⟨_, _, hdeed, -⟩ := h.made
  unfold Operation.isBreakpoint
  rw [hdeed]
  rfl

theorem ends_perform_jump (remember : Action Expression → PerformanceM Unit) (h : AtJump p op target numeral) :
    Ends (perform remember op) p
      (fun _ q => ∃ n r, destination p.script p.position target numeral = .ok n ∧ p.Alike r ∧
        q = { r with position := n })
      (fun f q => destination p.script p.position target numeral = .error f ∧ p.Alike q) := by
  obtain ⟨speaker, condition, hdeed, hspeaker, hmet⟩ := h.made
  have hpresent : p.stage.checkPresent speaker = .ok () := checkPresent_ok_iff.mpr hspeaker
  unfold perform
  rw [hdeed]
  dsimp only
  unfold performSentence
  apply ends_bind
  refine ends_look (fun _ _ => ?_) fun e he => ?_
  · apply ends_bind
    apply ends_get
    dsimp only
    rw [if_pos hmet]
    exact ends_jump target numeral
  · rw [hpresent] at he
    cases he

theorem ends_step_jump (h : AtJump p op target numeral) :
    Ends step p
      (fun _ q => Announced p op ∧ ∃ n : Nat, destination p.script p.position target numeral = .ok n ∧
        q.stage = p.stage ∧ q.position = if (n : Int) = p.position then p.position + 1 else n)
      (fun f q => (Announced p op ∧ destination p.script p.position target numeral = .error f ∧ p.Alike q) ∨
        ∃ b, p.style = .debug ∧ debugText p op = .error b ∧ f = .breakdown b ∧ q = p) := by
  unfold step
  apply ends_bind
  refine ends_nextOperation (fun op' hop' => ?_) fun hnone => ?_
  · have hop : op' = op := Option.some.inj (hop'.symm.trans h.next)
    rw [hop, if_neg (by rw [h.not_breakpoint]; exact Bool.false_ne_true)]
    refine ends_announce (fun ha out => ?_) fun b hdebug hb => Or.inr ⟨b, hdebug, hb, rfl, rfl⟩
    have hjump : AtJump (p.printed out) op target numeral := ⟨h.next, h.made⟩
    apply ends_bind
    refine (ends_perform_jump _ hjump).mono ?_ fun f q hq => Or.inl ⟨ha, hq.1, hq.2.of_print⟩
    rintro _ q ⟨n, r, hn, hr, rfl⟩
    -- the position that the jump has set is what tells the step whether to go on
    apply ends_bind
    apply ends_get
    dsimp only
    by_cases hself : (n : Int) = p.position
    · rw [if_pos hself]
      refine ends_modify ⟨ha, n, hn, hr.stage, ?_⟩
      rw [if_pos hself]
      exact congrArg (· + 1) hself
    · rw [if_neg hself]
      refine ends_pure ⟨ha, n, hn, hr.stage, ?_⟩
      rw [if_neg hself]
  · rw [h.next] at hnone
    cases hnone

theorem step_jump_ok (h : AtJump p op target numeral) (ha : Announced p op) {n : Nat}
    (hn : destination p.script p.position target numeral = .ok n) :
    ∃ q, step p = .ok () q ∧ q.stage = p.stage ∧
      q.position = if (n : Int) = p.position then p.position + 1 else n := by
  cases hm : step p with
  | ok a q =>
    obtain ⟨-, m, hm, hstage, hpos⟩ := (ends_step_jump h).ok hm
    rw [hn] at hm
    cases hm
    exact ⟨q, rfl, hstage, hpos⟩
  | error f q =>
    rcases (ends_step_jump h).error hm with ⟨-, hf, -⟩ | ⟨b, hdebug, hb, -, -⟩
    · rw [hn] at hf
      cases hf
    · exact absurd hb (ha.not_error hdebug)

theorem step_jump_error (h : AtJump p op target numeral) (ha : Announced p op) {f : Fault}
    (hf : destination p.script p.position target numeral = .error f) : ∃ q, step p = .error f q ∧ p.Alike q := by
  cases hm : step p with
  | ok a q =>
    obtain ⟨-, n, hn, -, -⟩ := (ends_step_jump h).ok hm
    rw [hf] at hn
    cases hn
  | error e q =>
    rcases (ends_step_jump h).error hm with ⟨-, he, hq⟩ | ⟨b, hdebug, hb, -, -⟩
    · rw [hf] at he
      cases he
      exact ⟨q, rfl, hq⟩
    · exact absurd hb (ha.not_error hdebug)

theorem step_jump_unannounced (h : AtJump p op target numeral) {b : Breakdown} (hdebug : p.style = .debug)
    (hb : debugText p op = .error b) : step p = .error (.breakdown b) p := by
  have hquiet : ¬ Announced p op := fun ha => ha.not_error hdebug hb
  cases hm : step p with
  | ok a q => exact absurd ((ends_step_jump h).ok hm).1 hquiet
  | error f q =>
    rcases (ends_step_jump h).error hm with ⟨ha, -, -⟩ | ⟨b', -, hb', rfl, rfl⟩
    · exact absurd ha hquiet
    · rw [hb] at hb'
      cases hb'
      rfl

end PerformanceM

/-- **Where jumps land.** At a jump that is to be made, in whatever a play has come to, a step moves to the first
operation of the act or scene that the jump names, except that a jump to its own position is passed. If there is no
such act or scene, it fails with the error that says so and stays. Nothing is done if the debug style breaks down
on its header. -/
theorem jump_lands {source : List Char} {play : Play} {p : Performance} {op : Operation} {target : Target}
    {numeral : String} (hp : p.Reachable source play) (hop : PerformanceM.AtJump p op target numeral) :
    ∃ k : Nat, p.position = k ∧
      (PerformanceM.Announced p op → ∀ n, Leads play.acts k target numeral n →
        ∃ q, ReportM.stepForward p = .ok () q ∧ q.stage = p.stage ∧ q.position = if n = k then k + 1 else n) ∧
      (PerformanceM.Announced p op → (¬ ∃ n, Leads play.acts k target numeral n) →
        ∃ q, ReportM.stepForward p = .error (.error (target.missing numeral) none (some p.stage)) q ∧
          q.stage = p.stage ∧ q.position = p.position) ∧
      (∀ b, p.style = .debug → PerformanceM.debugText p op = .error b →
        ReportM.stepForward p = .error (.breakdown b) p) := by
  have hs := hp.sound
  obtain ⟨k, hk⟩ := Int.eq_ofNat_of_zero_le hs.nonneg
  have hlt : k < (play.acts.flatMap Act.operations).length := by
    have := hs.lt_length hop.next
    omega
  have hdest : PerformanceM.destination p.script p.position target numeral =
      PerformanceM.destination (Script.ofActs source play.acts) k target numeral := by
    rw [hk]
    exact PerformanceM.destination_congr hs.acts k
  refine ⟨k, hk, fun ha n hn => ?_, fun ha hn => ?_, fun b hdebug hb => ?_⟩
  · rw [destination_of_leads hs.numerals hn] at hdest
    obtain ⟨q, hq, hstage, hpos⟩ := PerformanceM.step_jump_ok hop ha hdest
    refine ⟨q, ReportM.reporting_of_ok hq, hstage, ?_⟩
    rw [hpos, hk]
    by_cases hself : n = k
    · rw [if_pos hself, if_pos (by omega)]
      rfl
    · rw [if_neg hself, if_neg (by omega)]
  · rw [destination_of_not_leads hlt hn] at hdest
    obtain ⟨q, hq, halike⟩ := PerformanceM.step_jump_error hop ha hdest
    refine ⟨q, ?_, halike.stage, halike.position⟩
    rw [← halike.stage]
    exact ReportM.reporting_of_error hq
  · exact ReportM.reporting_of_breakdown (PerformanceM.step_jump_unannounced hop hdebug hb)

/-! ### A scene that begins with the jump to it -/

/-- Somebody enters. -/
def circleFirst : Scene := ⟨⟨⟨2, 3⟩, "I"⟩, "", [.entrance ⟨3, 4⟩ [["Romeo"]]]⟩

/-- The same character says to return to the scene that this begins, and then to return to the scene before. -/
def circleSecond : Scene :=
  ⟨⟨⟨4, 5⟩, "II"⟩, "",
    [.line ⟨5, 8⟩ ["Romeo"] [⟨⟨6, 7⟩, none, .goto .scene "II"⟩, ⟨⟨7, 8⟩, none, .goto .scene "I"⟩]]⟩

/-- The only act of `circle`. -/
def circleAct : Act := ⟨⟨⟨1, 2⟩, "I"⟩, "", [circleFirst, circleSecond]⟩

/-- A play whose second scene begins with the jump to it. -/
def circle : Play := ⟨"Circle", [⟨⟨0, 1⟩, ["Romeo"]⟩], [circleAct]⟩

/-- The performance of `circle` after some steps. -/
def circleAfter : Nat → Performance
  | 0 => ⟨Script.ofActs [] circle.acts, Stage.ofCast ["Romeo"], 0, .basic [], .basic, ⟨[], none, "", ""⟩, []⟩
  | n + 1 => stateAfter ReportM.stepForward (circleAfter n)

theorem circleAfter_reachable (n : Nat) : (circleAfter n).Reachable [] circle := by
  have hstart : Performance.ofPlay [] circle (.basic []) .basic ⟨[], none, "", ""⟩ = .ok (circleAfter 0) := rfl
  induction n with
  | zero => exact Performance.Reachable.start hstart
  | succ n ih => exact ih.ask Request.step

theorem circleAct_start : ActStart circle.acts circleAct 0 := ⟨[], [], rfl, rfl⟩

/-- The jump back from the second scene lands in the first. -/
theorem jump_lands_before :
    ∃ p : Performance, p.Reachable [] circle ∧ p.position = 2 ∧ Leads circle.acts 2 .scene "I" 0 ∧
      ∃ q, ReportM.stepForward p = .ok () q ∧ q.position = 0 := by
  have hleads : Leads circle.acts 2 .scene "I" 0 :=
    Leads.scene circleAct_start (by decide) (by decide) (s := circleFirst) ⟨[], [circleSecond], rfl, rfl⟩
  have hop : PerformanceM.AtJump (circleAfter 2) ⟨⟨7, 8⟩, .speak "Romeo" none (.goto .scene "I")⟩ .scene "I" :=
    ⟨by decide, "Romeo", none, rfl, by decide, rfl⟩
  obtain ⟨k, hk, hland, -⟩ := jump_lands (circleAfter_reachable 2) hop
  have hposition : (circleAfter 2).position = 2 := by decide
  obtain rfl : k = 2 := by omega
  obtain ⟨q, hq, -, hpos⟩ := hland (fun h => absurd h (by decide)) 0 hleads
  exact ⟨_, circleAfter_reachable 2, hposition, hleads, q, hq, hpos⟩

/-- The second scene begins at position 1, and a step at the jump to it, which stands there, leads to position
2. -/
theorem jump_to_itself_passed :
    ∃ (p : Performance) (op : Operation), p.Reachable [] circle ∧ PerformanceM.AtJump p op .scene "II" ∧
      p.position = 1 ∧ Leads circle.acts 1 .scene "II" 1 ∧
      ∃ q, ReportM.stepForward p = .ok () q ∧ q.position = 2 := by
  have hleads : Leads circle.acts 1 .scene "II" 1 :=
    Leads.scene circleAct_start (by decide) (by decide) (s := circleSecond) ⟨[circleFirst], [], rfl, rfl⟩
  have hop : PerformanceM.AtJump (circleAfter 1) ⟨⟨6, 7⟩, .speak "Romeo" none (.goto .scene "II")⟩ .scene "II" :=
    ⟨by decide, "Romeo", none, rfl, by decide, rfl⟩
  have hstep : ReportM.stepForward (circleAfter 1) = .ok () (circleAfter 2) := rfl
  exact ⟨_, _, circleAfter_reachable 1, hop, by decide, hleads, _, hstep, by decide⟩

end Playhouse
