import Playhouse.Proofs.Breakdowns

/-!
# Playhouse.Proofs.Stepping — a run is one step after the other

A run looks for breakpoints itself and passes them on its own, and so does a step. Both come to the same: a run
performs steps while the play is not over, and at each breakpoint that a step has passed it does what is to be done
there. The position stays within the script, whatever is performed and whether it succeeds. Main statement:
`run_is_stepping`.
-/

namespace Playhouse

open PerformanceM (isOver)

namespace Performance

/-- The next operation is a breakpoint. -/
def atBreakpoint (p : Performance) : Bool := (p.script.operation? p.position).any Operation.isBreakpoint

/-- The position is one of the script, or its end. -/
def InRange (p : Performance) : Prop := 0 ≤ p.position ∧ p.position ≤ p.script.operations.length

/-- The performance after `n` steps, whether they succeed or fail. -/
def afterSteps (p : Performance) : Nat → Performance
  | 0 => p
  | n + 1 => stateAfter ReportM.stepForward (p.afterSteps n)

end Performance

theorem PerformanceM.step_of_breakpoint {p : Performance} {op : Operation}
    (hop : p.script.operation? p.position = some op) (hbreak : op.isBreakpoint = true) :
    step p = .ok () { p with position := p.position + 1 } := by
  unfold step
  rw [bind_of_ok (nextOperation_of_some hop), if_pos hbreak]
  rfl

namespace ReportM

/-- At most `n` steps, made while the play is not over. -/
def steps : Nat → ReportM Unit
  | 0 => pure ()
  | n + 1 => do
    if ← playOver then return
    stepForward
    steps n

/-- Steps made while the play is not over, with `m` after each step that passes a breakpoint. It is given up after
`n` steps. Returns what `m` returned after `seen`, which holds what it returned before, latest first. -/
def stepsPausing {α : Type} (m : ReportM α) : Nat → List α → ReportM (List α)
  | 0, _ => breakDown .endless
  | n + 1, seen => do
    if ← playOver then return seen.reverse
    let pausing := (← get).atBreakpoint
    stepForward
    if pausing then
      let a ← m
      stepsPausing m n (a :: seen)
    else stepsPausing m n seen

variable {α : Type} {m : ReportM α} {p q : Performance} {n : Nat} {seen : List α}

/-! ### Rounds and steps -/

theorem stepForward_of_none (h : p.script.operation? p.position = none) :
    stepForward p = .error (.breakdown .positionOutOfRange) p :=
  reporting_of_breakdown (bind_of_error (PerformanceM.nextOperation_of_none h))

/-- A step passes a breakpoint and does nothing else. -/
theorem stepForward_of_breakpoint (h : p.atBreakpoint = true) :
    stepForward p = .ok () { p with position := p.position + 1 } := by
  obtain ⟨op, hop, hbreak⟩ := (Option.any_eq_true _ _).mp h
  exact reporting_of_ok (PerformanceM.step_of_breakpoint hop hbreak)

theorem step_of_stepForward (h : stepForward p = .ok () q) : PerformanceM.step p = .ok () q := by
  cases hstep : PerformanceM.step p with
  | ok _ t =>
    cases (reporting_of_ok hstep).symm.trans h
    rfl
  | error f t =>
    cases f with
    | breakdown b => cases (reporting_of_breakdown hstep).symm.trans h
    | error cause span => cases (reporting_of_error hstep).symm.trans h

/-- A round of a run is a step, and what is to be done at a breakpoint if the step has passed one. -/
theorem round_eq_step : round m p = (do
    stepForward
    if p.atBreakpoint then
      let a ← m
      return some a
    else return none : ReportM (Option α)) p := by
  unfold round
  cases hop : p.script.operation? p.position with
  | none =>
    have hnext : ofScript PerformanceM.nextOperation p = .error (.breakdown .positionOutOfRange) p :=
      reporting_of_breakdown (PerformanceM.nextOperation_of_none hop)
    rw [bind_of_error hnext, bind_of_error (stepForward_of_none hop)]
  | some op =>
    have hnext : ofScript PerformanceM.nextOperation p = .ok op p :=
      reporting_of_ok (PerformanceM.nextOperation_of_some hop)
    have hat : p.atBreakpoint = op.isBreakpoint := by
      unfold Performance.atBreakpoint
      rw [hop, Option.any_some]
    rw [bind_of_ok hnext, hat]
    by_cases hbreak : op.isBreakpoint = true
    · have hadvance : ofScript PerformanceM.advance p = .ok () { p with position := p.position + 1 } := rfl
      rw [if_pos hbreak, if_pos hbreak, bind_of_ok hadvance,
        bind_of_ok (stepForward_of_breakpoint (hat.trans hbreak))]
    · rw [if_neg hbreak, if_neg hbreak]

theorem playOver_eq (p : Performance) : playOver p = .ok (isOver p) p := rfl

theorem runFrom_of_over (h : isOver p = true) : runFrom m (n + 1) seen p = .ok seen.reverse p := by
  unfold runFrom
  rw [bind_of_ok (playOver_eq p), if_pos h]
  rfl

/-- A run goes on after a step, and after what is to be done at the breakpoint if the step has passed one. -/
theorem runFrom_of_stepForward (hover : isOver p = false) (h : stepForward p = .ok () q) :
    runFrom m (n + 1) seen p =
      (if p.atBreakpoint then (do runFrom m n ((← m) :: seen)) else runFrom m n seen : ReportM (List α)) q := by
  have hround := round_eq_step (m := m) (p := p)
  rw [bind_of_ok h] at hround
  conv_lhs => unfold runFrom
  rw [bind_of_ok (playOver_eq p), if_neg (by simp [hover])]
  by_cases hat : p.atBreakpoint = true
  · rw [if_pos hat] at hround ⊢
    cases hm : m q with
    | error r t =>
      rw [bind_of_error hm] at hround
      rw [bind_of_error hround, bind_of_error hm]
    | ok a t =>
      rw [bind_of_ok hm] at hround
      rw [bind_of_ok hround, bind_of_ok hm]
  · rw [if_neg hat] at hround ⊢
    rw [bind_of_ok hround]

theorem runFrom_of_stepForward_error {r : Report} (hover : isOver p = false) (h : stepForward p = .error r q) :
    runFrom m (n + 1) seen p = .error r q := by
  have hround := round_eq_step (m := m) (p := p)
  rw [bind_of_error h] at hround
  unfold runFrom
  rw [bind_of_ok (playOver_eq p), if_neg (by simp [hover]), bind_of_error hround]

/-- A run is one step after the other, whatever is done at breakpoints. -/
theorem runFrom_eq_stepsPausing (n : Nat) : ∀ (seen : List α) (p : Performance),
    runFrom m n seen p = stepsPausing m n seen p := by
  induction n with
  | zero => exact fun _ _ => rfl
  | succ n ih =>
    intro seen p
    have hget : (get : ReportM Performance) p = .ok p p := rfl
    unfold stepsPausing
    rw [bind_of_ok (playOver_eq p)]
    by_cases hover : isOver p = true
    · rw [if_pos hover, runFrom_of_over hover]
      rfl
    · have hon : isOver p = false := by simpa using hover
      rw [if_neg hover, bind_of_ok hget]
      cases hstep : stepForward p with
      | error r q => rw [bind_of_error hstep, runFrom_of_stepForward_error hon hstep]
      | ok u q =>
        rw [bind_of_ok hstep, runFrom_of_stepForward hon hstep]
        split
        · cases hm : m q with
          | error r t => rw [bind_of_error hm, bind_of_error hm]
          | ok a t =>
            rw [bind_of_ok hm, bind_of_ok hm]
            exact ih (a :: seen) t
        · exact ih seen q

/-! ### Runs that do nothing at breakpoints -/

theorem round_of_stepForward (h : stepForward p = .ok () q) : ∃ mark, round (pure ()) p = .ok mark q := by
  rw [round_eq_step, bind_of_ok h]
  by_cases hat : p.atBreakpoint = true
  · rw [if_pos hat]
    exact ⟨some (), rfl⟩
  · rw [if_neg hat]
    exact ⟨none, rfl⟩

theorem round_of_stepForward_error {r : Report} (h : stepForward p = .error r q) :
    round (pure ()) p = .error r q := by
  rw [round_eq_step, bind_of_error h]

section Kept

variable {I : Performance → Prop} (hstep : ∀ q, I q → Ends stepForward q (fun _ => I) (fun _ => I))

include hstep

theorem kept_round (hp : I p) : Ends (round (pure ())) p (fun _ => I) (fun _ => I) := by
  cases h : stepForward p with
  | ok u q =>
    obtain ⟨mark, hround⟩ := round_of_stepForward h
    exact ends_of_ok hround ((hstep p hp).ok h)
  | error r q => exact ends_of_error (round_of_stepForward_error h) ((hstep p hp).error h)

/-- What a step keeps is kept by a run. -/
theorem kept_runFrom (n : Nat) : ∀ (seen : List Unit) {p : Performance}, I p →
    Ends (runFrom (pure ()) n seen) p (fun _ => I) (fun _ => I) := by
  induction n with
  | zero => exact fun seen p hp => ends_throw hp
  | succ n ih =>
    intro seen p hp
    unfold runFrom
    apply ends_bind
    refine ends_of_ok (playOver_eq p) ?_
    split
    · exact ends_pure hp
    · refine (kept_round hstep hp).bind fun outcome q hq => ?_
      cases outcome with
      | none => exact ih seen hq
      | some a => exact ih (a :: seen) hq

end Kept

theorem steps_of_over (h : isOver p = true) : steps (n + 1) p = .ok () p := by
  unfold steps
  rw [bind_of_ok (playOver_eq p), if_pos h]
  rfl

theorem steps_of_stepForward (hover : isOver p = false) (h : stepForward p = .ok () q) :
    steps (n + 1) p = steps n q := by
  conv_lhs => unfold steps
  rw [bind_of_ok (playOver_eq p), if_neg (by simp [hover]), bind_of_ok h]

theorem steps_of_stepForward_error {r : Report} (hover : isOver p = false) (h : stepForward p = .error r q) :
    steps (n + 1) p = .error r q := by
  unfold steps
  rw [bind_of_ok (playOver_eq p), if_neg (by simp [hover]), bind_of_error h]

/-- A run that is given up after `n` rounds leaves what `n` steps leave. Otherwise it has come to its end
before. -/
theorem runFrom_of_steps (n : Nat) : ∀ {p q : Performance}, steps n p = .ok () q → ∀ seen,
    (∃ marks, runFrom (pure ()) n seen p = .ok marks q) ∨ runFrom (pure ()) n seen p =
      .error (.breakdown .endless) q := by
  induction n with
  | zero =>
    rintro p q ⟨⟩ seen
    exact .inr rfl
  | succ n ih =>
    intro p q h seen
    by_cases hover : isOver p = true
    · rw [steps_of_over hover] at h
      cases h
      exact .inl ⟨_, runFrom_of_over hover⟩
    · have hon : isOver p = false := by simpa using hover
      cases hstep : stepForward p with
      | error r t =>
        rw [steps_of_stepForward_error hon hstep] at h
        cases h
      | ok u t =>
        rw [steps_of_stepForward hon hstep] at h
        obtain ⟨mark, hround⟩ := round_of_stepForward hstep
        rw [runFrom_of_round hon hround]
        exact ih h (mark.toList ++ seen)

/-- After `n` steps a run goes on from there. -/
theorem runFrom_after_steps (n k : Nat) : ∀ {p q : Performance}, steps n p = .ok () q → ∀ seen,
    ∃ seen', runFrom (pure ()) (n + (k + 1)) seen p = runFrom (pure ()) (k + 1) seen' q := by
  induction n with
  | zero =>
    rintro p q ⟨⟩ seen
    exact ⟨seen, by rw [Nat.zero_add]⟩
  | succ n ih =>
    intro p q h seen
    by_cases hover : isOver p = true
    · rw [steps_of_over hover] at h
      cases h
      exact ⟨seen, by rw [runFrom_of_over hover, Nat.add_right_comm, runFrom_of_over hover]⟩
    · have hon : isOver p = false := by simpa using hover
      cases hstep : stepForward p with
      | error r t =>
        rw [steps_of_stepForward_error hon hstep] at h
        cases h
      | ok u t =>
        rw [steps_of_stepForward hon hstep] at h
        obtain ⟨mark, hround⟩ := round_of_stepForward hstep
        rw [Nat.add_right_comm, runFrom_of_round hon hround]
        exact ih h (mark.toList ++ seen)

/-- A run fails where the steps fail. -/
theorem runFrom_of_steps_error (n : Nat) : ∀ {p q : Performance} {r : Report}, steps n p = .error r q →
    ∀ seen, runFrom (pure ()) n seen p = .error r q := by
  induction n with
  | zero => rintro p q r ⟨⟩
  | succ n ih =>
    intro p q r h seen
    by_cases hover : isOver p = true
    · rw [steps_of_over hover] at h
      cases h
    · have hon : isOver p = false := by simpa using hover
      cases hstep : stepForward p with
      | error r' t =>
        rw [steps_of_stepForward_error hon hstep] at h
        cases h
        exact runFrom_of_error hon (round_of_stepForward_error hstep)
      | ok u t =>
        rw [steps_of_stepForward hon hstep] at h
        obtain ⟨mark, hround⟩ := round_of_stepForward hstep
        rw [runFrom_of_round hon hround]
        exact ih h (mark.toList ++ seen)

/-- One more round returns if and only if the play is over. -/
theorem run_succ_iff (h : steps n p = .ok () q) : (∃ marks, run (pure ()) (n + 1) p = .ok marks q) ↔
    isOver q = true := by
  obtain ⟨seen, hgo⟩ := runFrom_after_steps n 0 h []
  rw [show run (pure ()) (n + 1) p = runFrom (pure ()) 1 seen q from hgo]
  constructor
  · rintro ⟨marks, hmarks⟩
    exact (ends_runFrom 1 seen).ok hmarks
  · exact fun hover => ⟨_, runFrom_of_over hover⟩

theorem stateAfter_steps (n : Nat) (p : Performance) :
    stateAfter (steps n) p = stateAfter (run (pure ()) n) p := by
  unfold stateAfter
  cases h : steps n p with
  | error r q => rw [show run (pure ()) n p = .error r q from runFrom_of_steps_error n h []]
  | ok u q =>
    obtain ⟨marks, hrun⟩ | hrun := runFrom_of_steps n h []
    · rw [show run (pure ()) n p = .ok marks q from hrun]
    · rw [show run (pure ()) n p = .error (.breakdown .endless) q from hrun]

end ReportM

/-! ### The position -/

namespace Performance

variable {source : List Char} {play : Play} {p : Performance}

theorem Sound.inRange (h : p.Sound source play) : p.InRange := by
  refine ⟨h.nonneg, ?_⟩
  rw [h.length]
  exact h.le_length

theorem Reachable.inRange (h : p.Reachable source play) (r : Request) : (stateAfter r.perform p).InRange :=
  (h.ask r).sound.inRange

theorem Reachable.inRange_steps (h : p.Reachable source play) (n : Nat) :
    (stateAfter (ReportM.steps n) p).InRange := by
  have hrun : Ends (ReportM.run (pure ()) n) p (fun _ q => q.Sound source play) (fun _ q => q.Sound source play) :=
    ReportM.kept_runFrom (fun _ hq => ReportM.sound_stepForward hq) n [] h.sound
  rw [ReportM.stateAfter_steps]
  exact hrun.stateAfter.inRange

/-- A text that is no event is refused before anything is done. -/
theorem Reachable.inRange_runEvent (h : p.Reachable source play) (text : List Char) :
    (stateAfter (ReportM.runEvent text) p).InRange := by
  have hrun : ReportM.runEvent text = ReportM.ofText (readAs .event Event.ofTree? text) >>=
      ReportM.performEvent text := rfl
  rw [hrun]
  cases readAs .event Event.ofTree? text with
  | ok e => exact h.inRange (.event text e)
  | error e => exact h.sound.inRange

theorem Reachable.inRange_runSentence (h : p.Reachable source play) (text : List Char) (speaker : String) :
    (stateAfter (ReportM.runSentence text speaker) p).InRange := by
  have hrun : ReportM.runSentence text speaker =
      ReportM.ofText (readAs .sentence Sentence.ofTree? text) >>= fun s =>
      ReportM.performSentence text s speaker := rfl
  rw [hrun]
  cases readAs .sentence Sentence.ofTree? text with
  | ok s => exact h.inRange (.sentence text s speaker)
  | error e => exact h.sound.inRange

end Performance

/-- **A run is one step after the other.** In whatever a play has come to, a run that is given up after `n` rounds
leaves what `n` steps leave that are made while the play is not over, fails as they fail, and has come to its end
as they have. Whatever is to be done at breakpoints is done once for each breakpoint that is passed, just after it
was passed. The position stays within the script after steps, and after events and sentences from outside, whether
they succeed or fail. -/
theorem run_is_stepping {source : List Char} {play : Play} {p : Performance} (hp : p.Reachable source play) :
    (∀ n, (∀ q, ReportM.steps n p = .ok () q →
          ((∃ marks, ReportM.run (pure ()) n p = .ok marks q) ∨
            ReportM.run (pure ()) n p = .error (.breakdown .endless) q) ∧
          ((∃ marks, ReportM.run (pure ()) (n + 1) p = .ok marks q) ↔ isOver q = true)) ∧
        ∀ r q, ReportM.steps n p = .error r q → ReportM.run (pure ()) n p = .error r q) ∧
      (∀ (α : Type) (m : ReportM α) (n : Nat), ReportM.run m n p = ReportM.stepsPausing m n [] p) ∧
      (∀ q : Performance, q.atBreakpoint = true → ReportM.stepForward q =
        .ok () { q with position := q.position + 1 }) ∧
      (∀ n, (stateAfter (ReportM.steps n) p).InRange) ∧
      (stateAfter ReportM.stepForward p).InRange ∧
      (∀ text e, (stateAfter (ReportM.performEvent text e) p).InRange) ∧
      (∀ text, (stateAfter (ReportM.runEvent text) p).InRange) ∧
      (∀ text s speaker, (stateAfter (ReportM.performSentence text s speaker) p).InRange) ∧
      ∀ text speaker, (stateAfter (ReportM.runSentence text speaker) p).InRange := by
  refine ⟨fun n => ⟨fun q hq => ?_, fun r q hq => ?_⟩, fun α m n => ?_, fun q hq => ?_, ?_, ?_, ?_, ?_, ?_, ?_⟩
  · exact ⟨ReportM.runFrom_of_steps n hq [], ReportM.run_succ_iff hq⟩
  · exact ReportM.runFrom_of_steps_error n hq []
  · exact ReportM.runFrom_eq_stepsPausing n [] p
  · exact ReportM.stepForward_of_breakpoint hq
  · exact hp.inRange_steps
  · exact hp.inRange .step
  · exact fun text e => hp.inRange (.event text e)
  · exact hp.inRange_runEvent
  · exact fun text s speaker => hp.inRange (.sentence text s speaker)
  · exact hp.inRange_runSentence

/-! ### A jump to an empty last scene -/

/-- Somebody enters and, after a pause, proceeds to a scene in which nothing happens. -/
def departure : Play :=
  ⟨"Departure", [⟨⟨0, 1⟩, ["Romeo"]⟩], [⟨⟨⟨1, 2⟩, "I"⟩, "", [
    ⟨⟨⟨2, 3⟩, "I"⟩, "", [.entrance ⟨3, 4⟩ [["Romeo"]], .breakpoint ⟨4, 5⟩,
      .line ⟨5, 7⟩ ["Romeo"] [⟨⟨6, 7⟩, none, .goto .scene "II"⟩]]⟩,
    ⟨⟨⟨7, 8⟩, "II"⟩, "", []⟩]⟩]⟩

/-- The performance of `departure` about to begin. -/
def departureStart : Performance :=
  ⟨Script.ofActs [] departure.acts, Stage.ofCast ["Romeo"], 0, .basic [], .basic, ⟨[], none, "", ""⟩, []⟩

/-- The last scene begins at the end of the script, where three steps have led. The breakpoint is passed once. -/
theorem run_is_stepping_departure :
    ∃ p q, p.Reachable [] departure ∧ ReportM.steps 3 p = .ok () q ∧ q.position = 3 ∧ q.InRange ∧
      (∃ marks, ReportM.run (pure ()) 4 p = .ok marks q) ∧
      ReportM.run (do return (← get).position) 4 p = .ok [2] q := by
  have hstart : Performance.ofPlay [] departure (.basic []) .basic ⟨[], none, "", ""⟩ = .ok departureStart := rfl
  have hp := Performance.Reachable.start hstart
  have hsteps : ReportM.steps 3 departureStart = .ok () _ := rfl
  obtain ⟨hrun, hpausing, -, hrange, -⟩ := run_is_stepping hp
  have hstate := hrange 3
  unfold stateAfter at hstate
  rw [hsteps] at hstate
  refine ⟨departureStart, _, hp, hsteps, rfl, hstate, (((hrun 3).1 _ hsteps).2).mpr rfl, ?_⟩
  rw [hpausing]
  rfl

end Playhouse
