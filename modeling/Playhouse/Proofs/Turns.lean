import Mathlib.Data.List.Destutter
import Playhouse.Console
import Playhouse.Proofs.Stepping

/-!
# Playhouse.Proofs.Turns — the debugger, turn by turn

A run with a console at each breakpoint goes back and forth between two loops. Here it is cut into turns: a step of
the run, with the console opened if a breakpoint was passed, or a line at the console. From each moment on, the
debugger is one turn and then the debugger from the next moment on (`debugFrom_running`, `debugFrom_paused`).
`Follows` says that the debugger goes through what a run goes through. Turns that change nothing (`Follows.wait`)
and turns that make a step of the run (`Follows.move`) carry it back from the end.
-/

namespace Playhouse

open PerformanceM (isOver)

/-- What the debugger is doing. -/
inductive Moment where
  | running
  /-- A line is awaited at the console, where `speaker` spoke last. -/
  | paused (speaker : Option String)
  | ended
  deriving DecidableEq, Repr

/-- What is seen of a performance. -/
def Performance.observed (p : Performance) : Int × Stage := (p.position, p.stage)

namespace ReportM

/-- What is done at a breakpoint before the first line is awaited. -/
def openConsole : ReportM Unit := do
  let text ← nextOperationText
  bare (PerformanceM.printLine ("-----\n" ++ text ++ "\n-----\n"))
  setInputStyle "interactive"
  setOutputStyle "verbose"

/-- One turn of the debugger. -/
def turn : Moment → ReportM Moment
  | .running => do
    if ← playOver then return .ended
    let pausing := (← get).atBreakpoint
    stepForward
    if pausing then
      openConsole
      return .paused none
    else return .running
  | .paused speaker => do
    match ← consoleRound speaker with
    | some speaker => return .paused speaker
    | none => return .running
  | .ended => return .ended

/-- Turns of the debugger one after the other. -/
def turns : Nat → Moment → ReportM Moment
  | 0, m => return m
  | n + 1, m => do turns n (← turn m)

/-- The debugger from a moment on, with at most `fuel` rounds of the run, and at most `rounds` of the console if it
is open. `seen` is what the run has noted of breakpoints before. -/
def debugFrom (fuel : Nat) (seen : List Unit) : Moment → Nat → ReportM (List Unit)
  | .running, _ => runFrom pause fuel seen
  | .paused speaker, rounds => do
    consoleFrom rounds speaker
    runFrom pause fuel (() :: seen)
  | .ended, _ => return seen.reverse

variable {p q : Performance} {m m' : Moment} {fuel rounds : Nat} {seen : List Unit}

/-- A pause opens the console and awaits lines, of which there are no more than characters in the input. -/
theorem pause_eq :
    pause = openConsole >>= fun _ => get >>= fun q => consoleFrom (q.streams.stdin.length + 1) none := by
  unfold pause openConsole console
  simp only [bind_assoc]

theorem turn_of_over (h : isOver p = true) : turn .running p = .ok .ended p := by
  rw [turn, bind_of_ok (playOver_eq p), if_pos h]
  rfl

/-- How a turn of the run goes that is not the last. -/
theorem turn_of_stepForward (hover : isOver p = false) (h : stepForward p = .ok () q) : turn .running p =
    (if p.atBreakpoint then (do openConsole; return .paused none) else return .running : ReportM Moment) q := by
  have hget : (get : ReportM Performance) p = .ok p p := rfl
  rw [turn, bind_of_ok (playOver_eq p), if_neg (by simp [hover]), bind_of_ok hget, bind_of_ok h]

/-- From a moment of the run on, the debugger is a turn and then the debugger from the next moment on. -/
theorem debugFrom_running : debugFrom (fuel + 1) seen .running rounds =
    turn .running >>= fun m => get >>= fun q => debugFrom fuel seen m (q.streams.stdin.length + 1) := by
  have hrun : ∀ n seen, runFrom pause n seen = stepsPausing pause n seen :=
    fun n seen => funext (runFrom_eq_stepsPausing n seen)
  show runFrom pause (fuel + 1) seen = _
  rw [hrun, stepsPausing, turn, bind_assoc]
  refine congrArg _ (funext fun hasEnded => ?_)
  cases hasEnded with
  | true => rfl
  | false =>
    rw [if_neg Bool.false_ne_true, if_neg Bool.false_ne_true]
    simp only [bind_assoc]
    refine congrArg _ (funext fun p => congrArg _ (funext fun _ => ?_))
    cases p.atBreakpoint with
    | true =>
      rw [if_pos rfl, if_pos rfl]
      simp only [← hrun]
      refine (congrArg (· >>= _) pause_eq).trans ?_
      simp only [bind_assoc]
      rfl
    | false =>
      rw [if_neg Bool.false_ne_true, if_neg Bool.false_ne_true, ← hrun]
      rfl

/-- So it is at the console. -/
theorem debugFrom_paused {speaker : Option String} (h : turn (.paused speaker) p = .ok m q) :
    ∃ seen', debugFrom fuel seen (.paused speaker) (rounds + 1) p = debugFrom fuel seen' m rounds q := by
  rw [turn] at h
  cases hround : consoleRound speaker p with
  | error r t =>
    rw [bind_of_error hround] at h
    cases h
  | ok next t =>
    rw [bind_of_ok hround] at h
    cases next with
    | some speaker' =>
      cases h
      have hconsole : consoleFrom (rounds + 1) speaker p = consoleFrom rounds speaker' q := bind_of_ok hround
      exact ⟨seen, bind_of_eq hconsole⟩
    | none =>
      cases h
      have hconsole : consoleFrom (rounds + 1) speaker p = .ok () q := bind_of_ok hround
      exact ⟨() :: seen, bind_of_ok hconsole⟩

/-! ### What is gone through -/

/-- What is seen before, between and after `n` steps or turns. -/
def course {α : Type} (m : Nat → ReportM α) (n : Nat) (p : Performance) : List (Int × Stage) :=
  (List.range (n + 1)).map fun i => (stateAfter (m i) p).observed

/-- A return, or a breakdown for want of a next operation. -/
def ending {α : Type} (stranded : Bool) (a : α) (p : Performance) : EStateM.Result Report Performance α :=
  if stranded then .error (.breakdown .positionOutOfRange) p else .ok a p

/-- The debugger that goes on from the moment `m` comes by what is there after `i` turns. -/
def Passes (fuel : Nat) (seen : List Unit) (m : Moment) (rounds : Nat) (d : Performance) (i : Nat) : Prop :=
  ∃ m' e fuel' seen' rounds', turns i m d = .ok m' e ∧
    debugFrom fuel seen m rounds d = debugFrom fuel' seen' m' rounds' e

/-- From the moment `m` on, the debugger comes by all that is there before the last of `k` turns, and ends in `d'`.
The console is given as many rounds as there may be lines. -/
def Comes (stranded : Bool) (m : Moment) (d : Performance) (k : Nat) (d' : Performance) : Prop :=
  ∃ fuel, ∀ seen rounds, d.streams.stdin.length < rounds →
    (∃ marks, debugFrom fuel seen m rounds d = ending stranded marks d') ∧ ∀ i < k, Passes fuel seen m rounds d i

/-- A run started in `p` comes to its end in `n` steps. The debugger goes through the same from the moment `m` in
`d` on, with `k` turns. -/
structure Follows (stranded : Bool) (m : Moment) (p d : Performance) (n : Nat) (q : Performance) (k : Nat)
    (d' : Performance) : Prop where
  performed : steps n p = .ok () q
  ended : isOver q = true
  turned : turns k m d = ending stranded .ended d'
  comes : Comes stranded m d k d'
  same : d'.observed = q.observed
  through : (course (turns · m) k d).destutter (· ≠ ·) = course steps n p

section Courses

variable {α : Type} {f g : Nat → ReportM α} {a : α} {n k : Nat} {d e d' : Performance} {stranded : Bool}

theorem course_of_succ (h : f 0 p = .ok a p) (hsucc : ∀ i, f (i + 1) p = g i q) :
    course f (n + 1) p = p.observed :: course g n q := by
  unfold course
  rw [List.range_succ_eq_map, List.map_cons, List.map_map]
  refine congrArg₂ _ ?_ (List.map_congr_left fun i _ => ?_)
  · rw [stateAfter_of_ok h]
  · exact congrArg Performance.observed (stateAfter_of_eq (hsucc i))

theorem turns_of_turn (h : turn m d = .ok m' e) : turns (k + 1) m d = turns k m' e := bind_of_ok h

theorem course_of_turn (h : turn m d = .ok m' e) :
    course (turns · m) (k + 1) d = d.observed :: course (turns · m') k e :=
  course_of_succ rfl fun _ => turns_of_turn h

theorem course_of_stepForward (hover : isOver p = false) (h : stepForward p = .ok () q) :
    course steps (n + 1) p = p.observed :: course steps n q :=
  course_of_succ (f := steps) rfl fun _ => steps_of_stepForward hover h

theorem course_turns (m : Moment) (k : Nat) (d : Performance) :
    ∃ os, course (turns · m) k d = d.observed :: os := by
  unfold course
  rw [List.range_succ_eq_map]
  exact ⟨_, rfl⟩

theorem passes_zero : Passes fuel seen m rounds d 0 := ⟨m, d, fuel, seen, rounds, rfl, rfl⟩

theorem passes_succ {fuel' rounds' i : Nat} {seen' : List Unit} (h : turn m d = .ok m' e)
    (hgo : debugFrom fuel seen m rounds d = debugFrom fuel' seen' m' rounds' e)
    (hi : Passes fuel' seen' m' rounds' e i) :
    Passes fuel seen m rounds d (i + 1) := by
  obtain ⟨m₁, e₁, fuel₁, seen₁, rounds₁, hturns, hdebug⟩ := hi
  exact ⟨m₁, e₁, fuel₁, seen₁, rounds₁, (turns_of_turn h).trans hturns, hgo.trans hdebug⟩

/-- The console uses up input with each line. -/
theorem comes_of_turn (h : turn m d = .ok m' e)
    (hline : ∀ speaker, m = .paused speaker → e.streams.stdin.length < d.streams.stdin.length)
    (hcomes : Comes stranded m' e k d') : Comes stranded m d (k + 1) d' := by
  obtain ⟨fuel, hfuel⟩ := hcomes
  -- what goes on after the turn is told of by `hfuel`, with the fuel and the rounds that are left
  suffices hgo : ∃ fuel', ∀ seen rounds, d.streams.stdin.length < rounds → ∃ seen' rounds',
      e.streams.stdin.length < rounds' ∧ debugFrom fuel' seen m rounds d = debugFrom fuel seen' m' rounds' e by
    obtain ⟨fuel', hgo⟩ := hgo
    refine ⟨fuel', fun seen rounds hrounds => ?_⟩
    obtain ⟨seen', rounds', hlt, hdebug⟩ := hgo seen rounds hrounds
    obtain ⟨⟨marks, hmarks⟩, hpasses⟩ := hfuel seen' rounds' hlt
    refine ⟨⟨marks, hdebug.trans hmarks⟩, fun i hi => ?_⟩
    cases i with
    | zero => exact passes_zero
    | succ i => exact passes_succ h hdebug (hpasses i (by omega))
  cases m with
  | running =>
    refine ⟨fuel + 1, fun seen rounds _ => ⟨seen, e.streams.stdin.length + 1, Nat.lt_succ_self _, ?_⟩⟩
    rw [debugFrom_running, bind_of_ok h]
    rfl
  | paused speaker =>
    refine ⟨fuel, fun seen rounds hrounds => ?_⟩
    have hlt := hline speaker rfl
    obtain ⟨rounds, rfl⟩ : ∃ r, rounds = r + 1 := ⟨rounds - 1, by omega⟩
    obtain ⟨seen', hseen⟩ : ∃ seen',
        debugFrom fuel seen (.paused speaker) (rounds + 1) d = debugFrom fuel seen' m' rounds e :=
        debugFrom_paused h
    exact ⟨seen', rounds, by omega, hseen⟩
  | ended =>
    cases h
    exact ⟨fuel, fun seen rounds hrounds => ⟨seen, rounds, hrounds, rfl⟩⟩

end Courses

namespace Follows

variable {stranded : Bool} {p' d e d' : Performance} {n k : Nat}

/-- At the end the debugger has nothing more to do. -/
theorem finish (hover : isOver p = true) (hsame : d.observed = p.observed) :
    Follows false .ended p d 0 p 0 d where
  performed := rfl
  ended := hover
  turned := rfl
  comes := ⟨0, fun seen _ _ => ⟨⟨seen.reverse, rfl⟩, fun _ hi => absurd hi (Nat.not_lt_zero _)⟩⟩
  same := hsame
  through := by
    show [d.observed].destutter (· ≠ ·) = [p.observed]
    rw [hsame]
    rfl

/-- A turn of the debugger that changes nothing. -/
theorem wait (h : turn m d = .ok m' e)
    (hline : ∀ speaker, m = .paused speaker → e.streams.stdin.length < d.streams.stdin.length)
    (hsame : e.observed = d.observed) (hrest : Follows stranded m' p e n q k d') :
    Follows stranded m p d n q (k + 1) d' where
  performed := hrest.performed
  ended := hrest.ended
  turned := (turns_of_turn h).trans hrest.turned
  comes := comes_of_turn h hline hrest.comes
  same := hrest.same
  through := by
    obtain ⟨os, hos⟩ := course_turns m' k e
    rw [course_of_turn h, ← hrest.through, hos, hsame, List.destutter_cons_cons, if_neg (not_not_intro rfl)]
    rfl

/-- A turn of the debugger that makes a step of the run. -/
theorem move (h : turn m d = .ok m' e)
    (hline : ∀ speaker, m = .paused speaker → e.streams.stdin.length < d.streams.stdin.length)
    (hover : isOver p = false) (hstep : stepForward p = .ok () p') (hsame : d.observed = p.observed)
    (hmoved : e.observed ≠ d.observed) (hrest : Follows stranded m' p' e n q k d') :
    Follows stranded m p d (n + 1) q (k + 1) d' where
  performed := (steps_of_stepForward hover hstep).trans hrest.performed
  ended := hrest.ended
  turned := (turns_of_turn h).trans hrest.turned
  comes := comes_of_turn h hline hrest.comes
  same := hrest.same
  through := by
    obtain ⟨os, hos⟩ := course_turns m' k e
    rw [course_of_turn h, course_of_stepForward hover hstep, ← hrest.through, hos,
      List.destutter_cons_cons, if_pos hmoved.symm, hsame]
    rfl

/-- The run passes a breakpoint and is over, and there is nothing to be shown at the console. -/
theorem strand (h : turn .running d = .error (.breakdown .positionOutOfRange) d') (hover : isOver p = false)
    (hstep : stepForward p = .ok () q) (hend : isOver q = true) (hsame : d.observed = p.observed)
    (hsame' : d'.observed = q.observed) (hmoved : d'.observed ≠ d.observed) :
    Follows true .running p d 1 q 1 d' where
  performed := steps_of_stepForward hover hstep
  ended := hend
  turned := bind_of_error h
  comes := by
    refine ⟨1, fun seen rounds _ => ⟨⟨seen, ?_⟩, fun i hi => ?_⟩⟩
    · rw [debugFrom_running, bind_of_error h]
      rfl
    · rw [Nat.lt_one_iff.mp hi]
      exact passes_zero
  same := hsame'
  through := by
    have hcourse : course (turns · .running) 1 d = [d.observed, d'.observed] := by
      have hturns : turns 1 .running d = .error (.breakdown .positionOutOfRange) d' := bind_of_error h
      show [_, (stateAfter (turns 1 .running) d).observed] = _
      rw [stateAfter_of_error hturns]
      rfl
    rw [hcourse, course_of_stepForward hover hstep, List.destutter_cons_cons, if_pos hmoved.symm, hsame, hsame']
    rfl

end Follows

end ReportM

end Playhouse
