import Playhouse.Proofs.Hazards
import Playhouse.Proofs.Preparation

/-!
# Playhouse.Proofs.Breakdowns — how runs end

A run performs one operation after the other until the play is over. It can end before that with an error of the
play, and with a breakdown if it comes to a hazard. Main statement: `run_breakdown_iff`.
-/

namespace Playhouse

open Performance

/-- `q` comes after `n` steps from `p`. -/
inductive Performance.Plays : Performance → Nat → Performance → Prop
  | refl (p : Performance) : Plays p 0 p
  | step {p q r : Performance} {n : Nat} : PerformanceM.step p = .ok () q → Plays q n r → Plays p (n + 1) r

/-- How a fault is told. -/
inductive Told : Fault → Report → Prop
  | breakdown (b : Breakdown) : Told (.breakdown b) (.breakdown b)
  | error (cause : Cause) (span : Option Span) (place : Option (List Char × Span)) (stage : Option Stage) :
      Told (.error cause span) (.error cause place stage)

section Runs

variable {source : List Char} {play : Play} {p q : Performance}

theorem Performance.Sound.operation (h : p.Sound source play) (hover : PerformanceM.isOver p = false) :
    ∃ op, p.script.operation? p.position = some op := by
  obtain ⟨k, hk⟩ := Int.eq_ofNat_of_zero_le h.nonneg
  unfold PerformanceM.isOver at hover
  rw [decide_eq_false_iff_not, hk] at hover
  rw [hk]
  exact ⟨_, List.getElem?_eq_getElem (by omega)⟩

theorem Performance.Plays.kept {n : Nat} (hplays : p.Plays n q) (h : p.Sound source play) (hp : p.Plain) :
    q.Sound source play ∧ q.Plain := by
  induction hplays with
  | refl p => exact ⟨h, hp⟩
  | step hstep _ ih =>
    obtain ⟨op, hop⟩ := PerformanceM.operation_of_step hstep
    exact ih (h.stepped ((PerformanceM.ends_step h.stage).ok hstep))
      ((PerformanceM.breaks_step h hp hop).ok hstep).2

namespace ReportM

open PerformanceM (isOver)

/-- A round of a run does what a step does. -/
theorem ends_round : Ends (round (pure ())) p (fun _ q => PerformanceM.step p = .ok () q)
    (fun report q => ∃ f, PerformanceM.step p = .error f q ∧ Told f report) := by
  unfold round
  cases hop : p.script.operation? p.position with
  | none =>
    have hnext := PerformanceM.nextOperation_of_none hop
    apply ends_bind
    exact ends_of_error (reporting_of_breakdown hnext) ⟨_, bind_of_error hnext, .breakdown _⟩
  | some op =>
    have hnext := PerformanceM.nextOperation_of_some hop
    apply ends_bind
    refine ends_of_ok (reporting_of_ok hnext) ?_
    by_cases hbreak : op.isBreakpoint = true
    · rw [if_pos hbreak]
      have hstep : PerformanceM.step p = .ok () { p with position := p.position + 1 } := by
        unfold PerformanceM.step
        rw [bind_of_ok hnext, if_pos hbreak]
        rfl
      have hadvance : ofScript PerformanceM.advance p = .ok () { p with position := p.position + 1 } := rfl
      exact ends_bind (ends_of_ok hadvance (ends_pure hstep))
    · rw [if_neg hbreak]
      apply ends_bind
      cases hstep : PerformanceM.step p with
      | ok u q => exact ends_of_ok (reporting_of_ok hstep) (ends_pure rfl)
      | error f q =>
        cases f with
        | breakdown b => exact ends_of_error (reporting_of_breakdown hstep) ⟨_, rfl, .breakdown b⟩
        | error cause span => exact ends_of_error (reporting_of_error hstep) ⟨_, rfl, .error cause span _ _⟩

theorem round_of_step (h : PerformanceM.step p = .ok () q) : ∃ mark, round (pure ()) p = .ok mark q := by
  cases hround : round (pure ()) p with
  | ok mark r =>
    cases h.symm.trans (ends_round.ok hround)
    exact ⟨mark, rfl⟩
  | error report r =>
    obtain ⟨f, hstep, -⟩ := ends_round.error hround
    cases h.symm.trans hstep

theorem round_of_breakdown {b : Breakdown} (h : PerformanceM.step p = .error (.breakdown b) q) :
    round (pure ()) p = .error (.breakdown b) q := by
  cases hround : round (pure ()) p with
  | ok mark r => cases h.symm.trans (ends_round.ok hround)
  | error report r =>
    obtain ⟨f, hstep, htold⟩ := ends_round.error hround
    cases h.symm.trans hstep
    cases htold
    rfl

theorem runFrom_of_round {fuel : Nat} {seen : List Unit} {mark : Option Unit} (hover : isOver p = false)
    (hround : round (pure ()) p = .ok mark q) :
    runFrom (pure ()) (fuel + 1) seen p = runFrom (pure ()) fuel (mark.toList ++ seen) q := by
  have hplayOver : playOver p = .ok false p := congrArg (EStateM.Result.ok · p) hover
  conv_lhs => unfold runFrom
  rw [bind_of_ok hplayOver, if_neg (by simp), bind_of_ok hround]
  cases mark with
  | none => rfl
  | some u => rfl

theorem runFrom_of_error {fuel : Nat} {seen : List Unit} {report : Report} (hover : isOver p = false)
    (hround : round (pure ()) p = .error report q) : runFrom (pure ()) (fuel + 1) seen p = .error report q := by
  have hplayOver : playOver p = .ok false p := congrArg (EStateM.Result.ok · p) hover
  unfold runFrom
  rw [bind_of_ok hplayOver, if_neg (by simp), bind_of_error hround]

theorem ends_runFrom (fuel : Nat) : ∀ (seen : List Unit) {p : Performance},
    Ends (runFrom (pure ()) fuel seen) p (fun _ q => isOver q = true)
      (fun report r => (report = .breakdown .endless ∧ p.Plays fuel r) ∨
        ∃ n < fuel, ∃ q f, p.Plays n q ∧ isOver q = false ∧ PerformanceM.step q = .error f r ∧ Told f report) := by
  induction fuel with
  | zero => exact fun seen p => ends_throw (.inl ⟨rfl, .refl p⟩)
  | succ fuel ih =>
    intro seen p
    unfold runFrom playOver
    apply ends_bind
    refine ends_bind (ends_get (ends_pure ?_))
    cases hover : isOver p with
    | true => exact ends_pure hover
    | false =>
      have hrest : ∀ seen q, PerformanceM.step p = .ok () q → Ends (runFrom (pure ()) fuel seen) q
          (fun _ r => isOver r = true)
          (fun report r => (report = .breakdown .endless ∧ p.Plays (fuel + 1) r) ∨
            ∃ n < fuel + 1, ∃ q f, p.Plays n q ∧ isOver q = false ∧ PerformanceM.step q = .error f r ∧
              Told f report) := by
        intro seen q hstep
        refine (ih seen).mono (fun _ _ h => h) ?_
        rintro report r (⟨hreport, hplays⟩ | ⟨n, hn, q', f, hplays, hq'⟩)
        · exact .inl ⟨hreport, .step hstep hplays⟩
        · exact .inr ⟨n + 1, by omega, q', f, .step hstep hplays, hq'⟩
      rw [if_neg (by simp)]
      apply ends_bind
      refine ends_round.mono (fun mark q hstep => ?_) ?_
      · cases mark with
        | none => exact hrest seen q hstep
        | some u => exact hrest (u :: seen) q hstep
      · rintro report q ⟨f, hstep, htold⟩
        exact .inr ⟨0, by omega, p, f, .refl p, hover, hstep, htold⟩

/-- After `n` steps a run goes on from there. -/
theorem runFrom_of_plays {n : Nat} (h : p.Plays n q) : ∀ (k : Nat) (seen : List Unit),
    ∃ seen', runFrom (pure ()) (n + k) seen p = runFrom (pure ()) k seen' q := by
  induction h with
  | refl p =>
    intro k seen
    rw [Nat.zero_add]
    exact ⟨seen, rfl⟩
  | @step p q r n hstep _ ih =>
    intro k seen
    obtain ⟨op, hop⟩ := PerformanceM.operation_of_step hstep
    obtain ⟨mark, hround⟩ := round_of_step hstep
    rw [Nat.add_right_comm, runFrom_of_round (PerformanceM.isOver_of_operation hop) hround]
    exact ih k (mark.toList ++ seen)

/-- Who comes to a hazard breaks down. -/
theorem breakdown_of_hazard {b : Breakdown} (h : p.Sound source play) (hp : p.Plain) (hb : p.Hazard b) :
    ∃ q, PerformanceM.step p = .error (.breakdown b) q := by
  obtain ⟨op, hop, -⟩ := id hb
  have hstep := PerformanceM.breaks_step h hp hop
  cases hresult : PerformanceM.step p with
  | ok u q => exact absurd hb ((hstep.ok hresult).1 b)
  | error f q =>
    rw [(hstep.error hresult b).mpr hb]
    exact ⟨q, rfl⟩

end ReportM

end Runs

/-- What is opened with basic input and output is a plain performance of some play. -/
theorem Performance.plain_of_ofText {source : List Char} {streams : Streams} {p : Performance}
    (h : Performance.ofText source "basic" "basic" streams = .ok p) :
    ∃ play, p.Sound source play ∧ p.Plain := by
  obtain ⟨desk, style, play, hdesk, hstyle, -, hopen, rfl⟩ := Performance.opened_of_ofText h
  cases hdesk
  cases hstyle
  exact ⟨play, sound_ofPlay hopen, rfl, [], rfl⟩

open PerformanceM (isOver)

/-- **How runs break down.** With basic input and output, the run of a play breaks down exactly if it comes to a
hazard, or is given up because the play has not come to its end. Otherwise it ends with the play, or with an error
of the play. -/
theorem run_breakdown_iff {source : List Char} {streams : Streams} {p : Performance}
    (h : Performance.ofText source "basic" "basic" streams = .ok p) (fuel : Nat) :
    (∀ b, (∃ r, ReportM.run (pure ()) fuel p = .error (.breakdown b) r) ↔
        (b = .endless ∧ ∃ r, p.Plays fuel r) ∨ ∃ n < fuel, ∃ q, p.Plays n q ∧ q.Hazard b) ∧
      (∀ text e r, ReportM.run (pure ()) fuel p ≠ .error (.unreadable text e) r) ∧
      ∀ marks r, ReportM.run (pure ()) fuel p = .ok marks r → isOver r = true := by
  obtain ⟨play, hsound, hplain⟩ := plain_of_ofText h
  have hrun := ReportM.ends_runFrom fuel [] (p := p)
  refine ⟨fun b => ⟨?_, ?_⟩, ?_, ?_⟩
  · rintro ⟨r, hr⟩
    rcases hrun.error hr with ⟨hreport, hplays⟩ | ⟨n, hn, q, f, hplays, hover, hstep, htold⟩
    · cases hreport
      exact .inl ⟨rfl, r, hplays⟩
    · obtain ⟨hsound', hplain'⟩ := hplays.kept hsound hplain
      obtain ⟨op, hop⟩ := hsound'.operation hover
      have hbreaks := (PerformanceM.breaks_step hsound' hplain' hop).error hstep
      cases htold
      exact .inr ⟨n, hn, q, hplays, (hbreaks b).mp rfl⟩
  · rintro (⟨rfl, r, hplays⟩ | ⟨n, hn, q, hplays, hb⟩)
    · obtain ⟨seen, hgo⟩ := ReportM.runFrom_of_plays hplays 0 []
      exact ⟨r, hgo⟩
    · obtain ⟨hsound', hplain'⟩ := hplays.kept hsound hplain
      obtain ⟨op, hop, -⟩ := id hb
      obtain ⟨r, hstep⟩ := ReportM.breakdown_of_hazard hsound' hplain' hb
      obtain ⟨k, rfl⟩ : ∃ k, fuel = n + (k + 1) := ⟨fuel - n - 1, by omega⟩
      obtain ⟨seen, hgo⟩ := ReportM.runFrom_of_plays hplays (k + 1) []
      refine ⟨r, hgo.trans ?_⟩
      exact ReportM.runFrom_of_error (PerformanceM.isOver_of_operation hop) (ReportM.round_of_breakdown hstep)
  · intro text e r hr
    rcases hrun.error hr with ⟨hreport, -⟩ | ⟨n, hn, q, f, -, -, -, htold⟩
    · cases hreport
    · cases htold
  · exact fun marks r hr => hrun.ok hr

/-- How the run of a text breaks down, if it does. -/
def breakdownOf (source : List Char) (streams : Streams) (fuel : Nat) : Option Breakdown :=
  match Performance.ofText source "basic" "basic" streams with
  | .error _ => none
  | .ok p =>
    match ReportM.run (pure ()) fuel p with
    | .error (.breakdown b) _ => some b
    | _ => none

theorem run_of_breakdownOf {source : List Char} {streams : Streams} {fuel : Nat} {b : Breakdown}
    (h : breakdownOf source streams fuel = some b) :
    ∃ p r, Performance.ofText source "basic" "basic" streams = .ok p ∧
      ReportM.run (pure ()) fuel p = .error (.breakdown b) r := by
  unfold breakdownOf at h
  split at h
  · cases h
  · next p hp =>
    split at h
    · next b' r hr =>
      cases h
      exact ⟨p, r, hp, hr⟩
    · cases h

/-- The number that is read is no code of a character, and too large even to be told as such. -/
def echoText : List Char :=
  ("T. Romeo, x. Juliet, y. Act I: a. Scene I: b. [Enter Romeo and Juliet] " ++
    "Romeo: Listen to your heart! Speak your mind!").toList

def echoStreams : Streams := ⟨"2147483648".toList, none, "", ""⟩

theorem breakdownOf_echo : breakdownOf echoText echoStreams 10 = some .codeTooLarge := by decide +kernel

theorem run_breakdown_iff_echo :
    ∃ p, Performance.ofText echoText "basic" "basic" echoStreams = .ok p ∧
      ∃ n < 10, ∃ q, p.Plays n q ∧ q.Hazard .codeTooLarge := by
  obtain ⟨p, r, hp, hr⟩ := run_of_breakdownOf breakdownOf_echo
  rcases ((run_breakdown_iff hp 10).1 .codeTooLarge).mp ⟨r, hr⟩ with ⟨hb, -⟩ | hhazard
  · cases hb
  · exact ⟨p, hp, hhazard⟩

/-- Not all runs end with the play, with an error of the play, or not at all. -/
theorem run_can_break_down :
    ¬ ∀ (source : List Char) (streams : Streams) (p : Performance),
      Performance.ofText source "basic" "basic" streams = .ok p →
        ∀ fuel b r, ReportM.run (pure ()) fuel p = .error (.breakdown b) r → b = .endless := by
  intro hall
  obtain ⟨p, r, hp, hr⟩ := run_of_breakdownOf breakdownOf_echo
  cases hall _ _ p hp 10 _ r hr

end Playhouse
