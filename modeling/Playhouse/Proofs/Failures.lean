import Playhouse.Proofs.Reachable

/-!
# Playhouse.Proofs.Failures — errors of the play change nothing

A step, or a sentence from outside of the script, may fail at any depth: for want of the speaker or of the one
spoken to, in the middle of an expression, at an empty stack, at a code that no character has, at a scene that does
not exist. Each does all that can fail before its first change and before it reads. Only a user who was asked has
answered in vain. Main statement: `error_changes_nothing`.
-/

namespace Playhouse

namespace ReportM

variable {p q : Performance} {cause : Cause} {place : Option (List Char × Span)} {stage : Option Stage}

/-- An error of the play that is told was one before. -/
theorem error_of_reporting {α : Type} {m : PerformanceM α} {text : List Char} {fallback : Option Span}
    (h : reporting text fallback m p = .error (.error cause place stage) q) :
    ∃ span, m p = .error (.error cause span) q := by
  cases hm : m p with
  | ok a r =>
    rw [reporting_of_ok hm] at h
    cases h
  | error f r =>
    cases f with
    | breakdown b =>
      rw [reporting_of_breakdown hm] at h
      cases h
    | error c span =>
      rw [reporting_of_error hm] at h
      cases h
      exact ⟨span, rfl⟩

theorem alike_of_stepForward_error (hs : p.stage.Sound) (hdesk : p.desk ≠ .interactive)
    (h : stepForward p = .error (.error cause place stage) q) : p.Alike q := by
  obtain ⟨span, hstep⟩ := error_of_reporting (h : reporting _ none PerformanceM.step p = _)
  exact ((PerformanceM.ends_step hs).error hstep).2 hdesk ⟨cause, span, rfl⟩

theorem alike_of_performSentence_error {text : List Char} {s : Sentence} {speaker : String} (hs : p.stage.Sound)
    (hdesk : p.desk ≠ .interactive)
    (h : performSentence text s speaker p = .error (.error cause place stage) q) : p.Alike q := by
  obtain ⟨span, hperform⟩ := error_of_reporting h
  exact ((ends_performApart _ hs).error hperform).2 hdesk ⟨cause, span, rfl⟩

/-- A text that is no sentence is refused before anything is done. -/
theorem alike_of_runSentence_error {text : List Char} {speaker : String} (hs : p.stage.Sound)
    (hdesk : p.desk ≠ .interactive) (h : runSentence text speaker p = .error (.error cause place stage) q) :
    p.Alike q := by
  unfold runSentence at h
  cases hread : readAs .sentence Sentence.ofTree? text with
  | ok s =>
    rw [hread] at h
    exact alike_of_performSentence_error hs hdesk h
  | error e =>
    rw [hread] at h
    cases h
    exact Performance.Alike.refl p

end ReportM

/-- **Errors of the play change nothing.** In whatever a play has come to, with input from standard input or from
the reader, a step that fails with an error of the play leaves the stage, the position and the input as they were.
So does a sentence from outside of the script, whoever is to say it, and a text that is read as one. -/
theorem error_changes_nothing {source : List Char} {play : Play} {p q : Performance} {cause : Cause}
    {place : Option (List Char × Span)} {stage : Option Stage} (hp : p.Reachable source play)
    (hdesk : p.desk ≠ .interactive) :
    (ReportM.stepForward p = .error (.error cause place stage) q → p.Alike q) ∧
    (∀ text s speaker, ReportM.performSentence text s speaker p = .error (.error cause place stage) q →
      p.Alike q) ∧
    ∀ text speaker, ReportM.runSentence text speaker p = .error (.error cause place stage) q → p.Alike q := by
  have hs := hp.sound.stage
  refine ⟨?_, ?_, ?_⟩
  · exact ReportM.alike_of_stepForward_error hs hdesk
  · exact fun text s speaker => ReportM.alike_of_performSentence_error hs hdesk
  · exact fun text speaker => ReportM.alike_of_runSentence_error hs hdesk

/-! ### A question to nobody -/

/-- Somebody enters and, being alone, asks for a number. -/
def soliloquy : Play :=
  ⟨"Soliloquy", [⟨⟨0, 1⟩, ["Hamlet"]⟩], [⟨⟨⟨1, 2⟩, "I"⟩, "", [⟨⟨⟨2, 3⟩, "I"⟩, "", [
    .entrance ⟨3, 4⟩ [["Hamlet"]],
    .line ⟨4, 6⟩ ["Hamlet"] [⟨⟨5, 6⟩, none, .input .number⟩]]⟩]⟩]⟩

/-- The performance of `soliloquy` about to begin, with a number to be read. -/
def soliloquyStart : Performance :=
  ⟨Script.ofActs [] soliloquy.acts, Stage.ofCast ["Hamlet"], 0, .basic [], .basic, ⟨['7', '\n'], none, "", ""⟩, []⟩

/-- Nobody is there to take the number, and it is not read. -/
theorem error_changes_nothing_alone :
    ∃ (p q : Performance) (cause : Cause) (place : Option (List Char × Span)) (stage : Option Stage),
      p.Reachable [] soliloquy ∧ ReportM.stepForward p = .error (.error cause place stage) q ∧
      q.position = 1 ∧ q.stage.present = ["Hamlet"] ∧ q.streams.stdin = ['7', '\n'] := by
  have hstart : Performance.ofPlay [] soliloquy (.basic []) .basic ⟨['7', '\n'], none, "", ""⟩ =
      .ok soliloquyStart :=
    rfl
  have hp := (Performance.Reachable.start hstart).ask Request.step
  have hstep : ReportM.stepForward (stateAfter Request.step.perform soliloquyStart) =
      .error (.error (.talkingToNobody "Hamlet") (some ([], ⟨5, 6⟩)) _) _ := rfl
  obtain ⟨hq, -⟩ := error_changes_nothing hp (by decide)
  have halike := hq hstep
  exact ⟨_, _, _, _, _, hp, hstep, halike.position, by rw [halike.stage]; decide, halike.stdin⟩

end Playhouse
