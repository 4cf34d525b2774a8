import Playhouse.Proofs.Lockstep
import Playhouse.Proofs.Spans
import Playhouse.Proofs.Transcript

/-!
# Playhouse.Proofs.Styles — the style of output is for the eye only

Performances of a text with the same input and different styles of output are abreast from the beginning, and steps
keep them abreast until one of them has to print what cannot be printed. So what they put out is the same, and what
they print are these numbers and characters in their order, each as the style shows it, with remarks in between.
With basic output there are no remarks but questions to the user. Main statement: `style_shows_only`.
-/

namespace Playhouse

/-! ### What is heard -/

/-- All that was put out, one after the other. The latest comes first in the list. -/
def spoken : List Utterance → String
  | [] => ""
  | u :: us => spoken us ++ u.text

theorem transcript_basic {pieces : List Piece} (h : ∀ text, Piece.remark text ∉ pieces) :
    transcript .basic pieces = spoken (pieces.filterMap Piece.output?) := by
  induction pieces with
  | nil => rfl
  | cons x xs ih =>
    have hxs := ih fun text ht => h text (List.mem_cons_of_mem x ht)
    cases x with
    | remark text => exact absurd List.mem_cons_self (h text)
    | output u => exact congrArg (· ++ u.text) hxs

/-- Basic output is what is put out and nothing else, if nobody has to be asked. -/
theorem Performance.Prints.out_basic {p q : Performance} {pieces : List Piece} (h : p.Prints q pieces)
    (hstyle : p.style = .basic) (hdesk : p.desk ≠ .interactive) :
    q.streams.out = p.streams.out ++ spoken (pieces.filterMap Piece.output?) := by
  have hnone : ∀ text, Piece.remark text ∉ pieces := by
    intro text ht
    cases h.remarks text ht with
    | question medium hasked => exact hdesk hasked
    | line hnarrates _ =>
      rw [hstyle] at hnarrates
      cases hnarrates
    | header hdebug _ _ _ =>
      rw [hstyle] at hdebug
      cases hdebug
  rw [h.out, hstyle, transcript_basic hnone]

/-! ### Steps as they are reported -/

/-- The report is of something that cannot be printed. -/
def Report.unprintable : Report → Bool
  | .breakdown b => b.unprintable
  | .unreadable _ _ | .error _ _ _ => false

namespace ReportM

variable {f : Footing} {p q : Performance}

/-- Faults that are alike are reported alike: the stages that are shown with them are the same. -/
theorem coupled_reporting {α β : Type} {m : PerformanceM α} {m' : PerformanceM β} {source : List Char}
    {fallback : Option Span} {Q : α → β → Performance → Performance → Prop}
    (h : f.Couples m m' p q Q (Abreast f)) :
    Coupled (reporting source fallback m) (reporting source fallback m') p q Q (Abreast f)
      (·.unprintable = true) (·.unprintable = true) := by
  cases h with
  | ok hm hm' hQ => exact .ok (reporting_of_ok hm) (reporting_of_ok hm') hQ
  | @error e t t' hm hm' hE =>
    cases e with
    | breakdown b => exact .error (reporting_of_breakdown hm) (reporting_of_breakdown hm') hE
    | error cause span =>
      refine .error (reporting_of_error hm) ?_ hE
      rw [← hE.stage]
      exact reporting_of_error hm'
  | @left e t hm he =>
    cases e with
    | breakdown b => exact .left (reporting_of_breakdown hm) he.2
    | error cause span => exact he.elim
  | @right e t hm' he =>
    cases e with
    | breakdown b => exact .right (reporting_of_breakdown hm') he.2
    | error cause span => exact he.elim

theorem coupled_stepForward (h : Abreast f p q) (hlayout : f.layout' = f.layout)
    (hstep : f.Couples PerformanceM.step PerformanceM.step p q (fun _ _ => Abreast f) (Abreast f)) :
    Coupled stepForward stepForward p q (fun _ _ => Abreast f) (Abreast f) (·.unprintable = true)
      (·.unprintable = true) := by
  unfold stepForward ofScript
  apply coupled_bind
  apply coupled_get
  rw [h.source hlayout]
  exact coupled_reporting hstep

end ReportM

namespace Performance

/-- The next step does not fail for want of a text to print. -/
def legible (p : Performance) : Bool :=
  match outcomeOf ReportM.stepForward p with
  | .ok _ => true
  | .error r => !r.unprintable

theorem not_unprintable_of_legible {p : Performance} (h : p.legible = true) {r : Report}
    (hr : outcomeOf ReportM.stepForward p = .error r) : ¬ r.unprintable = true := by
  unfold legible at h
  rw [hr] at h
  simpa using h

/-- Both have come to the same: where they are, what everybody holds, what is still to be read and what was put
out. -/
structure SameCourse (p q : Performance) : Prop where
  position : q.position = p.position
  stage : q.stage = p.stage
  desk : q.desk = p.desk
  stdin : q.streams.stdin = p.streams.stdin
  reader : q.streams.reader = p.streams.reader
  uttered : q.uttered = p.uttered

end Performance

open Performance

/-- The footing of performances that may differ in style. -/
def Footing.anyStyle (layout : Script) : Footing :=
  ⟨layout, layout, Eq, Eq, False, False, Eq, id, Footing.eq_append⟩

theorem Abreast.sameCourse {layout : Script} {p q : Performance}
    (h : Abreast (Footing.anyStyle layout) p q) : p.SameCourse q :=
  ⟨Eq.symm h.place, h.stage, h.desk, Eq.symm h.stdin, h.reader, h.uttered⟩

theorem desk_ne_interactive {inputName : String} {reader : Option (List Char)} {desk : InputDesk}
    (h : InputDesk.ofName inputName reader = .ok desk) (hname : inputName ≠ "interactive") :
    desk ≠ .interactive := by
  unfold InputDesk.ofName at h
  split at h
  · cases h
    exact nofun
  · exact absurd rfl hname
  · split at h
    · cases h
      exact nofun
    · cases h
  · cases h

/-- One step keeps performances of the same text abreast, whatever their styles. -/
theorem abreast_afterStep {source : List Char} {play : Play} {p q : Performance}
    (hread : readAs .play Play.ofTree? source = .ok play)
    (h : Abreast (Footing.anyStyle (Script.ofActs source play.acts)) p q) (hp : p.legible = true)
    (hq : q.legible = true) :
    outcomeOf ReportM.stepForward q = outcomeOf ReportM.stepForward p ∧
      Abreast (Footing.anyStyle (Script.ofActs source play.acts)) (stateAfter ReportM.stepForward p)
        (stateAfter ReportM.stepForward q) := by
  have hstep := PerformanceM.couples_step h rfl rfl (fun _ => rfl) fun _ op hop =>
    exists_showSpan_of_script hread h.script hop Source.usualContext
  exact (ReportM.coupled_stepForward h rfl hstep).agree (fun _ _ _ _ ht => ⟨rfl, ht⟩) (fun _ _ ht => ht)
    (fun _ => not_unprintable_of_legible hp) fun _ => not_unprintable_of_legible hq

/-- Whatever the style and the input, what a text that was opened prints falls into pieces, and what it puts out
with them is all that it puts out. -/
theorem exists_prints {source : List Char} {inputName outputName : String} {streams : Streams} {p : Performance}
    (hp : Performance.ofText source inputName outputName streams = .ok p) (n : Nat) :
    ∃ pieces, p.Prints (p.afterSteps n) pieces ∧ pieces.filterMap Piece.output? = (p.afterSteps n).uttered := by
  obtain ⟨desk, style, play, -, -, hread, hopened, rfl⟩ := opened_of_ofText hp
  obtain ⟨pieces, hpieces⟩ :=
    (recounts_afterSteps hread (sound_ofPlay hopened) (Stage.names_of_fresh rfl) n).prints
  exact ⟨pieces, hpieces, (List.append_nil _).symm.trans hpieces.uttered.symm⟩

/-- **The style of output is for the eye only.** Open a text twice, with the same input and with any two styles of
output. As long as neither of them fails for want of a text to print, both come with each step to the same
position, stage, input and output, and each step has the same outcome in both: it succeeds, or it fails with the
same report. What each of them prints falls into pieces: the numbers and characters that were put out, the same in
both and in the same order, each shown in the style, and remarks in between, which are questions to the user, told
lines without a colon, or headers of the debug style. With basic output, and if nobody has to be asked, what is
printed is what the play has put out. -/
theorem style_shows_only {source : List Char} {inputName outputName outputName' : String} {streams : Streams}
    {p q : Performance} (hp : Performance.ofText source inputName outputName streams = .ok p)
    (hq : Performance.ofText source inputName outputName' streams = .ok q) (n : Nat)
    (hlegible : ∀ m < n, (p.afterSteps m).legible = true ∧ (q.afterSteps m).legible = true) :
    (p.afterSteps n).SameCourse (q.afterSteps n) ∧
      (∀ m < n, outcomeOf ReportM.stepForward (q.afterSteps m) = outcomeOf ReportM.stepForward (p.afterSteps m)) ∧
      (∃ pieces pieces', p.Prints (p.afterSteps n) pieces ∧ q.Prints (q.afterSteps n) pieces' ∧
        pieces.filterMap Piece.output? = (p.afterSteps n).uttered ∧
        pieces'.filterMap Piece.output? = (p.afterSteps n).uttered) ∧
      (outputName = "basic" → inputName ≠ "interactive" →
        (p.afterSteps n).streams.out = streams.out ++ spoken (p.afterSteps n).uttered) := by
  obtain ⟨pieces, hpieces, houtputs⟩ := exists_prints hp n
  obtain ⟨pieces', hpieces', houtputs'⟩ := exists_prints hq n
  obtain ⟨desk, style, play, hdesk, hstyle, hread, -, rfl⟩ := opened_of_ofText hp
  obtain ⟨desk', style', play', hdesk', -, hread', -, rfl⟩ := opened_of_ofText hq
  obtain rfl : desk = desk' := Except.ok.inj (hdesk.symm.trans hdesk')
  obtain rfl : play = play' := Except.ok.inj (hread.symm.trans hread')
  generalize hstart : (⟨Script.ofActs source play.acts, Stage.ofCast play.castNames, 0, desk, style, streams, []⟩ :
    Performance) = p at hlegible hpieces houtputs ⊢
  generalize hstart' : (⟨Script.ofActs source play.acts, Stage.ofCast play.castNames, 0, desk, style', streams,
    []⟩ : Performance) = q at hlegible hpieces' houtputs' ⊢
  have habreast : ∀ m ≤ n,
      Abreast (Footing.anyStyle (Script.ofActs source play.acts)) (p.afterSteps m) (q.afterSteps m) := by
    intro m
    induction m with
    | zero =>
      intro _
      have hfaithful := Script.faithful_ofActs source play.acts
      have hforget := forget_ofActs source play.acts
      subst hstart hstart'
      exact ⟨hforget, hforget, hfaithful, hfaithful, rfl, rfl, rfl, nofun, rfl, rfl, rfl, nofun⟩
    | succ m ih =>
      intro hm
      obtain ⟨hlp, hlq⟩ := hlegible m hm
      exact (abreast_afterStep hread (ih (Nat.le_of_lt hm)) hlp hlq).2
  have hsame := (habreast n (Nat.le_refl n)).sameCourse
  refine ⟨hsame, fun m hm => ?_, ⟨pieces, pieces', hpieces, hpieces', houtputs, houtputs'.trans hsame.uttered⟩,
    fun houtput hinput => ?_⟩
  · obtain ⟨hlp, hlq⟩ := hlegible m hm
    exact (abreast_afterStep hread (habreast m (Nat.le_of_lt hm)) hlp hlq).1
  · subst houtput
    cases hstyle
    have hbasic := hpieces.out_basic (by rw [← hstart]) (by rw [← hstart]; exact desk_ne_interactive hdesk hinput)
    rw [houtputs] at hbasic
    rw [hbasic, ← hstart]

/-! ### A number and an error -/

/-- A number is put out, and then there is nothing to recall. -/
def recallText : List Char :=
  "T. Romeo, x. Juliet, y. Act I: a. Scene I: b. [Enter Romeo and Juliet] Romeo: Open your heart! Recall x.".toList

/-- Three steps can be made without anything to print that cannot be printed, and put out a number. -/
def recalls (outputName : String) : Bool :=
  match Performance.ofText recallText "basic" outputName ⟨[], none, "", ""⟩ with
  | .error _ => false
  | .ok p => (List.range 3).all (fun m => (p.afterSteps m).legible) && (p.afterSteps 3).uttered == [.number 0]

theorem exists_of_recalls {outputName : String} (h : recalls outputName = true) :
    ∃ p, Performance.ofText recallText "basic" outputName ⟨[], none, "", ""⟩ = .ok p ∧
      (∀ m < 3, (p.afterSteps m).legible = true) ∧ (p.afterSteps 3).uttered = [.number 0] := by
  unfold recalls at h
  split at h
  · cases h
  · next p hp =>
    obtain ⟨hlegible, huttered⟩ := Bool.and_eq_true_iff.mp h
    rw [List.all_eq_true] at hlegible
    exact ⟨p, hp, fun m hm => hlegible m (List.mem_range.mpr hm), eq_of_beq huttered⟩

theorem recalls_both : recalls "basic" = true ∧ recalls "debug" = true := by decide +kernel

/-- The debug style prints a header before each step, and basic output is the number alone. The third step
fails. -/
theorem style_shows_only_recall :
    ∃ p q, Performance.ofText recallText "basic" "basic" ⟨[], none, "", ""⟩ = .ok p ∧
      Performance.ofText recallText "basic" "debug" ⟨[], none, "", ""⟩ = .ok q ∧
      (p.afterSteps 3).SameCourse (q.afterSteps 3) ∧
      (p.afterSteps 3).streams.out = "" ++ ("" ++ toString (0 : Int)) ∧
      ∃ pieces, q.Prints (q.afterSteps 3) pieces ∧ pieces.filterMap Piece.output? = [.number 0] := by
  obtain ⟨p, hp, hlegible, huttered⟩ := exists_of_recalls recalls_both.1
  obtain ⟨q, hq, hlegible', -⟩ := exists_of_recalls recalls_both.2
  obtain ⟨hsame, -, ⟨-, pieces, -, hpieces, -, houtputs⟩, hout⟩ :=
    style_shows_only hp hq 3 fun m hm => ⟨hlegible m hm, hlegible' m hm⟩
  have hbasic := hout rfl (by decide)
  rw [huttered] at hbasic houtputs
  exact ⟨p, q, hp, hq, hsame, hbasic, pieces, hpieces, houtputs⟩

end Playhouse
