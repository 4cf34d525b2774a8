import Playhouse.Proofs.Places

/-!
# Playhouse.Proofs.Pointing — errors point into the operation that failed

An error of an expression is placed at the expression, or at the part of it that failed. What has no place yet when
an operation has failed is placed at the operation. Two things go past this: that the speaker of a sentence is not
there, and that a jump leads nowhere. Those errors are told without a place, and no others. Main statement:
`error_points_into`.
-/

namespace Playhouse

open Grammar Source Performance

/-- The error of the deed, if there is one, is told without a place: the speaker is not on stage, or a jump is
made. -/
def Deed.GoesPast (stage : Stage) : Deed → Prop
  | .speak speaker _ a => speaker ∉ stage.present ∨ ∃ target numeral, a = .goto target numeral
  | .enter _ | .exit _ | .exeunt _ | .exeuntAll | .breakpoint => False

theorem Fault.PlacedIn.of_unplaced {f : Fault} {spans : List Span} (h : ∃ cause, f = .error cause none) :
    f.PlacedIn spans := by
  obtain ⟨cause, rfl⟩ := h
  trivial

/-- The errors among the faults have a place, and it is one of `spans`. -/
def Fault.Placed (spans : List Span) (f : Fault) : Prop :=
  ∀ cause place, f = .error cause place → ∃ s ∈ spans, place = some s

/-- The errors among the faults have no place. -/
def Fault.Placeless (f : Fault) : Prop := ∀ cause place, f = .error cause place → place = none

theorem Fault.Placed.mono {f : Fault} {spans spans' : List Span} (h : f.Placed spans) (hsub : spans ⊆ spans') :
    f.Placed spans' := by
  intro cause place hf
  obtain ⟨s, hs, hplace⟩ := h cause place hf
  exact ⟨s, hsub hs, hplace⟩

/-- An error of the operation has no place if and only if it goes past the operation, and otherwise the place of
the operation or of one of its values. -/
def Operation.Explains (op : Operation) (stage : Stage) (f : Fault) : Prop :=
  ∀ cause place, f = .error cause place → (place = none ↔ op.deed.GoesPast stage) ∧ ∀ s ∈ place, s ∈ op.spans

namespace Operation.Explains

variable {op : Operation} {stage : Stage} {f : Fault}

theorem of_placeless (h : op.deed.GoesPast stage) (hf : f.Placeless) : op.Explains stage f := by
  intro cause place hplace
  obtain rfl := hf cause place hplace
  exact ⟨iff_of_true rfl h, nofun⟩

theorem of_placed (h : ¬ op.deed.GoesPast stage) (hf : f.Placed op.spans) : op.Explains stage f := by
  intro cause place hplace
  obtain ⟨s, hs, rfl⟩ := hf cause place hplace
  refine ⟨iff_of_false nofun h, ?_⟩
  rintro _ ⟨⟩
  exact hs

end Operation.Explains

namespace PerformanceM

/-! ### Activities that fail in their place -/

/-- However it is started, the activity fails only with faults that are placed among `spans`, or have no place. -/
def Points {α : Type} (spans : List Span) (m : PerformanceM α) : Prop :=
  ∀ p, Ends m p (fun _ _ => True) (fun f _ => f.PlacedIn spans)

section Points

variable {α β : Type} {spans : List Span} {m : PerformanceM α} {f : α → PerformanceM β}

theorem points_pure (a : α) : Points spans (pure a) := fun _ => ends_pure trivial

theorem points_throw {e : Fault} (h : e.PlacedIn spans) : Points spans (throw e : PerformanceM α) :=
  fun _ => ends_throw h

theorem points_modify (g : Performance → Performance) : Points spans (modify g : PerformanceM Unit) :=
  fun _ => ends_modify trivial

theorem Points.bind (hm : Points spans m) (hf : ∀ a, Points spans (f a)) : Points spans (m >>= f) :=
  fun p => (hm p).bind fun a q _ => hf a q

theorem points_get : Points spans (get : PerformanceM Performance) := fun _ => ends_get trivial

theorem points_ofBreakdown (r : Except Breakdown α) : Points spans (ofBreakdown r) := by
  cases r with
  | ok a => exact points_pure a
  | error b => exact points_throw trivial

theorem points_look {g : Stage → Except Fault α}
    (h : ∀ stage e, g stage = .error e → ∃ cause, e = .error cause none) :
    Points spans (look g) :=
  fun p => ends_look (fun _ _ => trivial) fun e he => .of_unplaced (h p.stage e he)

theorem points_narrate (text : String) : Points spans (narrate text) :=
  fun _ => ends_narrate_of text trivial fun _ _ _ => trivial

/-- A line about a number is printed if the style tells it. -/
theorem points_tell (numeral : Except Breakdown String) (text : String → String) :
    Points spans (do if (← get).style.narrates then printLine (text (← ofBreakdown numeral))) :=
  fun _ => ends_tell text trivial (fun _ _ _ => trivial) fun _ => trivial

/-! ### Actions -/

theorem points_evaluate {speaker : String} {remember : Expression → PerformanceM Unit} {e : Expression}
    (hrem : ∀ x, Points spans (remember x)) (hspans : e.spans ⊆ spans) :
    Points spans (evaluate speaker remember e) := by
  refine points_get.bind fun p => ?_
  have hplaced : ∀ g, (e.evaluate speaker p.stage).1 = .error g → g.PlacedIn spans :=
    fun g hg => (Expression.placed_of_evaluate hg).mono hspans
  generalize e.evaluate speaker p.stage = x at hplaced
  obtain ⟨outcome, e'⟩ := x
  refine (hrem e').bind fun _ => ?_
  cases outcome with
  | ok n => exact points_pure _
  | error g => exact points_throw (hplaced g rfl)

theorem points_changeCharacter {g : Character → Except Fault Character} (name : String)
    (hg : ∀ c e, g c = .error e → ∃ cause, e = .error cause none) : Points spans (changeCharacter name g) := by
  refine (points_look fun _ _ => Stage.character_error).bind fun c => ?_
  cases hc : g c with
  | ok c' => exact points_modify _
  | error e => exact points_throw (.of_unplaced (hg c e hc))

theorem points_input (medium : Medium) : Points spans (input medium) := by
  have hI : Feeding fun _ => True := ⟨fun _ _ => trivial, fun _ _ => trivial, fun _ _ _ => trivial⟩
  have hask : ∀ prompt, Points spans (ask prompt) := by
    intro prompt
    refine (points_modify _).bind fun _ => Points.bind (fun _ => ends_readLine hI trivial) fun line => ?_
    dsimp only
    split
    · exact fun _ => ends_bind (ends_throw trivial)
    · exact points_pure _
  refine points_get.bind fun p => ?_
  split
  · refine fun q => (ends_lineNumber hI _ trivial).mono (fun _ _ _ => trivial) ?_
    rintro _ _ ⟨-, b, rfl⟩
    trivial
  · exact fun q => ends_lineCharacter hI _ trivial
  · refine (hask _).bind fun line => ?_
    split
    · exact points_pure _
    · exact points_throw trivial
  · refine (hask _).bind fun line => ?_
    split
    · exact points_pure _
    · exact points_pure _
    · exact points_pure _
  · refine fun q => (ends_readerNumber hI _ trivial).mono (fun _ _ _ => trivial) ?_
    rintro _ _ ⟨-, b, rfl⟩
    trivial
  · exact fun q => ends_readerCharacter hI _ trivial

theorem points_output (medium : Medium) (n : Int) : Points spans (output medium n) := by
  cases medium with
  | number =>
    refine (points_ofBreakdown _).bind fun text => points_get.bind fun p => ?_
    dsimp only
    split
    · exact (points_modify _).bind fun _ => points_modify _
    · exact (points_modify _).bind fun _ => points_modify _
  | character =>
    have hcode : Points spans (characterCode n) := by
      unfold characterCode
      dsimp only
      split
      · exact fun _ => ends_bind (ends_throw trivial)
      · split
        · exact fun _ => ends_bind (ends_throw trivial)
        · exact points_pure _
    refine hcode.bind fun code => points_get.bind fun p => ?_
    dsimp only
    split
    · exact (points_modify _).bind fun _ => points_modify _
    · split
      · exact (points_modify _).bind fun _ => points_modify _
      · exact fun _ => ends_bind (ends_throw trivial)

end Points

/-- What a sentence says fails where one of its values is written, or without a place. -/
theorem points_performAction {speaker : String} {remember : Action Expression → PerformanceM Unit}
    (a : Action Expression) (hrem : ∀ a', Points a.spans (remember a')) :
    Points a.spans (performAction speaker remember a) := by
  have hopposite : Points a.spans (look (·.opposite speaker)) := points_look fun _ _ => Stage.opposite_error
  cases a with
  | question comparison words x y =>
    refine (points_evaluate (fun x' => hrem _) (List.subset_append_left _ _)).bind fun ⟨m, x'⟩ => ?_
    refine (points_evaluate (fun y' => hrem _) (List.subset_append_right _ _)).bind fun ⟨n, y'⟩ => ?_
    exact (points_narrate _).bind fun _ => points_modify _
  | assignment x =>
    refine hopposite.bind fun other => (points_evaluate (fun x' => hrem _) (List.Subset.refl _)).bind
      fun ⟨n, x'⟩ => ?_
    exact Points.bind (points_changeCharacter other fun _ _ he => nomatch he)
      fun _ => points_tell _ fun numeral => other ++ " set to " ++ numeral
  | input medium =>
    refine hopposite.bind fun other => (points_input medium).bind fun n => points_get.bind fun p => ?_
    dsimp only
    generalize Number.numeral n = numeral
    split
    · refine (points_ofBreakdown numeral).bind fun text => (points_modify _).bind fun _ => ?_
      exact points_changeCharacter other fun _ _ he => nomatch he
    · exact points_changeCharacter other fun _ _ he => nomatch he
  | output medium =>
    refine hopposite.bind fun other => (points_look fun _ _ => Stage.character_error).bind fun c => ?_
    exact (points_narrate _).bind fun _ => points_output medium c.value
  | push x =>
    refine hopposite.bind fun other => (points_evaluate (fun x' => hrem _) (List.Subset.refl _)).bind
      fun ⟨n, x'⟩ => ?_
    exact Points.bind (points_changeCharacter other fun _ _ he => nomatch he)
      fun _ => points_tell _ fun numeral => other ++ " pushed " ++ numeral
  | pop recalled =>
    refine hopposite.bind fun other => (points_changeCharacter other ?_).bind fun _ => points_narrate _
    intro c e he
    unfold Character.pop at he
    split at he
    · cases he
      exact ⟨_, rfl⟩
    · cases he
  | goto target numeral => exact points_pure ()

theorem points_direction (d : Direction) (text : String) : Points [] (do narrate text; onStage d.perform) := by
  refine (points_narrate text).bind fun _ p => ends_onStage ?_
  refine (d.ends_perform p.stage).mono (fun _ _ _ => trivial) ?_
  rintro f s (⟨-, hf⟩ | ⟨⟨b, rfl⟩, -⟩)
  · exact .of_unplaced hf
  · trivial

/-! ### Operations -/

/-- What has no place when an operation has failed gets the place of the operation. -/
theorem ends_locating_points {spans : List Span} {m : PerformanceM Unit} (hm : Points spans m) (span : Span)
    (p : Performance) : Ends (locating span m) p (fun _ _ => True) (fun f _ => f.Placed (span :: spans)) := by
  refine ends_locating span ((hm p).mono (fun _ _ h => h) fun f _ hf => ?_)
  cases f with
  | breakdown b => exact fun cause place h => nomatch h
  | error cause' place' =>
    cases place' with
    | none =>
      rintro cause place ⟨⟩
      exact ⟨span, List.mem_cons_self, rfl⟩
    | some s =>
      rintro cause place ⟨⟩
      exact ⟨s, List.mem_cons_of_mem _ hf, rfl⟩

theorem placeless_destination {script : Script} {position : Int} {target : Target} {numeral : String} {f : Fault}
    (h : destination script position target numeral = .error f) : f.Placeless := by
  unfold destination at h
  cases target with
  | act =>
    dsimp only at h
    split at h
    · cases h
    · cases h
      rintro cause place ⟨⟩
      rfl
  | scene =>
    dsimp only at h
    split at h
    · cases h
      exact fun cause place h => nomatch h
    · split at h
      · cases h
      · cases h
        rintro cause place ⟨⟩
        rfl

/-- What an operation fails with, if it keeps nothing but what it has worked out. -/
theorem ends_perform_explained {remember : Action Expression → PerformanceM Unit} (op : Operation)
    (hrem : ∀ spans a, Points spans (remember a)) (p : Performance) :
    Ends (perform remember op) p (fun _ _ => True) (fun f _ => op.Explains p.stage f) := by
  obtain ⟨span, deed⟩ := op
  have hdirection : ∀ (d : Direction) (text : String), deed.GoesPast p.stage = False →
      Ends (locating span do narrate text; onStage d.perform) p (fun _ _ => True)
        (fun f _ => Operation.Explains ⟨span, deed⟩ p.stage f) := by
    intro d text hpast
    refine (ends_locating_points (points_direction d text) span p).mono (fun _ _ h => h) fun f _ hf => ?_
    refine .of_placed (fun h => hpast.mp h) (hf.mono ?_)
    exact List.cons_subset_cons _ (List.nil_subset _)
  cases deed with
  | enter names => exact hdirection (.enter names) _ rfl
  | exit name => exact hdirection (.exit name) _ rfl
  | exeunt names => exact hdirection (.exeunt names) _ rfl
  | exeuntAll => exact hdirection .exeuntAll _ rfl
  | breakpoint => exact ends_pure trivial
  | speak speaker condition a =>
    show Ends (performSentence span remember speaker condition a) p _ _
    unfold performSentence
    refine ends_bind (ends_look (fun _ hpresent => ?_) fun e he => ?_)
    · have hspeaker : speaker ∈ p.stage.present := checkPresent_ok_iff.mp hpresent
      refine ends_bind (ends_get ?_)
      dsimp only
      split
      · split
        · next target numeral =>
          refine (ends_jump target numeral).mono (fun _ _ _ => trivial) fun f _ hf => ?_
          exact .of_placeless (.inr ⟨target, numeral, rfl⟩) (placeless_destination hf.1)
        · next hjump =>
          refine (ends_locating_points (points_performAction a (hrem _)) span p).mono (fun _ _ h => h)
            fun f _ hf => ?_
          refine .of_placed ?_ hf
          rintro (habsent | ⟨target, numeral, rfl⟩)
          · exact habsent hspeaker
          · exact hjump target numeral rfl
      · exact ends_narrate_of _ trivial fun _ _ _ => trivial
    · refine .of_placeless (.inl fun hspeaker => ?_) ?_
      · rw [checkPresent_ok_iff.mpr hspeaker] at he
        cases he
      · obtain ⟨cause, rfl⟩ := checkPresent_error he
        rintro _ _ ⟨⟩
        rfl

/-- A step fails with an error only at an operation, and that explains where. -/
theorem ends_step_explained (p : Performance) :
    Ends step p (fun _ _ => True) (fun f _ => ∀ cause place, f = .error cause place →
      ∃ op, p.script.operation? p.position = some op ∧ op.Explains p.stage f) := by
  unfold step
  refine ends_bind (ends_nextOperation (fun op hop => ?_) fun _ => nofun)
  split
  · exact ends_modify trivial
  · refine ends_announce (fun _ out => ends_bind ?_) fun b _ _ => nofun
    refine (ends_perform_explained op (fun _ _ => points_modify _) (p.printed out)).mono (fun _ q _ => ?_) ?_
    · refine ends_bind (ends_get ?_)
      split
      · exact ends_modify trivial
      · exact ends_pure trivial
    · exact fun f _ hf cause place _ => ⟨op, hop, hf⟩

end PerformanceM

/-! ### Reports -/

/-- An error that is told of a step is the error of the step, with its place in the source and with the stage. -/
theorem error_of_stepForward {p q : Performance} {cause : Cause} {place : Option (List Char × Span)}
    {stage : Option Stage} (h : ReportM.stepForward p = .error (.error cause place stage) q) :
    ∃ span, PerformanceM.step p = .error (.error cause span) q ∧ place = span.map (p.script.source, ·) ∧
      stage = some q.stage := by
  have hreporting : ReportM.reporting p.script.source none PerformanceM.step p =
      .error (.error cause place stage) q := h
  cases hstep : PerformanceM.step p with
  | ok a r =>
    rw [ReportM.reporting_of_ok hstep] at hreporting
    cases hreporting
  | error f r =>
    cases f with
    | breakdown b =>
      rw [ReportM.reporting_of_breakdown hstep] at hreporting
      cases hreporting
    | error cause' span =>
      rw [ReportM.reporting_of_error hstep] at hreporting
      cases hreporting
      refine ⟨span, rfl, ?_, rfl⟩
      cases span <;> rfl

/-- **Errors point into the operation.** In whatever a performance of a play has come to: if a step fails with an
error, then the stage is told with it, and there is an operation at the present position. The error has no place if
and only if the speaker of the operation is not on stage or the operation is a jump. Otherwise its place lies in
the source within the span of the operation, and can be shown there. -/
theorem error_points_into {source : List Char} {play : Play} {p q : Performance} {cause : Cause}
    {place : Option (List Char × Span)} {stage : Option Stage}
    (hplay : readAs .play Play.ofTree? source = .ok play) (hp : p.Reachable source play)
    (h : ReportM.stepForward p = .error (.error cause place stage) q) :
    stage = some q.stage ∧ ∃ op, p.script.operation? p.position = some op ∧
      (place = none ↔ op.deed.GoesPast p.stage) ∧
      ∀ text span, place = some (text, span) → text = source ∧ op.span.start ≤ span.start ∧
        span.stop ≤ op.span.stop ∧
        ∃ context, showSpan source span usualContext = .ok context := by
  have hscript := hp.sound.script
  have hsource : p.script.source = source := congrArg Script.source hscript
  obtain ⟨place', hstep, hplace, hstage⟩ := error_of_stepForward h
  rw [hsource] at hplace
  obtain ⟨op, hop, hexplains⟩ := (PerformanceM.ends_step_explained p).error hstep cause place' rfl
  obtain ⟨hnone, hspans⟩ := hexplains cause place' rfl
  refine ⟨hstage, op, hop, ?_, ?_⟩
  · rw [hplace, Option.map_eq_none_iff]
    exact hnone
  · rintro text span hspan
    rw [hplace, Option.map_eq_some_iff] at hspan
    obtain ⟨s, hs, heq⟩ := hspan
    cases heq
    have hlocated := written_of_script hplay hscript hop span (hspans span hs)
    exact ⟨rfl, hlocated.start, hlocated.stop, exists_showSpan hlocated.solid usualContext⟩

/-! ### A line before its time -/

/-- Somebody asks twice: before they have entered, and when nobody else is there. -/
def overture : Play :=
  ⟨"T", [⟨⟨3, 12⟩, ["Romeo"]⟩], [⟨⟨⟨17, 18⟩, "I"⟩, "a", [⟨⟨⟨29, 30⟩, "I"⟩, "b", [
    .line ⟨35, 63⟩ ["Romeo"] [⟨⟨42, 63⟩, none, .question .greater ["better"] (.firstPerson ⟨45, 46⟩ "I")
      (.secondPerson ⟨59, 62⟩ "you")⟩],
    .entrance ⟨64, 77⟩ [["Romeo"]],
    .line ⟨78, 106⟩ ["Romeo"] [⟨⟨85, 106⟩, none, .question .greater ["better"] (.firstPerson ⟨88, 89⟩ "I")
      (.secondPerson ⟨102, 105⟩ "you")⟩]]⟩]⟩]⟩

def overtureText : List Char :=
  ("T. Romeo, x. Act I: a. Scene I: b. Romeo: Am I better than you? [Enter Romeo] " ++
    "Romeo: Am I better than you?").toList

/-- The performance of `overture` about to begin. -/
def overtureStart : Performance :=
  ⟨Script.ofActs overtureText overture.acts, Stage.ofCast ["Romeo"], 0, .basic [], .basic, ⟨[], none, "", ""⟩, []⟩

theorem readAs_overtureText : readAs .play Play.ofTree? overtureText = .ok overture := by decide +kernel

theorem reachable_overtureStart : overtureStart.Reachable overtureText overture := by
  have hopen : Performance.ofPlay overtureText overture (.basic []) .basic ⟨[], none, "", ""⟩ =
      .ok overtureStart := rfl
  exact .start hopen

/-- The pronoun that stands for nobody is shown, inside of the question. -/
theorem error_points_into_question : ∃ p q : Performance, p.Reachable overtureText overture ∧
    ReportM.stepForward p =
      .error (.error (.talkingToNobody "Romeo") (some (overtureText, ⟨102, 105⟩)) (some q.stage)) q ∧
    ∃ op, p.script.operation? p.position = some op ∧ ¬ op.deed.GoesPast p.stage ∧
      op.span.start ≤ 102 ∧ 105 ≤ op.span.stop ∧
      ∃ context, showSpan overtureText ⟨102, 105⟩ usualContext = .ok context := by
  let p := stateAfter ReportM.stepForward { overtureStart with position := 1 }
  let q := stateAfter ReportM.stepForward p
  have hp : p.Reachable overtureText overture := .ask .step (.go 1 (by decide) reachable_overtureStart)
  have houtcome : outcomeOf ReportM.stepForward p =
      .error (.error (.talkingToNobody "Romeo") (some (overtureText, ⟨102, 105⟩)) (some q.stage)) := by
    decide +kernel
  have hstep : ReportM.stepForward p =
      .error (.error (.talkingToNobody "Romeo") (some (overtureText, ⟨102, 105⟩)) (some q.stage)) q :=
    error_of_outcomeOf houtcome
  obtain ⟨-, op, hop, hnone, hplace⟩ := error_points_into readAs_overtureText hp hstep
  obtain ⟨-, hstart, hstop, hshown⟩ := hplace _ _ rfl
  have hplaced : ¬ op.deed.GoesPast p.stage := fun h => nomatch hnone.mpr h
  exact ⟨p, q, hp, hstep, op, hop, hplaced, hstart, hstop, hshown⟩

/-- Who speaks before they have entered is told of without a place. -/
theorem error_can_lack_place : ∃ (p q : Performance) (stage : Option Stage),
    readAs .play Play.ofTree? overtureText = .ok overture ∧ p.Reachable overtureText overture ∧
      ReportM.stepForward p = .error (.error (.notOnStage "Romeo") none stage) q := by
  have houtcome : outcomeOf ReportM.stepForward overtureStart =
      .error (.error (.notOnStage "Romeo") none (some overtureStart.stage)) := by decide +kernel
  exact ⟨_, _, _, readAs_overtureText, reachable_overtureStart, error_of_outcomeOf houtcome⟩

end Playhouse
