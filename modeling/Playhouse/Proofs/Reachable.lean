import Playhouse.Performance.Run
import Playhouse.Proofs.Acting
import Playhouse.Proofs.Layout

/-!
# Playhouse.Proofs.Reachable — what a performance can come to

A performance begins as the play says. Then it is asked for steps, runs, events, sentences, values and styles, and
its stage, input and position are worked on by hand, in any order and whether that succeeds or fails.
`Performance.Sound` is what all performances of a play have in common: the stage is sound, the script is still the
layout of the play but for what it remembers, and the position is one of the script or its end. Main statement of
this file: `Reachable.sound`.
-/

namespace Playhouse

namespace Performance

/-- What a step may have changed from `p` to `q`: the next position is reached, or the destination of a jump. -/
structure Stepped (p q : Performance) : Prop where
  script : q.script.forget = p.script.forget
  stage : p.stage.Changed q.stage
  position : (q.position = p.position + 1 ∧ ∃ op, p.script.operation? p.position = some op) ∨
    ∃ target numeral n, PerformanceM.destination p.script p.position target numeral = .ok n ∧ q.position = n
  style : q.style = p.style

/-- What was printed before does not matter. -/
theorem Alike.of_print {p q : Performance} {out : String} (h : (p.printed out).Alike q) : p.Alike q :=
  ⟨h.script, h.stage, h.position, h.desk, h.style, h.stdin, h.reader⟩

theorem Failed.of_print {p q : Performance} {f : Fault} {out : String}
    (h : (p.printed out).Failed f q) : p.Failed f q :=
  ⟨⟨h.1.script, h.1.stage, h.1.position, h.1.style⟩, fun hd hf => (h.2 hd hf).of_print⟩

end Performance

namespace PerformanceM

open Performance

variable {p : Performance}

theorem ends_nextOperation {Q : Operation → Performance → Prop} {E : Fault → Performance → Prop}
    (hok : ∀ op, p.script.operation? p.position = some op → Q op p)
    (herror : p.script.operation? p.position = none → E (.breakdown .positionOutOfRange) p) :
    Ends nextOperation p Q E := by
  unfold nextOperation
  apply ends_bind
  apply ends_get
  split
  · next hop => exact ends_pure (hok _ hop)
  · next hop => exact ends_throw (herror hop)

theorem keeper_rememberAt {op : Operation} {speaker : String} {condition : Option Condition}
    {a : Action Expression} (hop : p.script.operation? p.position = some op)
    (hdeed : op.deed = .speak speaker condition a) :
    Keeper Action.forget p a (rememberAt p.position) := by
  intro a' q E ha hq
  have hscript := Script.forget_remember_again hq.script hop hdeed ha
  apply ends_modify
  exact ⟨hscript, hq.stage, hq.position, hq.desk, hq.style, hq.stdin, hq.reader⟩

/-- What follows the header of the debug style. -/
theorem ends_performNext {op : Operation} (hs : p.stage.Sound) (hop : p.script.operation? p.position = some op)
    (out : String) :
    Ends (do perform (rememberAt p.position) op; if (← get).position = p.position then advance) (p.printed out)
      (fun _ q => p.Stepped q) (fun f q => p.Failed f q) := by
  have hperform :=
    ends_perform (p := p.printed out) hs fun hdeed => keeper_rememberAt (p := p.printed out) hop hdeed
  apply ends_bind
  refine hperform.mono (fun _ r hr => ?_) fun f r hr => hr.of_print
  apply ends_bind
  apply ends_get
  split
  · next heq => exact ends_modify ⟨hr.script, hr.stage, Or.inl ⟨by rw [heq], op, hop⟩, hr.style⟩
  · next hne => exact ends_pure ⟨hr.script, hr.stage, Or.inr (hr.position.resolve_left hne), hr.style⟩

/-- The debug style finds something to print before an operation. -/
def Announced (p : Performance) (op : Operation) : Prop := p.style = .debug → ∃ text, debugText p op = .ok text

theorem Announced.not_error {op : Operation} {b : Breakdown} (h : Announced p op) (hdebug : p.style = .debug) :
    debugText p op ≠ .error b := by
  obtain ⟨text, htext⟩ := h hdebug
  rw [htext]
  exact fun hb => nomatch hb

/-- What a step does with an operation that is no breakpoint. The header of the debug style comes first, and it may
break down. -/
theorem ends_announce {op : Operation} {Q : Unit → Performance → Prop} {E : Fault → Performance → Prop}
    (hrest : Announced p op → ∀ out,
      Ends (do perform (rememberAt p.position) op; if (← get).position = p.position then advance)
      (p.printed out) Q E)
    (herror : ∀ b, p.style = .debug → debugText p op = .error b → E (.breakdown b) p) :
    Ends (do
        let p ← get
        if p.style = .debug then printLine (← ofBreakdown (debugText p op))
        perform (rememberAt p.position) op
        if (← get).position = p.position then advance) p Q E := by
  apply ends_bind
  apply ends_get
  dsimp only
  -- nothing depends on what the header says, and the numerals in it are not to be worked out
  unfold Announced at hrest
  generalize debugText p op = header at hrest herror ⊢
  split
  · next hdebug =>
    apply ends_bind
    cases header with
    | ok text => exact ends_pure (ends_bind (ends_modify (hrest (fun _ => ⟨text, rfl⟩) _)))
    | error b => exact ends_throw (herror b hdebug rfl)
  · next hdebug => exact hrest (fun hd => absurd hd hdebug) p.streams.out

theorem ends_step (hs : p.stage.Sound) : Ends step p (fun _ q => p.Stepped q) (fun f q => p.Failed f q) := by
  unfold step
  apply ends_bind
  refine ends_nextOperation (fun op hop => ?_) fun b => (Alike.refl p).failed _
  split
  · exact ends_modify ⟨rfl, Stage.Changed.same, Or.inl ⟨rfl, op, hop⟩, rfl⟩
  · exact ends_announce (fun _ out => ends_performNext hs hop out) fun b _ _ => (Alike.refl p).failed _

end PerformanceM

/-! ### What is the same in all performances of a play -/

namespace Performance

/-- A performance of a play: whatever has been done, the script is its layout and the stage is sound. -/
structure Sound (source : List Char) (play : Play) (p : Performance) : Prop where
  numerals : NumeralsDiffer play.acts
  script : p.script.forget = Script.ofActs source play.acts
  stage : p.stage.Sound
  nonneg : 0 ≤ p.position
  le_length : p.position ≤ (play.acts.flatMap Act.operations).length

variable {source : List Char} {play : Play} {p q : Performance}

theorem Sound.acts (h : p.Sound source play) : p.script.acts = Script.actEntries 0 play.acts :=
  congrArg Script.acts h.script

theorem Sound.length (h : p.Sound source play) :
    p.script.operations.length = (play.acts.flatMap Act.operations).length := by
  have hops : p.script.operations.map Operation.forget = play.acts.flatMap Act.operations :=
    congrArg Script.operations h.script
  rw [← hops, List.length_map]

theorem Sound.destination_le (h : p.Sound source play) {target : Target} {numeral : String} {n : Nat}
    (hn : PerformanceM.destination p.script p.position target numeral = .ok n) :
    n ≤ (play.acts.flatMap Act.operations).length := by
  unfold PerformanceM.destination at hn
  cases target with
  | act =>
    dsimp only at hn
    split at hn
    · next e he =>
      have hmem := List.mem_of_find?_eq_some he
      rw [h.acts] at hmem
      have := (Script.actEntries_position play.acts 0 e hmem).2
      cases hn
      omega
    · cases hn
  | scene =>
    dsimp only at hn
    split at hn
    · cases hn
    · next e he =>
      have hmem := Script.actAt?_mem he
      rw [h.acts] at hmem
      split at hn
      · next m hm =>
        have := Script.actEntries_scenes play.acts 0 e hmem _ (mem_of_lookup hm)
        cases hn
        omega
      · cases hn

theorem Sound.lt_length (h : p.Sound source play) {op : Operation}
    (hop : p.script.operation? p.position = some op) :
    p.position < (play.acts.flatMap Act.operations).length := by
  obtain ⟨k, hk⟩ := Int.eq_ofNat_of_zero_le h.nonneg
  rw [hk] at hop ⊢
  obtain ⟨hlt, -⟩ := List.getElem?_eq_some_iff.mp (hop : p.script.operations[k]? = some op)
  rw [h.length] at hlt
  exact Int.ofNat_lt.mpr hlt

theorem Sound.performed (h : p.Sound source play) (hq : p.Performed q) : q.Sound source play := by
  have hrange : 0 ≤ q.position ∧ q.position ≤ (play.acts.flatMap Act.operations).length := by
    rcases hq.position with hpos | ⟨_, _, n, hn, hpos⟩
    · rw [hpos]
      exact ⟨h.nonneg, h.le_length⟩
    · have := h.destination_le hn
      omega
  exact ⟨h.numerals, hq.script.trans h.script, h.stage.changed hq.stage, hrange.1, hrange.2⟩

theorem Sound.restaged (h : p.Sound source play) {s : Stage} (hs : p.stage.Changed s) :
    Sound source play { p with stage := s } := h.performed ((Alike.refl p).fed.change hs)

theorem Sound.stepped (h : p.Sound source play) (hq : p.Stepped q) : q.Sound source play := by
  have hrange : 0 ≤ q.position ∧ q.position ≤ (play.acts.flatMap Act.operations).length := by
    rcases hq.position with ⟨hpos, op, hop⟩ | ⟨_, _, n, hn, hpos⟩
    · have hlt := h.lt_length hop
      have hnonneg := h.nonneg
      omega
    · have := h.destination_le hn
      omega
  exact ⟨h.numerals, hq.script.trans h.script, h.stage.changed hq.stage, hrange.1, hrange.2⟩

theorem forget_ofActs (source : List Char) (as : List Act) :
    (Script.ofActs source as).forget = Script.ofActs source as := by
  have hscene : ∀ s : Scene, s.operations.map Operation.forget = s.operations := by
    intro s
    unfold Scene.operations
    rw [List.map_flatMap]
    exact List.flatMap_congr fun e _ => forget_ofEvent e
  have hact : ∀ a : Act, a.operations.map Operation.forget = a.operations := by
    intro a
    unfold Act.operations
    rw [List.map_flatMap]
    exact List.flatMap_congr fun s _ => hscene s
  unfold Script.forget Script.ofActs
  simp only [List.map_flatMap, hact]

theorem sound_ofPlay {desk : InputDesk} {style : OutputStyle} {streams : Streams}
    (h : Performance.ofPlay source play desk style streams = .ok p) : p.Sound source play := by
  unfold Performance.ofPlay at h
  cases hscript : Script.ofPlay source play with
  | error f =>
    rw [hscript] at h
    cases h
  | ok script =>
    cases hstage : play.stage with
    | error f =>
      rw [hscript, hstage] at h
      cases h
    | ok stage =>
      rw [hscript, hstage] at h
      rw [← Except.ok.inj h]
      obtain ⟨hd, rfl⟩ := Script.ofPlay_eq_ok_iff.mp hscript
      exact ⟨hd, forget_ofActs source play.acts, sound_of_stage hstage, Int.le_refl 0, Int.natCast_nonneg _⟩

end Performance

/-! ### Requests -/

/-- What a performance can be asked for. A run is given up after `fuel` rounds. The last five are done by hand,
past the script and past sentences. -/
inductive Request where
  | step
  | run (fuel : Nat)
  | event (source : List Char) (e : Event)
  | sentence (source : List Char) (s : Sentence) (speaker : String)
  | value (source : List Char) (v : Value) (speaker : String)
  | inputStyle (name : String)
  | outputStyle (name : String)
  | direction (d : Direction)
  | change (name : String) (f : Character → Except Fault Character)
  | flag (b : Bool)
  | input (medium : Medium)
  | stdin (text : List Char)

/-- What is done for a request. -/
def Request.perform : Request → ReportM Unit
  | step => ReportM.stepForward
  | run fuel => do let _ ← ReportM.run (pure ()) fuel
  | event source e => ReportM.performEvent source e
  | sentence source s speaker => ReportM.performSentence source s speaker
  | value source v speaker => do let _ ← ReportM.evaluateValue source v speaker
  | inputStyle name => ReportM.setInputStyle name
  | outputStyle name => ReportM.setOutputStyle name
  | direction d => ReportM.bare (PerformanceM.onStage d.perform)
  | change name f => ReportM.bare (PerformanceM.changeCharacter name f)
  | flag b => modify fun p => { p with stage := { p.stage with flag := b } }
  | input medium => do let _ ← ReportM.bare (PerformanceM.input medium)
  | stdin text => modify fun p => { p with streams := { p.streams with stdin := text } }

/-- The performances that a play comes to, by requests that succeed and by requests that fail, and by going to a
position of the script or to its end. -/
inductive Performance.Reachable (source : List Char) (play : Play) : Performance → Prop
  | start {desk : InputDesk} {style : OutputStyle} {streams : Streams} {p : Performance} :
      Performance.ofPlay source play desk style streams = .ok p → Reachable source play p
  | ask {p : Performance} (r : Request) : Reachable source play p → Reachable source play (stateAfter r.perform p)
  | go {p : Performance} (n : Nat) : n ≤ p.script.operations.length → Reachable source play p →
      Reachable source play { p with position := n }

namespace ReportM

open Performance

variable {source : List Char} {play : Play} {p : Performance}

section Reporting

variable {α : Type} {m : PerformanceM α} {text : List Char} {fallback : Option Span} {q : Performance}

theorem reporting_of_ok {a : α} (h : m p = .ok a q) : reporting text fallback m p = .ok a q := by
  unfold reporting
  rw [h]

theorem reporting_of_breakdown {b : Breakdown} (h : m p = .error (.breakdown b) q) :
    reporting text fallback m p = .error (.breakdown b) q := by
  unfold reporting
  rw [h]

theorem reporting_of_error {cause : Cause} {span : Option Span} (h : m p = .error (.error cause span) q) :
    reporting text fallback m p =
      .error (.error cause ((span <|> fallback).map (text, ·)) (some q.stage)) q := by
  unfold reporting
  rw [h]

/-- What is kept by an activity is kept when its faults are told. -/
theorem ends_reporting {Q : α → Performance → Prop} {I : Performance → Prop} (h : Ends m p Q (fun _ => I)) :
    Ends (reporting text fallback m) p Q (fun _ => I) := by
  cases hm : m p with
  | ok a q => exact ends_of_ok (reporting_of_ok hm) (h.ok hm)
  | error f q =>
    cases f with
    | breakdown b => exact ends_of_error (reporting_of_breakdown hm) (h.error hm)
    | error cause span => exact ends_of_error (reporting_of_error hm) (h.error hm)

theorem ends_ofScript {Q : α → Performance → Prop} {I : Performance → Prop} (h : Ends m p Q (fun _ => I)) :
    Ends (ofScript m) p Q (fun _ => I) := ends_bind (ends_get (ends_reporting h))

theorem ends_bare {Q : α → Performance → Prop} {I : Performance → Prop} (h : Ends m p Q (fun _ => I)) :
    Ends (bare m) p Q (fun _ => I) := by
  cases hm : m p with
  | ok a q => exact ends_of_ok (by unfold bare; rw [hm]) (h.ok hm)
  | error f q =>
    cases f with
    | breakdown b => exact ends_of_error (by unfold bare; rw [hm]) (h.error hm)
    | error cause span => exact ends_of_error (by unfold bare; rw [hm]) (h.error hm)

end Reporting

theorem sound_stepForward (h : p.Sound source play) :
    Ends stepForward p (fun _ q => q.Sound source play) (fun _ q => q.Sound source play) :=
  ends_ofScript ((PerformanceM.ends_step h.stage).mono (fun _ _ hq => h.stepped hq) fun _ _ hq => h.performed hq.1)

section Runs

variable {α : Type} {atBreakpoint : ReportM α}
  (hb : ∀ q, q.Sound source play →
    Ends atBreakpoint q (fun _ r => r.Sound source play) (fun _ r => r.Sound source play))

include hb

theorem sound_round (h : p.Sound source play) :
    Ends (round atBreakpoint) p (fun _ q => q.Sound source play) (fun _ q => q.Sound source play) := by
  have hnext : Ends (ofScript PerformanceM.nextOperation) p
      (fun op q => q = p ∧ p.script.operation? p.position = some op) (fun _ q => q.Sound source play) :=
    ends_ofScript (PerformanceM.ends_nextOperation (fun op hop => ⟨rfl, hop⟩) fun _ => h)
  unfold round
  apply ends_bind
  refine hnext.mono ?_ fun _ _ hq => hq
  rintro op q ⟨rfl, hop⟩
  split
  · have hadvance : Sound source play { q with position := q.position + 1 } :=
      h.stepped ⟨rfl, Stage.Changed.same, Or.inl ⟨rfl, op, hop⟩, rfl⟩
    have hgo : Ends (ofScript PerformanceM.advance) q (fun _ r => r.Sound source play)
        (fun _ r => r.Sound source play) := ends_ofScript (ends_modify hadvance)
    exact hgo.bind fun _ r hr => (hb r hr).bind fun _ _ ht => ends_pure ht
  · exact (sound_stepForward h).bind fun _ _ hq => ends_pure hq

theorem sound_runFrom (fuel : Nat) : ∀ (seen : List α) {p : Performance}, p.Sound source play →
    Ends (runFrom atBreakpoint fuel seen) p (fun _ q => q.Sound source play) (fun _ q => q.Sound source play) := by
  induction fuel with
  | zero => exact fun seen p h => ends_throw h
  | succ fuel ih =>
    intro seen p h
    unfold runFrom playOver
    apply ends_bind
    refine ends_bind (ends_get (ends_pure ?_))
    split
    · exact ends_pure h
    · refine (sound_round hb h).bind fun outcome q hq => ?_
      cases outcome with
      | none => exact ih seen hq
      | some a => exact ih (a :: seen) hq

end Runs

/-- An operation from outside of the script keeps nothing in it. -/
theorem ends_performApart (op : Operation) (hs : p.stage.Sound) :
    Ends (performApart op) p (fun _ q => p.Performed q) (fun f q => p.Failed f q) := by
  have hkeeper : ∀ {a}, PerformanceM.Keeper Action.forget p a (fun _ => pure ()) := fun _ hq => ends_pure hq
  exact PerformanceM.ends_perform hs fun _ => hkeeper

theorem sound_performApart (op : Operation) (h : p.Sound source play) :
    Ends (performApart op) p (fun _ q => q.Sound source play) (fun _ q => q.Sound source play) :=
  (ends_performApart op h.stage).mono (fun _ _ hq => h.performed hq) fun _ _ hq => h.performed hq.1

/-- Every request keeps a performance sound. -/
theorem sound_request (r : Request) (h : p.Sound source play) :
    Ends r.perform p (fun _ q => q.Sound source play) (fun _ q => q.Sound source play) := by
  cases r with
  | step => exact sound_stepForward h
  | run fuel =>
    exact (sound_runFrom (fun q hq => ends_pure hq) fuel [] h).bind fun _ _ hq => ends_pure hq
  | event text e =>
    exact ends_reporting (ends_forM (fun op _ q hq => sound_performApart op hq) h)
  | sentence text s speaker => exact ends_reporting (sound_performApart _ h)
  | value text v speaker =>
    have hkeeper : PerformanceM.Keeper Expression.forget p (Expression.ofValue v) (fun _ => pure ()) :=
      fun _ hq => ends_pure hq
    have hsound : ∀ q, p.Alike q → q.Sound source play := fun q hq => h.performed hq.fed.performed
    refine Ends.bind (ends_reporting ?_) fun _ _ hq => ends_pure hq
    refine (PerformanceM.ends_evaluate (Alike.refl p) hkeeper fun _ q hq => hsound q hq).bind ?_
    rintro ⟨n, e⟩ q ⟨hq, -⟩
    exact ends_pure (hsound q hq)
  | inputStyle name =>
    show Ends (setInputStyle name) p _ _
    cases hname : InputDesk.ofName name p.streams.reader with
    | ok desk =>
      refine ends_of_ok (t := { p with desk := desk }) (by unfold setInputStyle; rw [hname]) ?_
      exact ⟨h.numerals, h.script, h.stage, h.nonneg, h.le_length⟩
    | error b => exact ends_of_error (by unfold setInputStyle; rw [hname]) h
  | outputStyle name =>
    show Ends (setOutputStyle name) p _ _
    cases hname : OutputStyle.ofName name with
    | ok style =>
      refine ends_of_ok (t := { p with style := style }) (by unfold setOutputStyle; rw [hname]) ?_
      exact ⟨h.numerals, h.script, h.stage, h.nonneg, h.le_length⟩
    | error b => exact ends_of_error (by unfold setOutputStyle; rw [hname]) h
  | direction d =>
    refine ends_bare (PerformanceM.ends_onStage ((d.ends_perform p.stage).mono ?_ ?_))
    · exact fun _ s hs => h.restaged (Stage.Changed.direction hs)
    · rintro e s (⟨rfl, -⟩ | ⟨-, hms⟩)
      · exact h
      · exact h.restaged (Stage.Changed.direction (d := d) (Or.inr hms))
  | change name f =>
    refine ends_bare ((PerformanceM.ends_changeCharacter name f).mono ?_ ?_)
    · rintro _ q ⟨c, hc, rfl⟩
      exact h.restaged (Stage.Changed.character c hc)
    · rintro e q ⟨rfl, -⟩
      exact h
  | flag b => exact ends_modify (h.restaged (Stage.Changed.flag b))
  | input medium =>
    have hinput := PerformanceM.ends_input medium (Alike.refl p).fed
    refine Ends.bind (ends_bare (hinput.mono ?_ ?_)) fun _ _ hq => ends_pure hq
    · exact fun _ _ hq => h.performed hq.performed
    · exact fun _ _ hq => h.performed hq.1.performed
  | stdin text => exact ends_modify ⟨h.numerals, h.script, h.stage, h.nonneg, h.le_length⟩

end ReportM

theorem Performance.Reachable.sound {source : List Char} {play : Play} {p : Performance}
    (h : p.Reachable source play) : p.Sound source play := by
  induction h with
  | start h => exact sound_ofPlay h
  | ask r _ ih => exact (ReportM.sound_request r ih).stateAfter
  | go n hn _ ih =>
    rw [ih.length] at hn
    exact ⟨ih.numerals, ih.script, ih.stage, Int.natCast_nonneg n, Int.ofNat_le.mpr hn⟩

end Playhouse
