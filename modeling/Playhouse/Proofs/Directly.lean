import Playhouse.Proofs.Lockstep

/-!
# Playhouse.Proofs.Directly — a line of the script, and the same line from outside of it

A line can be performed as an event of its own, or by steps through the script in which its sentences stand. The
event makes its operations anew and stays where it is; the steps use those of the script, with all that they
remember, and go on. Sentence by sentence both come to the same, and they stop at the same sentence if one fails.
Main statement: `line_performed_directly`.
-/

namespace Playhouse

open Performance

/-- Steps one after the other, up to the first one that fails. -/
def ReportM.stepForwards : Nat → ReportM Unit
  | 0 => pure ()
  | n + 1 => do
    stepForward
    stepForwards n

/-- The operations stand in the script from a position on. -/
def Script.HasAt (s : Script) (position : Int) (ops : List Operation) : Prop :=
  ∃ before after, s.operations = before ++ ops ++ after ∧ position = before.length

/-- Both have come to the same, but for their positions and for what their scripts remember. -/
structure Performance.SameScene (p q : Performance) : Prop where
  stage : q.stage = p.stage
  desk : q.desk = p.desk
  style : q.style = p.style
  streams : q.streams = p.streams
  uttered : q.uttered = p.uttered

/-- Both reports tell of the same fault on the same stage. The first shows the place of an error in `text`, or
`span` if the error has no place; the second shows the place in `source`. -/
inductive Report.SameFault (text source : List Char) (span : Span) : Report → Report → Prop
  | breakdown (b : Breakdown) : SameFault text source span (.breakdown b) (.breakdown b)
  | error (cause : Cause) (place : Option Span) (stage : Stage) :
      SameFault text source span (.error cause ((place <|> some span).map (text, ·)) (some stage))
        (.error cause (place.map (source, ·)) (some stage))

namespace Script.HasAt

variable {s : Script} {n : Int} {op : Operation} {ops : List Operation}

theorem head (h : s.HasAt n (op :: ops)) : s.operation? n = some op := by
  obtain ⟨before, after, hops, rfl⟩ := h
  have hnonneg : ¬ ((before.length : Int) < 0) := by omega
  unfold operation? Source.at?
  rw [if_neg hnonneg, Int.toNat_natCast, hops, List.append_assoc, List.getElem?_append_right (Nat.le_refl _)]
  simp

theorem tail (h : s.HasAt n (op :: ops)) : s.HasAt (n + 1) ops := by
  obtain ⟨before, after, hops, rfl⟩ := h
  exact ⟨before ++ [op], after, by simp [hops], by simp⟩

end Script.HasAt

/-! ### One sentence -/

/-- The footing of a performance that stays at `n` and of one that has come to `m`. -/
def Footing.beside (layout : Script) (n m : Int) : Footing :=
  ⟨layout, layout, fun i j => i = n ∧ j = m, Eq, True, True, Eq, id, Footing.eq_append⟩

variable {layout : Script} {n m : Int} {p q : Performance}

theorem Abreast.sameScene (h : Abreast (Footing.beside layout n m) p q) : p.SameScene q := by
  obtain ⟨hout, herr⟩ := h.printed trivial
  have hsame : p.streams.out = q.streams.out := hout
  have hstdin : p.streams.stdin = q.streams.stdin := h.stdin
  refine ⟨h.stage, h.desk, h.style trivial, ?_, h.uttered⟩
  calc q.streams = ⟨q.streams.stdin, q.streams.reader, q.streams.out, q.streams.err⟩ := rfl
    _ = p.streams := by rw [← hstdin, h.reader, ← hsame, herr]

theorem Abreast.stepped (h : Abreast (Footing.beside layout n m) p q) :
    Abreast (Footing.beside layout n (m + 1)) p { q with position := q.position + 1 } := by
  obtain ⟨hn, hm⟩ := h.place
  exact ⟨h.script, h.script', h.faithful, h.faithful', h.stage, ⟨hn, congrArg (· + 1) hm⟩, h.desk,
    h.style, h.stdin, h.reader, h.uttered, h.printed⟩

/-- A sentence from outside of the script ends as the step over the same sentence in it. -/
theorem couples_performApart_step {s : Sentence} {speaker : String} (h : Abreast (Footing.beside layout n m) p q)
    (hat : layout.operation? m = some (Operation.ofSentence speaker s))
    (hgoto : ∀ target numeral, s.action ≠ .goto target numeral) (hstyle : q.style ≠ .debug) :
    (Footing.beside layout n m).Couples (ReportM.performApart (Operation.ofSentence speaker s))
      PerformanceM.step p q
      (fun _ _ => Abreast (Footing.beside layout n (m + 1))) (Abreast (Footing.beside layout n m)) := by
  have hposition : q.position = m := h.place.2
  have hlayout : q.script.forget = layout := h.script'
  rw [← hlayout, Script.operation?_forget, Option.map_eq_some_iff, ← hposition] at hat
  obtain ⟨op, hop, hsame⟩ := hat
  have hnot : op.isBreakpoint = false := by
    rw [← op.isBreakpoint_forget, hsame]
    rfl
  have hjump : (Operation.ofSentence speaker s).deed.isJump = false := by
    unfold Operation.ofSentence
    cases ha : s.action with
    | goto target numeral => exact absurd ha (hgoto target numeral)
    | _ => rfl
  have hrem : ∀ {speaker condition a}, op.deed = .speak speaker condition a →
      PerformanceM.Records a.Redone layout (PerformanceM.rememberAt q.position) :=
    fun hd => hlayout ▸ PerformanceM.records_rememberAt hop hd
  have hperform := PerformanceM.couples_perform h (faithful_ofSentence speaker s) (h.faithful'.operation hop)
    (hsame.trans (forget_ofSentence speaker s).symm) (fun _ => PerformanceM.records_nothing _ _) hrem
    (fun _ => rfl) (by rw [hjump]; exact fun hj => nomatch hj)
  refine (hperform.bind_right fun _ _ r t ht => ?_).of_eq rfl (PerformanceM.step_of_quiet hop hnot hstyle)
  -- the sentence has not moved, so the step goes on
  have hstay : t.position = q.position := ht.place.2.trans hposition.symm
  refine ⟨(), { t with position := t.position + 1 }, ?_, ht.stepped⟩
  show (if t.position = q.position then PerformanceM.advance else pure ()) t = _
  rw [if_pos hstay]
  rfl

/-! ### All sentences of a line -/

/-- How operations from outside of the script and the steps over the same operations end: all succeed, or both stop
with the same fault at the operation after the first `k`. -/
inductive EndsBeside (layout : Script) (n m : Int) (ops : List Operation) (p q : Performance) : Prop
  | returned {r t : Performance} : ops.forM ReportM.performApart p = .ok () r →
      ReportM.stepForwards ops.length q = .ok () t → Abreast (Footing.beside layout n (m + ops.length)) r t →
      EndsBeside layout n m ops p q
  | failed {k : Nat} {f : Fault} {r t u : Performance} : k < ops.length →
      ops.forM ReportM.performApart p = .error f r → ReportM.stepForwards k q = .ok () t →
      t.script.forget = layout → PerformanceM.step t = .error f u → Abreast (Footing.beside layout n (m + k)) r u →
      EndsBeside layout n m ops p q

theorem EndsBeside.cons {op : Operation} {ops : List Operation} {r t : Performance}
    (hop : ReportM.performApart op p = .ok () r) (hstep : ReportM.stepForward q = .ok () t)
    (h : EndsBeside layout n (m + 1) ops r t) : EndsBeside layout n m (op :: ops) p q := by
  have hforM : (op :: ops).forM ReportM.performApart p = ops.forM ReportM.performApart r := bind_of_ok hop
  have hsteps : ∀ k, ReportM.stepForwards (k + 1) q = ReportM.stepForwards k t := fun k => bind_of_ok hstep
  have hplace : ∀ k : Nat, m + 1 + (k : Int) = m + ((k + 1 : Nat) : Int) := by omega
  cases h with
  | returned hr ht hrt => exact .returned (hforM.trans hr) ((hsteps _).trans ht) (hplace ops.length ▸ hrt)
  | @failed k f r' t' u hk hr ht hscript hu hru =>
    exact .failed (Nat.succ_lt_succ hk) (hforM.trans hr) ((hsteps k).trans ht) hscript hu (hplace k ▸ hru)

/-- The sentences from outside of the script and the steps over them end alike. The induction is on the sentences;
the steps have to keep the style, which a sound performance does. -/
theorem endsBeside_sentences {source : List Char} {play : Play} {speaker : String} (ss : List Sentence)
    (hgoto : ∀ s ∈ ss, ∀ target numeral, s.action ≠ .goto target numeral) :
    ∀ {m : Int} {p q : Performance}, Abreast (Footing.beside layout n m) p q → q.Sound source play →
      q.style ≠ .debug →
      layout.HasAt m (ss.map (Operation.ofSentence speaker)) →
      EndsBeside layout n m (ss.map (Operation.ofSentence speaker)) p q := by
  induction ss with
  | nil =>
    intro m p q h _ _ _
    refine .returned rfl rfl ?_
    rwa [List.map_nil, List.length_nil, Int.natCast_zero, Int.add_zero]
  | cons s ss ih =>
    intro m p q h hsound hstyle hat
    obtain ⟨hs, hss⟩ := List.forall_mem_cons.mp hgoto
    cases couples_performApart_step h hat.head hs hstyle with
    | @ok _ _ r t hr ht hrt =>
      have hforward : ReportM.stepForward q = .ok () t := ReportM.reporting_of_ok ht
      have hkept : t.style = q.style := ((PerformanceM.ends_step hsound.stage).ok ht).style
      exact (ih hss hrt ((ReportM.sound_stepForward hsound).ok hforward) (hkept ▸ hstyle) hat.tail).cons hr
        hforward
    | @error f r t hr ht hrt =>
      refine .failed (k := 0) (Nat.succ_pos _) (bind_of_error hr) rfl h.script' ht ?_
      rwa [Int.natCast_zero, Int.add_zero]
    | left _ he => exact absurd he (Footing.not_excuse_of_styled trivial _)
    | right _ he => exact absurd he (Footing.not_excuse_of_styled trivial _)

namespace ReportM

/-- Steps stop at the first one that fails. -/
theorem stepForwards_of_error {r : Report} {k : Nat} : ∀ {p t u : Performance} {l : Nat}, k < l →
    stepForwards k p = .ok () t → stepForward t = .error r u → stepForwards l p = .error r u := by
  induction k with
  | zero =>
    rintro p t u (_ | l) hl ⟨⟩ hu
    · exact absurd hl (Nat.lt_irrefl 0)
    · exact bind_of_error hu
  | succ k ih =>
    rintro p t u (_ | l) hl ht hu
    · exact absurd hl (Nat.not_lt_zero _)
    · cases hstep : stepForward p with
      | error r' q =>
        rw [show stepForwards (k + 1) p = .error r' q from bind_of_error hstep] at ht
        cases ht
      | ok _ q =>
        rw [show stepForwards (k + 1) p = stepForwards k q from bind_of_ok hstep] at ht
        exact (bind_of_ok hstep).trans (ih (Nat.lt_of_succ_lt_succ hl) ht hu)

/-- A fault of an event and of a step that leave the same stage is told in the same way. -/
theorem sameFault_of_error {α β : Type} {m : PerformanceM α} {m' : PerformanceM β} {text source : List Char}
    {span : Span} {f : Fault} {r u : Performance} (hm : m p = .error f r) (hm' : m' q = .error f u)
    (hstage : u.stage = r.stage) :
    ∃ report report', reporting text (some span) m p = .error report r ∧
      reporting source none m' q = .error report' u ∧ Report.SameFault text source span report report' := by
  cases f with
  | breakdown b => exact ⟨_, _, reporting_of_breakdown hm, reporting_of_breakdown hm', .breakdown b⟩
  | error cause place =>
    have hplace : (place <|> none) = place := by cases place <;> rfl
    refine ⟨_, _, reporting_of_error hm, reporting_of_error hm', ?_⟩
    rw [hstage, hplace]
    exact .error cause place r.stage

end ReportM

/-- **A line performed directly does what it does in its play.** Let a performance of a play be at the first
sentence of a line, whatever it has come to, with none of the sentences a jump and with the basic or verbose style.
The line as an event and as many steps as it has sentences come to the same scene, or both fail with the same
fault: the event stays where it is, and the steps go as far as there are sentences that succeed. -/
theorem line_performed_directly {source : List Char} {play : Play} {p : Performance} {span : Span}
    {speaker : List String} {ss : List Sentence} (text : List Char) (hp : p.Reachable source play)
    (hstyle : p.style ≠ .debug)
    (hat : (Script.ofActs source play.acts).HasAt p.position (Operation.ofEvent (.line span speaker ss)))
    (hgoto : ∀ s ∈ ss, ∀ target numeral, s.action ≠ .goto target numeral) :
    (∃ q r, ReportM.performEvent text (.line span speaker ss) p = .ok () q ∧
        ReportM.stepForwards ss.length p = .ok () r ∧
        q.SameScene r ∧ q.position = p.position ∧ r.position = p.position + ss.length) ∨
      ∃ k t report report' q r, k < ss.length ∧
        ReportM.performEvent text (.line span speaker ss) p = .error report q ∧
        ReportM.stepForwards k p = .ok () t ∧ ReportM.stepForward t = .error report' r ∧
        ReportM.stepForwards ss.length p = .error report' r ∧ Report.SameFault text source span report report' ∧
        q.SameScene r ∧ q.position = p.position ∧ r.position = p.position + k := by
  have hlayout := hp.sound.script
  have hbeside : Abreast (Footing.beside (Script.ofActs source play.acts) p.position p.position) p p :=
    ⟨hlayout, hlayout, hp.faithful, hp.faithful, rfl, ⟨rfl, rfl⟩, rfl, fun _ => rfl, rfl, rfl, rfl,
      fun _ => ⟨rfl, rfl⟩⟩
  have hlength : (ss.map (Operation.ofSentence (Name.normalizeWords speaker))).length = ss.length :=
    List.length_map ..
  cases endsBeside_sentences ss hgoto hbeside hp.sound hstyle hat with
  | @returned r t hr ht hrt =>
    rw [hlength] at ht hrt
    exact .inl ⟨r, t, ReportM.reporting_of_ok hr, ht, hrt.sameScene, hrt.place.1, hrt.place.2⟩
  | @failed k f r t u hk hr ht hscript hu hru =>
    rw [hlength] at hk
    have hsource : t.script.source = source := congrArg Script.source hscript
    obtain ⟨report, report', hevent, hforward, hsame⟩ :
        ∃ report report', ReportM.performEvent text (.line span speaker ss) p = .error report r ∧
          ReportM.reporting t.script.source none PerformanceM.step t = .error report' u ∧
          Report.SameFault text t.script.source span report report' := ReportM.sameFault_of_error hr hu hru.stage
    rw [hsource] at hsame
    exact .inr ⟨k, t, report, report', r, u, hk, hevent, ht, hforward,
      ReportM.stepForwards_of_error hk ht hforward, hsame, hru.sameScene, hru.place.1, hru.place.2⟩

/-! ### A line that fails on the way -/

/-- The sentences that one says to the other: the first succeeds, the second is about something never told. -/
def forgettingSentences : List Sentence :=
  [⟨⟨6, 7⟩, none, .assignment (.nounPhrase ⟨6, 7⟩ .positive [] ["cat"])⟩, ⟨⟨7, 8⟩, none, .pop "that"⟩,
    ⟨⟨8, 9⟩, none, .output .number⟩]

/-- Two enter, and one of them speaks. -/
def forgetting : Play :=
  ⟨"Forgetting", [⟨⟨0, 1⟩, ["Romeo"]⟩, ⟨⟨1, 2⟩, ["Juliet"]⟩], [⟨⟨⟨2, 3⟩, "I"⟩, "", [⟨⟨⟨3, 4⟩, "I"⟩, "", [
    .entrance ⟨4, 5⟩ [["Romeo"], ["Juliet"]], .line ⟨5, 9⟩ ["Romeo"] forgettingSentences]⟩]⟩]⟩

/-- The performance of `forgetting` about to begin. -/
def forgettingStart : Performance :=
  ⟨Script.ofActs [] forgetting.acts, Stage.ofCast ["Romeo", "Juliet"], 0, .basic [], .verbose,
    ⟨[], none, "", ""⟩, []⟩

/-- The performance of `forgetting` back at the line, with the first sentence said before and its worth
remembered. -/
def forgettingAgain : Performance :=
  { stateAfter ReportM.stepForward (stateAfter ReportM.stepForward forgettingStart) with position := (1 : Nat) }

theorem forgettingAgain_reachable : forgettingAgain.Reachable [] forgetting := by
  have hstart : Performance.ofPlay [] forgetting (.basic []) .verbose ⟨[], none, "", ""⟩ = .ok forgettingStart :=
    rfl
  exact .go 1 (by decide +kernel) (.ask .step (.ask .step (.start hstart)))

/-- The second sentence fails in both ways, and the steps have come one sentence further than the event. -/
theorem line_performed_directly_forgetting :
    ∃ report report' q r,
      ReportM.performEvent [] (.line ⟨5, 9⟩ ["Romeo"] forgettingSentences) forgettingAgain = .error report q ∧
      ReportM.stepForwards 3 forgettingAgain = .error report' r ∧ Report.SameFault [] [] ⟨5, 9⟩ report report' ∧
      q.SameScene r ∧ q.position = 1 ∧ r.position = 2 := by
  have hgoto : ∀ s ∈ forgettingSentences, ∀ target numeral, s.action ≠ .goto target numeral := by
    simp [forgettingSentences]
  have hat : (Script.ofActs [] forgetting.acts).HasAt forgettingAgain.position
      (Operation.ofEvent (.line ⟨5, 9⟩ ["Romeo"] forgettingSentences)) :=
      ⟨[⟨⟨4, 5⟩, .enter ["Romeo", "Juliet"]⟩], [], rfl, rfl⟩
  have hfails : (outcomeOf (ReportM.stepForwards 3) forgettingAgain).isOk = false ∧
      (stateAfter (ReportM.stepForwards 3) forgettingAgain).position = 2 := by decide +kernel
  unfold outcomeOf stateAfter at hfails
  obtain ⟨q, r, -, hok, -⟩ | ⟨k, t, report, report', q, r, -, hevent, -, -, hsteps, hfault, hscene, hq, hr⟩ :=
    line_performed_directly [] forgettingAgain_reachable (by decide +kernel) hat hgoto
  · rw [show ReportM.stepForwards 3 forgettingAgain = .ok () r from hok] at hfails
    cases hfails.1
  · refine ⟨report, report', q, r, hevent, hsteps, hfault, hscene, hq, ?_⟩
    rw [show ReportM.stepForwards 3 forgettingAgain = .error report' r from hsteps] at hfails
    exact hfails.2

end Playhouse
