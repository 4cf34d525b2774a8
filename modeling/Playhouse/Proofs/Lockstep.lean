import Playhouse.Proofs.Abreast
import Playhouse.Proofs.Stepping

/-!
# Playhouse.Proofs.Lockstep — steps side by side

A step of a performance and a step of another abreast of it end alike (`couples_step`). Beside itself, every
performance is abreast as long as its script is faithful, so that steps keep scripts faithful, and with them
everything else that a performance can be asked for (`Reachable.faithful`).
-/

namespace Playhouse

/-! ### Headers -/

theorem error_of_mapM {α β ε : Type} {g : α → Except ε β} {xs : List α} {e : ε} (h : xs.mapM g = .error e) :
    ∃ x ∈ xs, g x = .error e := by
  induction xs with
  | nil => cases h
  | cons x xs ih =>
    rw [List.mapM_cons] at h
    cases hx : g x with
    | error e' =>
      rw [hx] at h
      cases h
      exact ⟨x, List.mem_cons_self, hx⟩
    | ok y =>
      cases hxs : xs.mapM g with
      | error e' =>
        rw [hx, hxs] at h
        cases h
        obtain ⟨z, hz, hgz⟩ := ih hxs
        exact ⟨z, List.mem_cons_of_mem x hz, hgz⟩
      | ok ys =>
        rw [hx, hxs] at h
        cases h

theorem Character.unprintable_of_text {c : Character} {b : Breakdown} (h : c.text = .error b) :
    b.unprintable = true := by
  have hunprintable := fun n => Number.unprintable_of_numeral (n := n) (b := b)
  unfold Character.text at h
  generalize Number.numeral = numeral at h hunprintable
  cases hvalue : numeral c.value with
  | error b' =>
    rw [hvalue] at h
    cases h
    exact hunprintable c.value hvalue
  | ok v =>
    cases hstack : c.stack.mapM numeral with
    | error b' =>
      rw [hvalue, hstack] at h
      cases h
      obtain ⟨n, -, hn⟩ := error_of_mapM hstack
      exact hunprintable n hn
    | ok ns =>
      rw [hvalue, hstack] at h
      cases h

theorem Stage.unprintable_of_entryText {x : String × Character} {b : Breakdown}
    (h : Stage.entryText x = .error b) :
    b.unprintable = true := by
  unfold Stage.entryText at h
  cases htext : x.2.text with
  | error b' =>
    rw [htext] at h
    cases h
    exact Character.unprintable_of_text htext
  | ok text =>
    rw [htext] at h
    cases h

theorem Stage.unprintable_of_text {s : Stage} {b : Breakdown} (h : s.text = .error b) : b.unprintable = true := by
  unfold Stage.text at h
  cases hpresent : s.onStage.mapM Stage.entryText with
  | error b' =>
    rw [hpresent] at h
    cases h
    obtain ⟨x, -, hx⟩ := error_of_mapM hpresent
    exact Stage.unprintable_of_entryText hx
  | ok present =>
    cases haway : s.offStage.mapM Stage.entryText with
    | error b' =>
      rw [hpresent, haway] at h
      cases h
      obtain ⟨x, -, hx⟩ := error_of_mapM haway
      exact Stage.unprintable_of_entryText hx
    | ok away =>
      rw [hpresent, haway] at h
      cases h

theorem PerformanceM.unprintable_of_debugText {p : Performance} {op : Operation} {b : Breakdown}
    {context : List Char} (hshown : Source.showSpan p.script.source op.span Source.usualContext = .ok context)
    (h : debugText p op = .error b) : b.unprintable = true := by
  unfold debugText at h
  rw [hshown] at h
  cases htext : p.stage.text with
  | error b' =>
    rw [htext] at h
    cases h
    exact Stage.unprintable_of_text htext
  | ok text =>
    rw [htext] at h
    cases h

theorem Operation.isBreakpoint_forget (op : Operation) : op.forget.isBreakpoint = op.isBreakpoint := by
  unfold Operation.isBreakpoint Operation.forget
  cases op.deed <;> rfl

theorem Script.Faithful.operation {s : Script} {n : Int} {op : Operation} (h : s.Faithful)
    (hop : s.operation? n = some op) : op.Faithful := h op (List.mem_of_getElem? (clampIndex_of_at? hop))

namespace Abreast

variable {f : Footing} {p q : Performance}

/-- Both find the same operation at a position, but for what it remembers. -/
theorem operation (h : Abreast f p q) (hlayout : f.layout' = f.layout) (n : Int) :
    (q.script.operation? n).map Operation.forget = (p.script.operation? n).map Operation.forget := by
  rw [← Script.operation?_forget, ← Script.operation?_forget, h.script, h.script', hlayout]

theorem source (h : Abreast f p q) (hlayout : f.layout' = f.layout) : q.script.source = p.script.source :=
  show q.script.forget.source = p.script.forget.source by rw [h.script, h.script', hlayout]

theorem debugText (h : Abreast f p q) (hlayout : f.layout' = f.layout) {op op' : Operation}
    (hsame : op'.forget = op.forget) : PerformanceM.debugText q op' = PerformanceM.debugText p op := by
  have hspan : op'.span = op.span := (Operation.mk.inj hsame).1
  unfold PerformanceM.debugText
  rw [hspan, h.source hlayout, h.stage]

end Abreast

namespace PerformanceM

variable {f g : Footing} {p q : Performance} {E : Performance → Performance → Prop}

/-- What a step does with an operation that is no breakpoint. -/
theorem step_of_operation {op : Operation} (hop : p.script.operation? p.position = some op)
    (hnot : op.isBreakpoint = false) :
    step p = (do
      if p.style = .debug then printLine (← ofBreakdown (debugText p op))
      perform (rememberAt p.position) op
      if (← get).position = p.position then advance : PerformanceM Unit) p := by
  unfold step
  rw [bind_of_ok (nextOperation_of_some hop), if_neg (by simp [hnot])]
  rfl

/-- Nothing is printed before it unless the style is the debug style. -/
theorem step_of_quiet {op : Operation} (hop : p.script.operation? p.position = some op)
    (hnot : op.isBreakpoint = false) (hstyle : p.style ≠ .debug) :
    step p = (do
      perform (rememberAt p.position) op
      if (← get).position = p.position then advance : PerformanceM Unit) p := by
  rw [step_of_operation hop hnot]
  simp only [if_neg hstyle]

/-- Both go on to the next position, or neither does. -/
theorem couples_advance {m m' : PerformanceM Unit} (n : Int) (hplace : g.place = Eq)
    (h : f.Couples m m' p q (fun _ _ => Abreast g) E) :
    f.Couples (do m; if (← get).position = n then advance) (do m'; if (← get).position = n then advance) p q
      (fun _ _ => Abreast g) E := by
  refine h.bind fun _ _ r t hr => ?_
  have hposition : r.position = t.position := by
    rw [← hplace]
    exact hr.place
  apply coupled_bind
  apply coupled_get
  rw [← hposition]
  split
  · refine coupled_modify (hr.move ?_)
    rw [hplace, hposition]
  · exact coupled_pure hr

/-- The header of the debug style, and what follows it. Between performances of different styles nothing but the
stage may make it fail. -/
theorem couples_announce {op op' : Operation} {k k' : PerformanceM Unit}
    {Q : Unit → Unit → Performance → Performance → Prop} (h : Abreast f p q) (hlayout : f.layout' = f.layout)
    (hsame : op'.forget = op.forget)
    (hheader : ¬ f.styled → ∀ b, debugText p op = .error b → b.unprintable = true)
    (hk : ∀ out out', Abreast f (p.printed out) (q.printed out') →
      f.Couples k k' (p.printed out) (q.printed out') Q E) (hE : E p q) :
    f.Couples (if p.style = .debug then (do printLine (← ofBreakdown (debugText p op)); k) else k)
      (if q.style = .debug then (do printLine (← ofBreakdown (debugText q op')); k') else k') p q Q E := by
  have hdiffer : p.style ≠ q.style → ¬ f.styled := fun hne hs => hne (h.style hs).symm
  rw [h.debugText hlayout hsame]
  generalize debugText p op = header at hheader ⊢
  by_cases hp : p.style = .debug
  · by_cases hq : q.style = .debug
    · simp only [hp, hq, if_true]
      apply coupled_bind
      refine couples_ofBreakdown header (fun text _ => ?_) hE
      exact coupled_bind (coupled_modify (hk _ _ (h.print _)))
    · have hs := hdiffer fun he => hq (he ▸ hp)
      simp only [hp, hq, if_true, if_false]
      cases header with
      | error b => exact .left rfl ⟨hs, hheader hs b rfl⟩
      | ok text => exact (hk _ q.streams.out (h.printApart hs _ _)).of_eq rfl rfl
  · by_cases hq : q.style = .debug
    · have hs := hdiffer fun he => hp (he.trans hq)
      simp only [hp, hq, if_true, if_false]
      cases header with
      | error b => exact .right rfl ⟨hs, hheader hs b rfl⟩
      | ok text => exact (hk p.streams.out _ (h.printApart hs _ _)).of_eq rfl rfl
    · simp only [hp, hq, if_false]
      exact hk p.streams.out q.streams.out h

/-- The next operation reads input. -/
def TakesInput (p : Performance) : Prop :=
  ∃ op, p.script.operation? p.position = some op ∧ op.deed.takesInput p.stage.flag = true

instance (p : Performance) : Decidable (TakesInput p) :=
  decidable_of_iff ((p.script.operation? p.position).any fun op => op.deed.takesInput p.stage.flag)
    (Option.any_eq_true _ _)

/-- **Steps side by side end alike.** -/
theorem couples_step (h : Abreast f p q) (hlayout : f.layout' = f.layout) (hplace : f.place = Eq)
    (hinput : TakesInput p → f.stdin = Eq)
    (hshown : ¬ f.styled → ∀ op, p.script.operation? p.position = some op →
      ∃ context, Source.showSpan p.script.source op.span Source.usualContext = .ok context) :
    f.Couples step step p q (fun _ _ => Abreast f) (Abreast f) := by
  have hposition : p.position = q.position := by
    rw [← hplace]
    exact h.place
  have hoperation := h.operation hlayout p.position
  cases hop : p.script.operation? p.position with
  | none =>
    rw [hop, Option.map_none, Option.map_eq_none_iff, hposition] at hoperation
    exact .error (bind_of_error (nextOperation_of_none hop)) (bind_of_error (nextOperation_of_none hoperation)) h
  | some op =>
    rw [hop, Option.map_some, Option.map_eq_some_iff] at hoperation
    obtain ⟨op', hop', hsame⟩ := hoperation
    have hbreak : op'.isBreakpoint = op.isBreakpoint := by
      rw [← op'.isBreakpoint_forget, hsame, op.isBreakpoint_forget]
    cases hnot : op.isBreakpoint with
    | true =>
      refine .ok (step_of_breakpoint hop hnot) (step_of_breakpoint (hposition ▸ hop') (hbreak.trans hnot))
        (h.move ?_)
      rw [hplace, hposition]
    | false =>
      have hrem : ∀ {speaker condition a}, op.deed = .speak speaker condition a →
          Records a.Redone f.layout (rememberAt p.position) := fun hd => h.script ▸ records_rememberAt hop hd
      have hrem' : ∀ {speaker condition a}, op'.deed = .speak speaker condition a →
          Records a.Redone f.layout' (rememberAt p.position) := fun hd => h.script' ▸ records_rememberAt hop' hd
      refine Coupled.of_eq ?_ (step_of_operation hop hnot)
        (step_of_operation (hposition ▸ hop') (hbreak.trans hnot))
      rw [← hposition]
      refine couples_announce h hlayout hsame (fun hs b => ?_) (fun out out' hout => ?_) h
      · obtain ⟨context, hcontext⟩ := hshown hs op hop
        exact unprintable_of_debugText hcontext
      · apply couples_advance p.position hplace
        refine couples_perform hout (h.faithful.operation hop) (h.faithful'.operation hop')
          hsame hrem hrem' ?_ fun _ => ⟨hplace, congrArg Script.acts hlayout⟩
        exact fun htakes => hinput ⟨op, hop, htakes⟩

/-- Steps that ask their users end alike if the users answer the same, whatever else there is to be read. -/
theorem couples_step_asking {R : List Char → List Char → Prop} (h : Abreast f p q) (hlayout : f.layout' = f.layout)
    (hplace : f.place = Eq) (hstyled : f.styled) (hstyle : p.style ≠ .debug) (hdesk : p.desk = .interactive)
    (hinput : TakesInput p) (hline : SameLine p.streams.stdin q.streams.stdin R) :
    f.Couples step step p q (fun _ _ => Abreast (f.reading R)) (fun _ _ => True) := by
  obtain ⟨op, hop, htakes⟩ := hinput
  obtain ⟨speaker, condition, medium, hdeed, hmet⟩ : ∃ speaker condition medium,
      op.deed = .speak speaker condition (.input medium) ∧ isMet condition p.stage.flag = true := by
    unfold Deed.takesInput at htakes
    split at htakes
    · next hdeed => exact ⟨_, _, _, hdeed, htakes⟩
    · cases htakes
  have hposition : p.position = q.position := by
    rw [← hplace]
    exact h.place
  have hoperation := h.operation hlayout p.position
  rw [hop, Option.map_some, Option.map_eq_some_iff] at hoperation
  obtain ⟨op', hop', hsame⟩ := hoperation
  obtain ⟨hspan, hforget⟩ : op'.span = op.span ∧ op'.deed.forget = op.deed.forget := Operation.mk.inj hsame
  have hdeed' : op'.deed = .speak speaker condition (.input medium) := by
    rw [hdeed] at hforget
    obtain ⟨a, ha, haforget⟩ := Deed.eq_of_forget_eq_speak hforget
    cases a <;> cases haforget
    exact ha
  have hnot : op.isBreakpoint = false := by
    unfold Operation.isBreakpoint
    rw [hdeed]
    rfl
  have hnot' : op'.isBreakpoint = false := by rw [← op'.isBreakpoint_forget, hsame, op.isBreakpoint_forget, hnot]
  have hstep' := step_of_quiet (hposition ▸ hop') hnot' (by rw [h.style hstyled]; exact hstyle)
  rw [← hposition] at hstep'
  refine Coupled.of_eq (couples_advance (g := f.reading R) p.position hplace ?_)
    (step_of_quiet hop hnot hstyle) hstep'
  unfold perform
  rw [hdeed, hdeed', hspan]
  apply coupled_bind
  refine couples_look h (fun _ _ => ?_) trivial
  apply coupled_bind
  apply coupled_get
  dsimp only
  rw [h.stage, if_pos hmet]
  apply couples_locating
  exact couples_performInput h trivial (fun _ _ _ => trivial)
    (couples_inputAsked medium h hdesk hline fun _ _ _ => trivial)

end PerformanceM

/-! ### Faithful scripts stay faithful -/

/-- The footing of a performance beside itself. -/
def Footing.self (layout : Script) : Footing :=
  ⟨layout, layout, Eq, Eq, True, True, Eq, id, Footing.eq_append⟩

theorem Footing.not_excuse_of_styled {f : Footing} (h : f.styled) (e : Fault) : ¬ f.Excuse e := by
  cases e with
  | error cause span => exact id
  | breakdown b => exact fun he => he.1 h

theorem abreast_self {p : Performance} (h : p.script.Faithful) : Abreast (Footing.self p.script.forget) p p :=
  ⟨rfl, rfl, h, h, rfl, rfl, rfl, fun _ => rfl, rfl, rfl, rfl, fun _ => ⟨rfl, rfl⟩⟩

/-- The script of the performance remembers nothing wrong. -/
abbrev Performance.Faithful (p : Performance) : Prop := p.script.Faithful

open Performance (Faithful)

/-- What is coupled with itself keeps a script faithful. -/
theorem faithful_of_couples {α : Type} {m : PerformanceM α} {p : Performance} {layout : Script}
    {Q : α → α → Performance → Performance → Prop} (hQ : ∀ a b r t, Q a b r t → Abreast (Footing.self layout) r t)
    (h : (Footing.self layout).Couples m m p p Q (Abreast (Footing.self layout))) :
    Ends m p (fun _ => Faithful) (fun _ => Faithful) :=
  (h.ends (Footing.not_excuse_of_styled trivial) (Footing.not_excuse_of_styled trivial)).mono
    (fun _ _ hr => (hQ _ _ _ _ hr).faithful) fun _ _ hr => hr.faithful

namespace ReportM

variable {p : Performance}

theorem faithful_stepForward (h : p.Faithful) : Ends stepForward p (fun _ => Faithful) (fun _ => Faithful) :=
  ends_ofScript (faithful_of_couples (fun _ _ _ _ hr => hr)
    (PerformanceM.couples_step (abreast_self h) rfl rfl (fun _ => rfl) fun hs => absurd trivial hs))

theorem faithful_performApart {op : Operation} (hop : op.Faithful) (h : p.Faithful) :
    Ends (performApart op) p (fun _ => Faithful) (fun _ => Faithful) :=
  faithful_of_couples (fun _ _ _ _ hr => hr)
    (PerformanceM.couples_perform (abreast_self h) hop hop rfl (fun _ => PerformanceM.records_nothing _ _)
      (fun _ => PerformanceM.records_nothing _ _) (fun _ => rfl) fun _ => ⟨rfl, rfl⟩)

/-- Every request keeps a script faithful. -/
theorem faithful_request (r : Request) (h : p.Faithful) :
    Ends r.perform p (fun _ => Faithful) (fun _ => Faithful) := by
  cases r with
  | step => exact faithful_stepForward h
  | run fuel =>
    exact (kept_runFrom (fun q hq => faithful_stepForward hq) fuel [] h).bind fun _ _ hq => ends_pure hq
  | event text e =>
    exact ends_reporting (ends_forM (fun op hop q hq => faithful_performApart (faithful_ofEvent hop) hq) h)
  | sentence text s speaker => exact ends_reporting (faithful_performApart (faithful_ofSentence _ s) h)
  | value text v speaker =>
    have hv := Expression.faithful_ofValue v
    have hevaluate : (Footing.self p.script.forget).Couples
        (PerformanceM.evaluate (Name.normalize speaker) (fun _ => pure ()) (Expression.ofValue v))
        (PerformanceM.evaluate (Name.normalize speaker) (fun _ => pure ()) (Expression.ofValue v)) p p _ _ :=
      PerformanceM.couples_evaluate (abreast_self h) hv hv rfl (PerformanceM.records_nothing _ _)
        (PerformanceM.records_nothing _ _) fun _ _ hr => hr
    refine Ends.bind (ends_reporting ?_) fun _ _ hq => ends_pure hq
    exact (faithful_of_couples (fun _ _ _ _ hr => hr.2.2.2) hevaluate).bind fun _ _ hq => ends_pure hq
  | inputStyle name =>
    show Ends (setInputStyle name) p _ _
    cases hname : InputDesk.ofName name p.streams.reader with
    | ok desk => exact ends_of_ok (t := { p with desk := desk }) (by unfold setInputStyle; rw [hname]) h
    | error b => exact ends_of_error (by unfold setInputStyle; rw [hname]) h
  | outputStyle name =>
    show Ends (setOutputStyle name) p _ _
    cases hname : OutputStyle.ofName name with
    | ok style => exact ends_of_ok (t := { p with style := style }) (by unfold setOutputStyle; rw [hname]) h
    | error b => exact ends_of_error (by unfold setOutputStyle; rw [hname]) h
  | direction d =>
    exact ends_bare
      (faithful_of_couples (fun _ _ _ _ hr => hr) (PerformanceM.couples_onStage d.perform (abreast_self h)))
  | change name f =>
    exact ends_bare (faithful_of_couples (fun _ _ _ _ hr => hr)
      (PerformanceM.couples_changeCharacter name f (abreast_self h) fun _ _ hr => hr))
  | flag b => exact ends_modify h
  | input medium =>
    refine Ends.bind (ends_bare ?_) fun _ _ hq => ends_pure hq
    exact faithful_of_couples (fun _ _ _ _ hr => hr.2) (PerformanceM.couples_input medium (abreast_self h) rfl)
  | stdin text => exact ends_modify h

end ReportM

theorem Performance.Reachable.faithful {source : List Char} {play : Play} {p : Performance}
    (h : p.Reachable source play) : p.script.Faithful := by
  induction h with
  | @start desk style streams p h =>
    rcases Performance.ofPlay_cases source play desk style streams with ⟨-, -, hstart⟩ | ⟨f, -, hfault⟩
    · rw [hstart] at h
      cases h
      exact Script.faithful_ofActs source play.acts
    · rw [hfault] at h
      cases h
  | ask r _ ih => exact (ReportM.faithful_request r ih).stateAfter
  | go n _ _ ih => exact ih

end Playhouse
