import Playhouse.Performance.Step
import Playhouse.Proofs.Directions
import Playhouse.Proofs.Remembering

/-!
# Playhouse.Proofs.Acting — what an operation does to a performance

`Performed p q` lists what performing one operation may have changed from `p` to `q`, and `Alike p q` says that
nothing has changed but what is printed and what is remembered. Main statement of this file: `ends_perform`. An
operation that fails with an error of the play leaves a performance alike, unless its user was asked for input:
each operation does all that can fail before it changes anything.
-/

namespace Playhouse

/-! ### Changes of a performance -/

/-- What one operation may do to a stage. -/
inductive Stage.Changed (s : Stage) : Stage → Prop
  | same : Changed s s
  | flag (b : Bool) : Changed s { s with flag := b }
  | character {n : String} (c : Character) : n ∈ s.names → Changed s (s.setCharacter n c)
  | direction {t : Stage} {d : Direction} : d.Moved s t → Changed s t

theorem Stage.Sound.changed {s t : Stage} (h : s.Sound) (hc : s.Changed t) : t.Sound := by
  cases hc with
  | same => exact h
  | flag b => exact ⟨h.cast_nodup, h.present_nodup, h.declared, h.opposites_eq⟩
  | character c hn =>
    have hnames : (s.setCharacter _ c).names = s.names := keys_tableSet hn
    refine ⟨?_, h.present_nodup, ?_, h.opposites_eq⟩
    · rw [hnames]
      exact h.cast_nodup
    · rw [hnames]
      exact h.declared
  | direction hd => exact moved_of (fun _ _ hs hn => hs.arrive hn) (fun _ n hs => hs.leave n) h hd

theorem Stage.Changed.names {s t : Stage} (h : s.Changed t) : t.names = s.names := by
  cases h with
  | same => rfl
  | flag b => rfl
  | character c hn => exact keys_tableSet hn
  | direction hd =>
    refine moved_of (I := fun u => u.names = s.names) (fun u n hu _ => ?_) (fun u n hu => ?_) rfl hd
    · rw [Stage.arrive_names]
      exact hu
    · unfold Stage.names Stage.leave at *
      rw [Stage.updateOpposites_cast]
      exact hu

namespace Performance

/-- The performance with other text on standard output. -/
abbrev printed (p : Performance) (out : String) : Performance :=
  { p with streams := { p.streams with out := out } }

/-- Both differ at most in what was printed and put out, and in what is remembered. -/
structure Alike (p q : Performance) : Prop where
  script : q.script.forget = p.script.forget
  stage : q.stage = p.stage
  position : q.position = p.position
  desk : q.desk = p.desk
  style : q.style = p.style
  stdin : q.streams.stdin = p.streams.stdin
  reader : q.streams.reader = p.streams.reader

/-- Both differ at most in that, and in what was read. -/
structure Fed (p q : Performance) : Prop where
  script : q.script.forget = p.script.forget
  stage : q.stage = p.stage
  position : q.position = p.position
  style : q.style = p.style

/-- What performing one operation may have changed from `p` to `q`. -/
structure Performed (p q : Performance) : Prop where
  script : q.script.forget = p.script.forget
  stage : p.stage.Changed q.stage
  position : q.position = p.position ∨
    ∃ target numeral n, PerformanceM.destination p.script p.position target numeral = .ok n ∧ q.position = n
  style : q.style = p.style

/-- What the failure of an operation leaves. An error of the play leaves everything alike, unless a user was
asked. -/
def Failed (p : Performance) (f : Fault) (q : Performance) : Prop :=
  p.Performed q ∧ (p.desk ≠ .interactive → (∃ cause span, f = .error cause span) → p.Alike q)

theorem Alike.refl (p : Performance) : p.Alike p := ⟨rfl, rfl, rfl, rfl, rfl, rfl, rfl⟩

theorem Alike.fed {p q : Performance} (h : p.Alike q) : p.Fed q := ⟨h.script, h.stage, h.position, h.style⟩

theorem Fed.performed {p q : Performance} (h : p.Fed q) : p.Performed q :=
  ⟨h.script, h.stage ▸ Stage.Changed.same, Or.inl h.position, h.style⟩

theorem Alike.print {p q : Performance} (h : p.Alike q) (out : String) :
    p.Alike (q.printed out) :=
  ⟨h.script, h.stage, h.position, h.desk, h.style, h.stdin, h.reader⟩

theorem Fed.aside {p q : Performance} (h : p.Fed q) (desk : InputDesk) (streams : Streams) :
    p.Fed { q with desk := desk, streams := streams } := ⟨h.script, h.stage, h.position, h.style⟩

theorem Performed.print {p q : Performance} (h : p.Performed q) (out : String) :
    p.Performed (q.printed out) :=
  ⟨h.script, h.stage, h.position, h.style⟩

theorem Fed.change {p q : Performance} (h : p.Fed q) {s : Stage} (hs : p.stage.Changed s) :
    p.Performed { q with stage := s } := ⟨h.script, hs, Or.inl h.position, h.style⟩

theorem Alike.failed {p q : Performance} (h : p.Alike q) (f : Fault) : p.Failed f q :=
  ⟨h.fed.performed, fun _ _ => h⟩

theorem Performed.failed {p q : Performance} (h : p.Performed q) (b : Breakdown) : p.Failed (.breakdown b) q :=
  ⟨h, fun _ hf => by obtain ⟨_, _, hf⟩ := hf; cases hf⟩

/-- Where an error is placed does not matter. -/
theorem Failed.locate {p q : Performance} {f : Fault} (h : p.Failed f q) (span : Span) :
    p.Failed (f.locate span) q := by
  refine ⟨h.1, fun hd hf => h.2 hd ?_⟩
  obtain ⟨cause, place, hf⟩ := hf
  cases f with
  | error c s => exact ⟨c, s, rfl⟩
  | breakdown b => cases hf

end Performance

namespace PerformanceM

open Performance

variable {p q : Performance} {E : Fault → Performance → Prop}

/-! ### Printing, looking and the stage -/

theorem ends_print (text : String) (h : p.Alike q) : Ends (print text) q (fun _ r => p.Alike r) E :=
  ends_modify (h.print _)

theorem ends_narrate_of {I : Performance → Prop} (text : String) (h : I q)
    (hprint : ∀ r out, I r → I (r.printed out)) :
    Ends (narrate text) q (fun _ => I) E := by
  unfold narrate
  apply ends_bind
  apply ends_get
  split
  · exact ends_modify (hprint q _ h)
  · exact ends_pure h

theorem ends_narrate (text : String) (h : p.Alike q) : Ends (narrate text) q (fun _ r => p.Alike r) E :=
  ends_narrate_of text h fun _ out hr => hr.print out

theorem ends_ofBreakdown {α : Type} {r : Except Breakdown α} {Q : α → Performance → Prop}
    (hok : ∀ a, r = .ok a → Q a q) (herror : ∀ b, E (.breakdown b) q) : Ends (ofBreakdown r) q Q E := by
  unfold ofBreakdown
  split
  · exact ends_pure (hok _ rfl)
  · exact ends_throw (herror _)

/-- A line about a number is printed if the style tells it. There may be no numeral for the number. -/
theorem ends_tell {I : Performance → Prop} {numeral : Except Breakdown String} (text : String → String) (h : I q)
    (hprint : ∀ r out, I r → I (r.printed out))
    (herror : ∀ b, E (.breakdown b) q) :
    Ends (do if (← get).style.narrates then printLine (text (← ofBreakdown numeral))) q (fun _ => I) E := by
  apply ends_bind
  apply ends_get
  split
  · apply ends_bind
    exact ends_ofBreakdown (fun a _ => ends_modify (hprint q _ h)) herror
  · exact ends_pure h

theorem ends_look {α : Type} {f : Stage → Except Fault α} {Q : α → Performance → Prop}
    (hok : ∀ a, f q.stage = .ok a → Q a q) (herror : ∀ e, f q.stage = .error e → E e q) : Ends (look f) q Q E := by
  cases h : f q.stage with
  | ok a => exact ends_of_ok (by unfold look; rw [h]) (hok a h)
  | error e => exact ends_of_error (by unfold look; rw [h]) (herror e h)

theorem ends_onStage {α : Type} {m : StageM α} {Q : α → Performance → Prop}
    (h : Ends m q.stage (fun a s => Q a { q with stage := s }) (fun e s => E e { q with stage := s })) :
    Ends (onStage m) q Q E := by
  cases hm : m q.stage with
  | ok a s => exact ends_of_ok (by unfold onStage; rw [hm]) (h.ok hm)
  | error e s => exact ends_of_error (by unfold onStage; rw [hm]) (h.error hm)

theorem ends_locating {α : Type} {m : PerformanceM α} {Q : α → Performance → Prop} (span : Span)
    (h : Ends m q Q (fun f r => E (f.locate span) r)) : Ends (locating span m) q Q E := by
  cases hm : m q with
  | ok a r => exact ends_of_ok (by unfold locating; rw [hm]) (h.ok hm)
  | error e r => exact ends_of_error (by unfold locating; rw [hm]) (h.error hm)

/-! ### Evaluation, and changes of characters -/

/-- In performances alike to `p`, `remember` keeps things that are like `a` but for what they remember, and does
nothing else. -/
def Keeper {α : Type} (forget : α → α) (p : Performance) (a : α) (remember : α → PerformanceM Unit) : Prop :=
  ∀ {a' q E}, forget a' = forget a → p.Alike q → Ends (remember a') q (fun _ r => p.Alike r) E

section Keeper

variable {remember : Action Expression → PerformanceM Unit} {comparison : Comparison} {words : List String}
  {x x' y : Expression}

theorem Keeper.first (h : Keeper Action.forget p (.question comparison words x y) remember) :
    Keeper Expression.forget p x fun x' => remember (.question comparison words x' y) := by
  intro x' r E hx' hr
  exact h (by simp only [Action.forget, Action.map, hx']) hr

/-- What is kept with the second expression holds what the first has worked out, not the first expression
itself. -/
theorem Keeper.second (h : Keeper Action.forget p (.question comparison words x y) remember)
    (hx : x'.forget = x.forget) :
    Keeper Expression.forget p y fun y' => remember (.question comparison words x' y') := by
  intro y' r E hy' hr
  exact h (by simp only [Action.forget, Action.map, hx, hy']) hr

theorem Keeper.assigned (h : Keeper Action.forget p (.assignment x) remember) :
    Keeper Expression.forget p x fun x' => remember (.assignment x') := by
  intro x' r E hx' hr
  exact h (by simp only [Action.forget, Action.map, hx']) hr

theorem Keeper.pushed (h : Keeper Action.forget p (.push x) remember) :
    Keeper Expression.forget p x fun x' => remember (.push x') := by
  intro x' r E hx' hr
  exact h (by simp only [Action.forget, Action.map, hx']) hr

end Keeper

/-- An evaluation changes at most what is remembered. -/
theorem ends_evaluate {speaker : String} {e : Expression} {remember : Expression → PerformanceM Unit}
    (h : p.Alike q) (hrem : Keeper Expression.forget p e remember) (herror : ∀ f r, p.Alike r → E f r) :
    Ends (evaluate speaker remember e) q (fun x r => p.Alike r ∧ x.2.forget = e.forget) E := by
  have hforget := forget_evaluate speaker q.stage e
  unfold evaluate
  apply ends_bind
  apply ends_get
  generalize e.evaluate speaker q.stage = x at hforget
  obtain ⟨outcome, e'⟩ := x
  refine (hrem hforget h).bind fun _ r hr => ?_
  cases outcome with
  | ok n => exact ends_pure ⟨hr, hforget⟩
  | error f => exact ends_throw (herror f r hr)

theorem character_ok {s : Stage} {n : String} {c : Character} (h : s.character n = .ok c) : n ∈ s.names := by
  unfold Stage.character at h
  cases hl : s.cast.lookup n with
  | some c' => exact mem_keys_iff_lookup.mpr ⟨c', hl⟩
  | none => rw [hl] at h; cases h

theorem character_of_mem {s : Stage} {n : String} (h : n ∈ s.names) : ∃ c, s.character n = .ok c := by
  obtain ⟨c, hc⟩ := mem_keys_iff_lookup.mp h
  unfold Stage.character
  rw [hc]
  exact ⟨c, rfl⟩

/-- A character is changed, or nothing is. -/
theorem ends_changeCharacter (n : String) (f : Character → Except Fault Character) :
    Ends (changeCharacter n f) q
      (fun _ r => ∃ c, n ∈ q.stage.names ∧ r = { q with stage := q.stage.setCharacter n c })
      (fun e r => r = q ∧ (q.stage.character n = .error e ∨ ∃ c, f c = .error e)) := by
  unfold changeCharacter
  apply ends_bind
  refine ends_look (fun c hc => ?_) (fun e he => ⟨rfl, Or.inl he⟩)
  cases hf : f c with
  | ok c' => exact ends_modify ⟨c', character_ok hc, rfl⟩
  | error e => exact ends_throw ⟨rfl, Or.inr ⟨c, hf⟩⟩

/-- Who is changed held something before, of which this was made. -/
theorem ends_changed {f : Character → Except Fault Character} (name : String) :
    Ends (changeCharacter name f) q (fun _ r => ∃ c c', q.stage.character name = .ok c ∧ f c = .ok c' ∧
      r = { q with stage := q.stage.setCharacter name c' }) (fun _ _ => True) := by
  unfold changeCharacter
  apply ends_bind
  refine ends_look (fun c hc => ?_) fun _ _ => trivial
  cases hf : f c with
  | ok c' => exact ends_modify ⟨c, c', hc, hf, rfl⟩
  | error e => exact ends_throw trivial

/-! ### Input and output -/

/-- `I` does not depend on what is still to be read, nor on what is held of it. -/
structure Feeding (I : Performance → Prop) : Prop where
  read : ∀ {q} (rest : List Char), I q → I { q with streams := { q.streams with stdin := rest } }
  hold : ∀ {q} (cs : List Char), I q → I { q with desk := .basic cs }
  reader : ∀ {q} (held : Option Char) (rest : List Char), I q →
    I { q with desk := .reader held, streams := { q.streams with reader := some rest } }

theorem feeding_fed (p : Performance) : Feeding p.Fed where
  read _ h := h.aside _ _
  hold cs h := h.aside (.basic cs) _
  reader held _ h := h.aside (.reader held) _

section Feeding

variable {I : Performance → Prop} (hI : Feeding I)

include hI

theorem ends_readLine (h : I q) : Ends readLine q (fun _ => I) E := by
  unfold readLine
  apply ends_bind
  apply ends_get
  apply ends_bind
  exact ends_set (ends_pure (hI.read _ h))

theorem ends_hold (cs : List Char) (h : I q) : Ends (hold cs) q (fun _ => I) E := ends_modify (hI.hold cs h)

theorem ends_setReader (rest : List Char) (held : Option Char) (h : I q) :
    Ends (setReader rest held) q (fun _ => I) E := ends_modify (hI.reader held rest h)

theorem ends_presentLine (held : List Char) (h : I q) : Ends (presentLine held) q (fun _ => I) E := by
  unfold presentLine
  split
  · refine (ends_readLine hI h).bind fun line r hr => ?_
    exact (ends_hold hI line hr).bind fun _ _ ht => ends_pure ht
  · exact ends_pure h

/-- From standard input and from the reader only breakdowns come. -/
theorem ends_lineNumber (held : List Char) (h : I q) :
    Ends (lineNumber held) q (fun _ => I) (fun f r => I r ∧ ∃ b, f = .breakdown b) := by
  unfold lineNumber
  refine (ends_presentLine hI held h).bind fun line r hr => ?_
  dsimp only
  generalize List.takeWhile Text.isDigitChar _ = digits
  by_cases hdigits : digits.isEmpty = true
  · rw [if_pos hdigits]
    exact ends_pure hr
  · rw [if_neg hdigits]
    refine (ends_hold hI _ hr).bind fun _ t ht => ?_
    apply ends_bind
    exact ends_ofBreakdown (fun n _ => ends_pure ht) (fun b => ⟨ht, b, rfl⟩)

theorem ends_lineCharacter (held : List Char) (h : I q) : Ends (lineCharacter held) q (fun _ => I) E := by
  unfold lineCharacter
  refine (ends_presentLine hI held h).bind fun line r hr => ?_
  split
  · exact ends_pure hr
  · exact (ends_hold hI _ hr).bind fun _ t ht => ends_pure ht

theorem ends_readerNumber (held : Option Char) (h : I q) :
    Ends (readerNumber held) q (fun _ => I) (fun f r => I r ∧ ∃ b, f = .breakdown b) := by
  unfold readerNumber
  apply ends_bind
  apply ends_get
  split
  · exact ends_pure h
  · split
    · refine (ends_setReader hI _ _ h).bind fun _ r hr => ?_
      exact ends_ofBreakdown (fun n _ => hr) (fun b => ⟨hr, b, rfl⟩)
    · exact (ends_setReader hI _ _ h).bind fun _ r hr => ends_pure hr

theorem ends_readerCharacter (held : Option Char) (h : I q) : Ends (readerCharacter held) q (fun _ => I) E := by
  unfold readerCharacter
  apply ends_bind
  apply ends_get
  split
  · exact ends_pure h
  · exact (ends_setReader hI _ _ h).bind fun _ r hr => ends_pure hr

end Feeding

theorem ends_ask (prompt : String) (h : p.Fed q) (herror : ∀ f r, p.Fed r → E f r) :
    Ends (ask prompt) q (fun _ r => p.Fed r) E := by
  unfold ask
  apply ends_bind
  apply ends_modify
  refine (ends_readLine (feeding_fed p) (h.aside q.desk _)).bind fun line r hr => ?_
  dsimp only
  split
  · exact ends_bind (ends_throw (herror _ r hr))
  · exact ends_pure hr

theorem ends_askNumber (h : p.Fed q) : Ends askNumber q (fun _ r => p.Fed r) (fun _ r => p.Fed r) := by
  unfold askNumber
  refine (ends_ask _ h fun _ _ hr => hr).bind fun line r hr => ?_
  split
  · exact ends_pure hr
  · exact ends_throw hr

theorem ends_askCharacter (h : p.Fed q) : Ends askCharacter q (fun _ r => p.Fed r) (fun _ r => p.Fed r) := by
  unfold askCharacter
  refine (ends_ask _ h fun _ _ hr => hr).bind fun line r hr => ?_
  split
  · exact ends_pure hr
  · exact ends_pure hr
  · exact ends_pure hr

/-- Reading changes nothing but the input, and raises an error of the play only if the user was asked. -/
theorem ends_input (medium : Medium) (h : p.Fed q) :
    Ends (input medium) q (fun _ r => p.Fed r)
      (fun f r => p.Fed r ∧ (q.desk ≠ .interactive → ∃ b, f = .breakdown b)) := by
  unfold input
  apply ends_bind
  apply ends_get
  split
  · exact (ends_lineNumber (feeding_fed p) _ h).mono (fun _ _ hr => hr) (fun _ _ hf => ⟨hf.1, fun _ => hf.2⟩)
  · exact ends_lineCharacter (feeding_fed p) _ h
  · next hdesk => exact (ends_askNumber h).mono (fun _ _ hr => hr) (fun _ _ hf => ⟨hf, fun hd => absurd hdesk hd⟩)
  · next hdesk =>
    exact (ends_askCharacter h).mono (fun _ _ hr => hr) (fun _ _ hf => ⟨hf, fun hd => absurd hdesk hd⟩)
  · exact (ends_readerNumber (feeding_fed p) _ h).mono (fun _ _ hr => hr) (fun _ _ hf => ⟨hf.1, fun _ => hf.2⟩)
  · exact ends_readerCharacter (feeding_fed p) _ h

theorem ends_utter (u : Utterance) (h : p.Alike q) : Ends (utter u) q (fun _ r => p.Alike r) E :=
  ends_modify ⟨h.script, h.stage, h.position, h.desk, h.style, h.stdin, h.reader⟩

theorem ends_outputNumber (n : Int) (h : p.Alike q) :
    Ends (outputNumber n) q (fun _ r => p.Alike r) (fun _ r => p.Alike r) := by
  unfold outputNumber
  generalize Number.numeral n = numeral
  apply ends_bind
  refine ends_ofBreakdown (fun text _ => ?_) (fun _ => h)
  apply ends_bind
  apply ends_get
  dsimp only
  split
  · exact (ends_print _ h).bind fun _ _ hr => ends_utter _ hr
  · exact (ends_print _ h).bind fun _ _ hr => ends_utter _ hr

theorem ends_characterCode (n : Int) (h : p.Alike q) :
    Ends (characterCode n) q (fun _ r => p.Alike r) (fun _ r => p.Alike r) := by
  unfold characterCode
  dsimp only
  split
  · exact ends_bind (ends_throw h)
  · split
    · exact ends_bind (ends_throw h)
    · exact ends_pure h

theorem ends_outputCharacter (n : Int) (h : p.Alike q) :
    Ends (outputCharacter n) q (fun _ r => p.Alike r) (fun _ r => p.Alike r) := by
  unfold outputCharacter
  refine (ends_characterCode n h).bind fun code r hr => ?_
  apply ends_bind
  apply ends_get
  dsimp only
  split
  · exact (ends_print _ hr).bind fun _ _ ht => ends_utter _ ht
  · split
    · exact (ends_print _ hr).bind fun _ _ ht => ends_utter _ ht
    · exact ends_bind (ends_throw hr)

/-- What is put out changes nothing. A code that no character has is found before anything is printed. -/
theorem ends_output (medium : Medium) (n : Int) (h : p.Alike q) :
    Ends (output medium n) q (fun _ r => p.Alike r) (fun _ r => p.Alike r) := by
  unfold output
  split
  · exact ends_outputNumber n h
  · exact ends_outputCharacter n h

/-! ### Actions -/

theorem ends_question {speaker : String} {comparison : Comparison} {words : List String} {x y : Expression}
    {remember : Action Expression → PerformanceM Unit}
    (hrem : Keeper Action.forget p (.question comparison words x y) remember) :
    Ends (performAction speaker remember (.question comparison words x y)) p (fun _ q => p.Performed q)
      (fun f q => p.Failed f q) := by
  have herror : ∀ f r, p.Alike r → p.Failed f r := fun f r hr => hr.failed f
  unfold performAction
  refine (ends_evaluate (Alike.refl p) hrem.first herror).bind ?_
  rintro ⟨m, x'⟩ q ⟨hq, hx'⟩
  refine (ends_evaluate hq (hrem.second hx') herror).bind ?_
  rintro ⟨n, y'⟩ r ⟨hr, -⟩
  refine (ends_narrate _ hr).bind fun _ t ht => ?_
  apply ends_modify
  rw [ht.stage]
  exact ht.fed.change (Stage.Changed.flag _)

/-- The other one, and a value worked out for that character, who takes it by `f`. This is what an assignment and a
push have in common. -/
theorem ends_giving {speaker : String} {x : Expression} (remember : Expression → PerformanceM Unit)
    (f : Int → Character → Character) (text : String → String → String)
    (hrem : Keeper Expression.forget p x remember) :
    Ends (do
        let other ← look (·.opposite speaker)
        let (n, _) ← evaluate speaker remember x
        changeCharacter other fun c => .ok (f n c)
        if (← get).style.narrates then printLine (text other (← ofBreakdown (Number.numeral n)))) p
      (fun _ q => p.Performed q) (fun f q => p.Failed f q) := by
  apply ends_bind
  refine ends_look (fun other _ => ?_) (fun e _ => (Alike.refl p).failed e)
  refine (ends_evaluate (Alike.refl p) hrem fun f r hr => hr.failed f).bind ?_
  rintro ⟨n, x'⟩ q ⟨hq, -⟩
  apply ends_bind
  refine (ends_changeCharacter other _).mono ?_ ?_
  · rintro _ r ⟨c, hc, rfl⟩
    rw [hq.stage] at hc
    have hr : p.Performed { q with stage := q.stage.setCharacter other c } := by
      rw [hq.stage]
      exact hq.fed.change (Stage.Changed.character c hc)
    exact ends_tell _ hr (fun _ out ht => ht.print out) fun b => hr.failed b
  · rintro e r ⟨rfl, -⟩
    exact hq.failed e

/-- The other one is looked for before anything is read, and is there to take what was read. -/
theorem ends_performInput {speaker : String} {remember : Action Expression → PerformanceM Unit} {medium : Medium}
    (hs : p.stage.Sound) :
    Ends (performAction speaker remember (.input medium)) p (fun _ q => p.Performed q)
      (fun f q => p.Failed f q) := by
  unfold performAction
  apply ends_bind
  refine ends_look (fun other hother => ?_) (fun e _ => (Alike.refl p).failed e)
  -- the stage is sound, so that this one is declared and nothing can fail any more once the input is read
  have hmem : other ∈ p.stage.names := hs.declared other (hs.opposite_mem hother).1
  apply ends_bind
  refine (ends_input medium (Alike.refl p).fed).mono (fun n q hq => ?_) ?_
  · have hdone : ∀ r, p.Fed r → Ends (changeCharacter other fun c => .ok { c with value := n }) r
        (fun _ t => p.Performed t) (fun f t => p.Failed f t) := by
      intro r hr
      refine (ends_changeCharacter other _).mono ?_ ?_
      · rintro _ t ⟨c, hc, rfl⟩
        rw [hr.stage]
        exact hr.change (Stage.Changed.character c hmem)
      · rintro e t ⟨rfl, he | ⟨c, hc⟩⟩
        · obtain ⟨c, hc⟩ := character_of_mem hmem
          rw [hr.stage, hc] at he
          cases he
        · cases hc
    apply ends_bind
    apply ends_get
    dsimp only
    generalize Number.numeral n = numeral
    split
    · refine ends_bind (ends_ofBreakdown (fun text _ => ?_) fun b => hq.performed.failed b)
      exact ends_bind (ends_modify (hdone _ (hq.aside q.desk _)))
    · exact hdone q hq
  · rintro f q ⟨hq, hb⟩
    refine ⟨hq.performed, fun hd hf => ?_⟩
    obtain ⟨b, rfl⟩ := hb hd
    obtain ⟨_, _, hf⟩ := hf
    cases hf

theorem ends_performAction {speaker : String} {a : Action Expression}
    {remember : Action Expression → PerformanceM Unit} (hs : p.stage.Sound)
    (hrem : Keeper Action.forget p a remember) :
    Ends (performAction speaker remember a) p (fun _ q => p.Performed q) (fun f q => p.Failed f q) := by
  cases a with
  | question comparison words x y => exact ends_question hrem
  | assignment x =>
    exact ends_giving _ (fun n c => { c with value := n }) (fun other numeral => other ++ " set to " ++ numeral)
      hrem.assigned
  | input medium => exact ends_performInput hs
  | output medium =>
    unfold performAction
    apply ends_bind
    refine ends_look (fun other _ => ?_) (fun e _ => (Alike.refl p).failed e)
    apply ends_bind
    refine ends_look (fun c _ => ?_) (fun e _ => (Alike.refl p).failed e)
    refine (ends_narrate _ (Alike.refl p)).bind fun _ q hq => ?_
    exact (ends_output medium c.value hq).mono (fun _ _ hr => hr.fed.performed) (fun f _ hr => hr.failed f)
  | push x =>
    exact ends_giving _ (fun n c => c.push n) (fun other numeral => other ++ " pushed " ++ numeral) hrem.pushed
  | pop recalled =>
    unfold performAction
    apply ends_bind
    refine ends_look (fun other _ => ?_) (fun e _ => (Alike.refl p).failed e)
    apply ends_bind
    refine (ends_changeCharacter other _).mono ?_ ?_
    · rintro _ q ⟨c, hc, rfl⟩
      have hq : p.Performed { p with stage := p.stage.setCharacter other c } :=
        (Alike.refl p).fed.change (Stage.Changed.character c hc)
      exact ends_narrate_of _ hq fun _ out hr => hr.print out
    · rintro e q ⟨rfl, -⟩
      exact (Alike.refl _).failed e
  | goto target numeral => exact ends_pure (Alike.refl p).fed.performed

/-! ### Jumps and sentences -/

/-- Only the entries of a script matter to a jump. -/
theorem destination_congr {s t : Script} {target : Target} {numeral : String} (h : s.acts = t.acts)
    (position : Int) :
    destination s position target numeral = destination t position target numeral := by
  unfold destination Script.act? Script.actAt?
  rw [h]

/-- A jump moves to its destination, or changes nothing. -/
theorem ends_jump (target : Target) (numeral : String) :
    Ends (jump target numeral) p
      (fun _ q => ∃ n r, destination p.script p.position target numeral = .ok n ∧ p.Alike r ∧
        q = { r with position := n })
      (fun f q => destination p.script p.position target numeral = .error f ∧ p.Alike q) := by
  have hnarrate : Ends (narrate ("Jumping to " ++ target.text ++ " " ++ numeral)) p
      (fun _ q => p.Alike q ∧ q.script = p.script) (fun _ _ => False) :=
    ends_narrate_of _ ⟨Alike.refl p, rfl⟩ fun _ out hr => ⟨hr.1.print out, hr.2⟩
  unfold jump
  apply ends_bind
  refine hnarrate.mono (fun _ q hq => ?_) (fun _ _ hf => hf.elim)
  apply ends_bind
  apply ends_get
  rw [show destination q.script q.position target numeral = destination p.script p.position target numeral by
    rw [hq.2, hq.1.position]]
  cases hd : destination p.script p.position target numeral with
  | ok n => exact ends_set ⟨n, q, rfl, hq.1, rfl⟩
  | error f => exact ends_throw ⟨rfl, hq.1⟩

theorem ends_performSentence {span : Span} {speaker : String} {condition : Option Condition}
    {a : Action Expression} {remember : Action Expression → PerformanceM Unit} (hs : p.stage.Sound)
    (hrem : Keeper Action.forget p a remember) :
    Ends (performSentence span remember speaker condition a) p (fun _ q => p.Performed q)
      (fun f q => p.Failed f q) := by
  unfold performSentence
  apply ends_bind
  refine ends_look (fun _ _ => ?_) (fun e _ => (Alike.refl p).failed e)
  apply ends_bind
  apply ends_get
  dsimp only
  split
  · split
    · next target numeral =>
      refine (ends_jump target numeral).mono ?_ ?_
      · rintro _ q ⟨n, r, hn, hr, rfl⟩
        exact ⟨hr.script, hr.stage ▸ Stage.Changed.same, Or.inr ⟨target, numeral, n, hn, rfl⟩, hr.style⟩
      · rintro f q ⟨-, hq⟩
        exact hq.failed f
    · apply ends_locating
      exact (ends_performAction hs hrem).mono (fun _ _ h => h) fun f q h => h.locate span
  · exact ends_narrate_of _ (Alike.refl p).fed.performed fun _ out hr => hr.print out

/-! ### Operations -/

/-- A direction fails with an error of the play only before anybody moves. -/
theorem ends_direction (d : Direction) (text : String) (span : Span) :
    Ends (locating span do narrate text; onStage d.perform) p (fun _ q => p.Performed q)
      (fun f q => p.Failed f q) := by
  apply ends_locating
  refine (ends_narrate text (Alike.refl p)).bind fun _ q hq => ?_
  apply ends_onStage
  rw [hq.stage]
  refine (d.ends_perform p.stage).mono (fun _ s hs => hq.fed.change (Stage.Changed.direction hs)) ?_
  rintro e s (⟨rfl, -⟩ | ⟨⟨b, rfl⟩, hms⟩)
  · have hback : p.Alike { q with stage := p.stage } :=
      ⟨hq.script, rfl, hq.position, hq.desk, hq.style, hq.stdin, hq.reader⟩
    exact hback.failed _
  · exact (hq.fed.change (Stage.Changed.direction (d := d) (Or.inr hms))).failed b

theorem ends_perform {op : Operation} {remember : Action Expression → PerformanceM Unit} (hs : p.stage.Sound)
    (hrem : ∀ {speaker condition a}, op.deed = .speak speaker condition a → Keeper Action.forget p a remember) :
    Ends (perform remember op) p (fun _ q => p.Performed q) (fun f q => p.Failed f q) := by
  unfold perform
  cases hdeed : op.deed with
  | enter names => exact ends_direction (.enter names) _ op.span
  | exit name => exact ends_direction (.exit name) _ op.span
  | exeunt names => exact ends_direction (.exeunt names) _ op.span
  | exeuntAll => exact ends_direction .exeuntAll _ op.span
  | breakpoint => exact ends_pure (Alike.refl p).fed.performed
  | speak speaker condition a => exact ends_performSentence hs (hrem hdeed)

end PerformanceM

end Playhouse
