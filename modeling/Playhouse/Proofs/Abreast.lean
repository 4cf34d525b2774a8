import Playhouse.Proofs.Acting
import Playhouse.Proofs.Coupled
import Playhouse.Proofs.Faithful

/-!
# Playhouse.Proofs.Abreast — two performances side by side

`Abreast f p q` says that two performances are at the same point, up to what the footing `f` leaves open: the
position and the input may be related in some other way than being the same, the styles of output may differ, and
so may what was printed. The scripts may differ too, but for jumps the acts have to be laid out alike. Performances
that are abreast stay so whatever operation both perform, and it ends in the same way in both. The only excuse is
that one of them prints what the other need not print, and finds that it cannot be printed. Main statement of this
file: `couples_perform`.
-/

namespace Playhouse

/-! ### What there may be no text for -/

/-- The breakdown comes from something that cannot be printed: a number with too many digits, or half of a
character. -/
def Breakdown.unprintable : Breakdown → Bool
  | numeralTooLong | unencodable _ => true
  | _ => false

theorem Number.unprintable_of_numeral {n : Int} {b : Breakdown} (h : Number.numeral n = .error b) :
    b.unprintable = true := by
  unfold Number.numeral at h
  generalize Number.numeralBound = bound at h
  split at h
  · cases h
  · cases h
    rfl

/-! ### Footings -/

/-- What two performances have in common. -/
structure Footing where
  /-- The script of the one with nothing remembered. -/
  layout : Script
  /-- The script of the other with nothing remembered. -/
  layout' : Script
  place : Int → Int → Prop
  stdin : List Char → List Char → Prop
  /-- Both have the same style of output. -/
  styled : Prop
  /-- What both have printed is related. -/
  aloud : Prop
  printed : String → String → Prop
  styled_of_aloud : aloud → styled
  /-- Both may go on with the same. -/
  printed_append : ∀ {a b} text, printed a b → printed (a ++ text) (b ++ text)

namespace Footing

/-- What is the same stays the same when both go on alike. -/
theorem eq_append {a b : String} (text : String) (h : a = b) : a ++ text = b ++ text := congrArg (· ++ text) h

/-- The footing with another relation between what is still to be read. -/
def reading (f : Footing) (R : List Char → List Char → Prop) : Footing := { f with stdin := R }

theorem reading_eq {f : Footing} (h : f.stdin = Eq) : f.reading Eq = f := by
  unfold reading
  rw [← h]

/-- Only performances of different styles are excused, and only for what cannot be printed. -/
def Excuse (f : Footing) : Fault → Prop
  | .error _ _ => False
  | .breakdown b => ¬ f.styled ∧ b.unprintable = true

/-- Two steps end alike, unless that is excused. -/
abbrev Couples {α β : Type} (f : Footing) (m : PerformanceM α) (m' : PerformanceM β) (p q : Performance)
    (Q : α → β → Performance → Performance → Prop) (E : Performance → Performance → Prop) : Prop :=
  Coupled m m' p q Q E f.Excuse f.Excuse

end Footing

/-- Both performances are at the same point, on the footing `f`. -/
structure Abreast (f : Footing) (p q : Performance) : Prop where
  script : p.script.forget = f.layout
  script' : q.script.forget = f.layout'
  faithful : p.script.Faithful
  faithful' : q.script.Faithful
  stage : q.stage = p.stage
  place : f.place p.position q.position
  desk : q.desk = p.desk
  style : f.styled → q.style = p.style
  stdin : f.stdin p.streams.stdin q.streams.stdin
  reader : q.streams.reader = p.streams.reader
  uttered : q.uttered = p.uttered
  printed : f.aloud → f.printed p.streams.out q.streams.out ∧ q.streams.err = p.streams.err

namespace Abreast

variable {f : Footing} {p q : Performance}

theorem record (h : Abreast f p q) {s s' : Script} (hs : s.Faithful) (hs' : s'.Faithful)
    (hlayout : s.forget = f.layout) (hlayout' : s'.forget = f.layout') :
    Abreast f { p with script := s } { q with script := s' } :=
  ⟨hlayout, hlayout', hs, hs', h.stage, h.place, h.desk, h.style, h.stdin, h.reader, h.uttered, h.printed⟩

theorem restage (h : Abreast f p q) (s : Stage) : Abreast f { p with stage := s } { q with stage := s } :=
  ⟨h.script, h.script', h.faithful, h.faithful', rfl, h.place, h.desk, h.style, h.stdin, h.reader,
    h.uttered, h.printed⟩

theorem move (h : Abreast f p q) {m n : Int} (hplace : f.place m n) :
    Abreast f { p with position := m } { q with position := n } :=
  ⟨h.script, h.script', h.faithful, h.faithful', h.stage, hplace, h.desk, h.style, h.stdin, h.reader, h.uttered,
    h.printed⟩

theorem print (h : Abreast f p q) (text : String) :
    Abreast f (p.printed (p.streams.out ++ text)) (q.printed (q.streams.out ++ text)) := by
  refine ⟨h.script, h.script', h.faithful, h.faithful', h.stage, h.place, h.desk, h.style, h.stdin,
    h.reader, h.uttered, fun haloud => ?_⟩
  obtain ⟨hout, herr⟩ := h.printed haloud
  exact ⟨f.printed_append text hout, herr⟩

/-- Performances of different styles may print what they like. -/
theorem printApart (h : Abreast f p q) (hstyled : ¬ f.styled) (out out' : String) :
    Abreast f (p.printed out) (q.printed out') :=
  ⟨h.script, h.script', h.faithful, h.faithful', h.stage, h.place, h.desk, h.style, h.stdin, h.reader, h.uttered,
    fun haloud => absurd (f.styled_of_aloud haloud) hstyled⟩

theorem utter (h : Abreast f p q) (u : Utterance) :
    Abreast f { p with uttered := u :: p.uttered } { q with uttered := u :: q.uttered } :=
  ⟨h.script, h.script', h.faithful, h.faithful', h.stage, h.place, h.desk, h.style, h.stdin, h.reader,
    congrArg (u :: ·) h.uttered, h.printed⟩

theorem hold (h : Abreast f p q) (desk : InputDesk) : Abreast f { p with desk := desk } { q with desk := desk } :=
  ⟨h.script, h.script', h.faithful, h.faithful', h.stage, h.place, rfl, h.style, h.stdin, h.reader,
    h.uttered, h.printed⟩

theorem read (h : Abreast f p q) {R : List Char → List Char → Prop} {rest rest' : List Char}
    (hrest : R rest rest') :
    Abreast (f.reading R) { p with streams := { p.streams with stdin := rest } }
      { q with streams := { q.streams with stdin := rest' } } :=
  ⟨h.script, h.script', h.faithful, h.faithful', h.stage, h.place, h.desk, h.style, hrest, h.reader,
    h.uttered, h.printed⟩

theorem readReader (h : Abreast f p q) (desk : InputDesk) (rest : Option (List Char)) :
    Abreast f { p with desk := desk, streams := { p.streams with reader := rest } }
      { q with desk := desk, streams := { q.streams with reader := rest } } :=
  ⟨h.script, h.script', h.faithful, h.faithful', h.stage, h.place, rfl, h.style, h.stdin, rfl,
    h.uttered, h.printed⟩

end Abreast

namespace PerformanceM

open Number

variable {f : Footing} {p q : Performance} {E : Performance → Performance → Prop}

/-! ### Printing -/

/-- Where the style decides, performances of the same style do the same. -/
theorem couples_ite {α β : Type} {told untold : PerformanceM α} {told' untold' : PerformanceM β}
    {Q : α → β → Performance → Performance → Prop} (h : Abreast f p q) (htold : f.Couples told told' p q Q E)
    (huntold : f.Couples untold untold' p q Q E) (hleft : ¬ f.styled → f.Couples told untold' p q Q E)
    (hright : ¬ f.styled → f.Couples untold told' p q Q E) :
    f.Couples (if p.style.narrates then told else untold) (if q.style.narrates then told' else untold')
      p q Q E := by
  have hdiffer : p.style.narrates ≠ q.style.narrates → ¬ f.styled := fun hne hs => hne (by rw [h.style hs])
  by_cases hp : p.style.narrates = true
  · by_cases hq : q.style.narrates = true
    · rw [if_pos hp, if_pos hq]
      exact htold
    · rw [if_pos hp, if_neg hq]
      exact hleft (hdiffer (by rw [hp]; exact fun h => hq h.symm))
  · by_cases hq : q.style.narrates = true
    · rw [if_neg hp, if_pos hq]
      exact hright (hdiffer (by rw [hq]; exact hp))
    · rw [if_neg hp, if_neg hq]
      exact huntold

theorem couples_narrate (text : String) (h : Abreast f p q) :
    f.Couples (narrate text) (narrate text) p q (fun _ _ => Abreast f) E := by
  unfold narrate
  apply coupled_bind
  apply coupled_get
  apply couples_ite h
  · exact coupled_modify (h.print _)
  · exact coupled_pure h
  · exact fun hs => .ok rfl rfl (h.printApart hs _ q.streams.out)
  · exact fun hs => .ok rfl rfl (h.printApart hs p.streams.out _)

theorem couples_ofBreakdown {α : Type} (r : Except Breakdown α) {Q : α → α → Performance → Performance → Prop}
    (hok : ∀ a, r = .ok a → Q a a p q) (herror : E p q) : f.Couples (ofBreakdown r) (ofBreakdown r) p q Q E := by
  cases r with
  | ok a => exact coupled_pure (hok a rfl)
  | error b => exact coupled_throw herror

/-- A line about a number, if the style tells it, and what follows that line. -/
theorem couples_tell {α β : Type} {k : PerformanceM α} {k' : PerformanceM β}
    {Q : α → β → Performance → Performance → Prop} {numeral : Except Breakdown String} (text : String → String)
    (h : Abreast f p q) (hnumeral : ∀ b, numeral = .error b → b.unprintable = true)
    (hk : ∀ r t, Abreast f r t → f.Couples k k' r t Q E) (herror : E p q) :
    f.Couples (if p.style.narrates then (do printLine (text (← ofBreakdown numeral)); k) else k)
      (if q.style.narrates then (do printLine (text (← ofBreakdown numeral)); k') else k') p q Q E := by
  apply couples_ite h
  · apply coupled_bind
    refine couples_ofBreakdown numeral (fun a _ => ?_) herror
    exact coupled_bind (coupled_modify (hk _ _ (h.print _)))
  · exact hk p q h
  · intro hs
    cases numeral with
    | error b => exact .left rfl ⟨hs, hnumeral b rfl⟩
    | ok a => exact (hk _ _ (h.printApart hs _ q.streams.out)).of_eq rfl rfl
  · intro hs
    cases numeral with
    | error b => exact .right rfl ⟨hs, hnumeral b rfl⟩
    | ok a => exact (hk _ _ (h.printApart hs p.streams.out _)).of_eq rfl rfl

/-- A line about a number, if the style tells it. -/
theorem couples_tellLast {numeral : Except Breakdown String} (text : String → String) (h : Abreast f p q)
    (hnumeral : ∀ b, numeral = .error b → b.unprintable = true) (herror : E p q) :
    f.Couples (do if (← get).style.narrates then printLine (text (← ofBreakdown numeral)))
      (do if (← get).style.narrates then printLine (text (← ofBreakdown numeral))) p q
        (fun _ _ => Abreast f) E := by
  have hlast : ∀ r : Performance, (do if (← get).style.narrates then printLine (text (← ofBreakdown numeral)) :
      PerformanceM Unit) r = (if r.style.narrates then (do printLine (text (← ofBreakdown numeral)); pure ())
        else pure () : PerformanceM Unit) r := by
    intro r
    show (if r.style.narrates then ofBreakdown numeral >>= fun a => printLine (text a)
      else pure () : PerformanceM Unit) r = _
    by_cases hr : r.style.narrates = true
    · rw [if_pos hr, if_pos hr]
      cases numeral <;> rfl
    · rw [if_neg hr, if_neg hr]
  exact (couples_tell text h hnumeral (fun r t hrt => coupled_pure hrt) herror).of_eq (hlast p) (hlast q)

/-! ### The stage -/

theorem couples_look {α : Type} {g : Stage → Except Fault α} {Q : α → α → Performance → Performance → Prop}
    (h : Abreast f p q) (hok : ∀ a, g p.stage = .ok a → Q a a p q) (herror : E p q) :
    f.Couples (look g) (look g) p q Q E := by
  cases hg : g p.stage with
  | ok a => exact .ok (by unfold look; rw [hg]) (by unfold look; rw [h.stage, hg]) (hok a hg)
  | error e => exact .error (by unfold look; rw [hg]) (by unfold look; rw [h.stage, hg]) herror

theorem couples_onStage {α : Type} (m : StageM α) (h : Abreast f p q) :
    f.Couples (onStage m) (onStage m) p q (fun _ _ => Abreast f) (Abreast f) := by
  cases hm : m p.stage with
  | ok a s => exact .ok (by unfold onStage; rw [hm]) (by unfold onStage; rw [h.stage, hm]) (h.restage s)
  | error e s => exact .error (by unfold onStage; rw [hm]) (by unfold onStage; rw [h.stage, hm]) (h.restage s)

/-- What excuses a failure is never placed. -/
theorem couples_locating {α β : Type} {m : PerformanceM α} {m' : PerformanceM β}
    {Q : α → β → Performance → Performance → Prop} (span : Span) (h : f.Couples m m' p q Q E) :
    f.Couples (locating span m) (locating span m') p q Q E := by
  have hexcuse : ∀ e, f.Excuse e → f.Excuse (e.locate span) := by
    intro e he
    cases e with
    | error cause place => exact he.elim
    | breakdown b => exact he
  cases h with
  | ok hm hm' hQ => exact .ok (by unfold locating; rw [hm]) (by unfold locating; rw [hm']) hQ
  | error hm hm' hE => exact .error (by unfold locating; rw [hm]) (by unfold locating; rw [hm']) hE
  | left hm he => exact .left (by unfold locating; rw [hm]) (hexcuse _ he)
  | right hm' he => exact .right (by unfold locating; rw [hm']) (hexcuse _ he)

theorem couples_changeCharacter (name : String) (g : Character → Except Fault Character) (h : Abreast f p q)
    (hE : ∀ r t, Abreast f r t → E r t) :
    f.Couples (changeCharacter name g) (changeCharacter name g) p q (fun _ _ => Abreast f) E := by
  unfold changeCharacter
  apply coupled_bind
  refine couples_look h (fun c _ => ?_) (hE p q h)
  cases g c with
  | ok c' =>
    apply coupled_modify
    rw [h.stage]
    exact h.restage _
  | error e => exact coupled_throw (hE p q h)

/-! ### Evaluation -/

/-- `remember` keeps what is good in a script of the given layout, and does nothing else. -/
def Records {α : Type} (good : α → Prop) (layout : Script) (remember : α → PerformanceM Unit) : Prop :=
  ∀ a p, good a → p.script.Faithful → p.script.forget = layout →
    ∃ s : Script, remember a p = .ok () { p with script := s } ∧ s.Faithful ∧ s.forget = layout

theorem records_nothing {α : Type} (good : α → Prop) (layout : Script) : Records good layout fun _ => pure () :=
  fun _ p _ hp hlayout => ⟨p.script, rfl, hp, hlayout⟩

theorem records_rememberAt {script : Script} {position : Int} {op : Operation} {speaker : String}
    {condition : Option Condition} {a : Action Expression} (hop : script.operation? position = some op)
    (hdeed : op.deed = .speak speaker condition a) : Records a.Redone script.forget (rememberAt position) := by
  intro a' p ha' hp hlayout
  exact ⟨p.script.remember position a', rfl, hp.remember position ha'.1,
    Script.forget_remember_again hlayout hop hdeed ha'.2⟩

theorem couples_evaluate {speaker : String} {x x' : Expression}
    {remember remember' : Expression → PerformanceM Unit} (h : Abreast f p q) (hx : x.Faithful) (hx' : x'.Faithful)
    (hsame : x'.forget = x.forget) (hrem : Records x.Redone f.layout remember)
    (hrem' : Records x'.Redone f.layout' remember') (hE : ∀ r t, Abreast f r t → E r t) :
    f.Couples (evaluate speaker remember x) (evaluate speaker remember' x') p q
      (fun a b r t => b.1 = a.1 ∧ x.Redone a.2 ∧ x'.Redone b.2 ∧ Abreast f r t) E := by
  have houtcome : (x'.evaluate speaker p.stage).1 = (x.evaluate speaker p.stage).1 :=
    hx'.outcome_eq hx hsame speaker p.stage
  have hredone : x.Redone (x.evaluate speaker p.stage).2 :=
    ⟨hx.evaluate speaker p.stage, forget_evaluate speaker p.stage x⟩
  have hredone' : x'.Redone (x'.evaluate speaker p.stage).2 :=
    ⟨hx'.evaluate speaker p.stage, forget_evaluate speaker p.stage x'⟩
  unfold evaluate
  apply coupled_bind
  apply coupled_get
  rw [h.stage]
  generalize x.evaluate speaker p.stage = a at houtcome hredone ⊢
  generalize x'.evaluate speaker p.stage = b at houtcome hredone' ⊢
  obtain ⟨outcome, y⟩ := a
  obtain ⟨outcome', y'⟩ := b
  cases houtcome
  obtain ⟨s, hs, hfaithful, hlayout⟩ := hrem y p hredone h.faithful h.script
  obtain ⟨s', hs', hfaithful', hlayout'⟩ := hrem' y' q hredone' h.faithful' h.script'
  have hnext := h.record hfaithful hfaithful' hlayout hlayout'
  apply coupled_bind
  refine .ok hs hs' ?_
  cases outcome with
  | ok n => exact coupled_pure ⟨rfl, hredone, hredone', hnext⟩
  | error e => exact coupled_throw (hE _ _ hnext)

/-! ### Input -/

theorem couples_readLine (h : Abreast f p q) (hstdin : f.stdin = Eq) :
    f.Couples readLine readLine p q (fun a b r t => b = a ∧ Abreast f r t) E := by
  have hsame : p.streams.stdin = q.streams.stdin := by
    rw [← hstdin]
    exact h.stdin
  have hrest := h.read (R := Eq) (congrArg (fun cs => (splitLine cs).2) hsame)
  rw [Footing.reading_eq hstdin] at hrest
  exact .ok rfl rfl ⟨congrArg (fun cs => (splitLine cs).1) hsame.symm, hrest⟩

theorem couples_hold (cs : List Char) (h : Abreast f p q) :
    f.Couples (PerformanceM.hold cs) (PerformanceM.hold cs) p q (fun _ _ => Abreast f) E :=
  coupled_modify (h.hold _)

theorem couples_presentLine (held : List Char) (h : Abreast f p q) (hstdin : f.stdin = Eq) :
    f.Couples (presentLine held) (presentLine held) p q (fun a b r t => b = a ∧ Abreast f r t) E := by
  unfold presentLine
  by_cases hheld : held.isEmpty = true
  · simp only [hheld, if_true]
    refine (couples_readLine h hstdin).bind ?_
    rintro _ line r t ⟨rfl, hr⟩
    exact (couples_hold line hr).bind fun _ _ _ _ ht => coupled_pure ⟨rfl, ht⟩
  · simp only [hheld]
    exact coupled_pure ⟨rfl, h⟩

theorem couples_lineNumber (held : List Char) (h : Abreast f p q) (hstdin : f.stdin = Eq) :
    f.Couples (lineNumber held) (lineNumber held) p q (fun a b r t => b = a ∧ Abreast f r t) (Abreast f) := by
  unfold lineNumber
  refine (couples_presentLine held h hstdin).bind ?_
  rintro _ line r t ⟨rfl, hr⟩
  dsimp only
  generalize List.takeWhile Text.isDigitChar _ = digits
  by_cases hdigits : digits.isEmpty = true
  · rw [if_pos hdigits]
    exact coupled_pure ⟨rfl, hr⟩
  · rw [if_neg hdigits]
    refine (couples_hold _ hr).bind fun _ _ r t hr => ?_
    apply coupled_bind
    exact couples_ofBreakdown _ (fun n _ => coupled_pure ⟨rfl, hr⟩) hr

theorem couples_lineCharacter (held : List Char) (h : Abreast f p q) (hstdin : f.stdin = Eq) :
    f.Couples (lineCharacter held) (lineCharacter held) p q (fun a b r t => b = a ∧ Abreast f r t) E := by
  unfold lineCharacter
  refine (couples_presentLine held h hstdin).bind ?_
  rintro _ line r t ⟨rfl, hr⟩
  cases line with
  | nil => exact coupled_pure ⟨rfl, hr⟩
  | cons c cs => exact (couples_hold cs hr).bind fun _ _ _ _ ht => coupled_pure ⟨rfl, ht⟩

theorem couples_setReader (rest : List Char) (held : Option Char) (h : Abreast f p q) :
    f.Couples (setReader rest held) (setReader rest held) p q (fun _ _ => Abreast f) E :=
  coupled_modify (h.readReader _ _)

theorem couples_readerNumber (held : Option Char) (h : Abreast f p q) :
    f.Couples (readerNumber held) (readerNumber held) p q (fun a b r t => b = a ∧ Abreast f r t) (Abreast f) := by
  have htext : readerText held q = readerText held p := by
    unfold readerText
    rw [h.reader]
  unfold readerNumber
  apply coupled_bind
  apply coupled_get
  rw [htext]
  cases readerText held p with
  | nil => exact coupled_pure ⟨rfl, h⟩
  | cons c cs =>
    dsimp only
    split
    · refine (couples_setReader _ _ h).bind fun _ _ r t hr => ?_
      exact couples_ofBreakdown _ (fun n _ => ⟨rfl, hr⟩) hr
    · exact (couples_setReader _ _ h).bind fun _ _ _ _ hr => coupled_pure ⟨rfl, hr⟩

theorem couples_readerCharacter (held : Option Char) (h : Abreast f p q) :
    f.Couples (readerCharacter held) (readerCharacter held) p q (fun a b r t => b = a ∧ Abreast f r t) E := by
  have htext : readerText held q = readerText held p := by
    unfold readerText
    rw [h.reader]
  unfold readerCharacter
  apply coupled_bind
  apply coupled_get
  rw [htext]
  cases readerText held p with
  | nil => exact coupled_pure ⟨rfl, h⟩
  | cons c cs => exact (couples_setReader _ _ h).bind fun _ _ _ _ hr => coupled_pure ⟨rfl, hr⟩

/-- The next lines of both inputs say the same, and what follows them is related. -/
structure SameLine (cs cs' : List Char) (R : List Char → List Char → Prop) : Prop where
  line : dropLineFeed (splitLine cs').1 = dropLineFeed (splitLine cs).1
  isEmpty : (splitLine cs').1.isEmpty = (splitLine cs).1.isEmpty
  rest : R (splitLine cs).2 (splitLine cs').2

theorem sameLine_self (cs : List Char) : SameLine cs cs Eq := ⟨rfl, rfl, rfl⟩

theorem couples_ask {R : List Char → List Char → Prop} (prompt : String) (h : Abreast f p q)
    (hline : SameLine p.streams.stdin q.streams.stdin R) (hE : ∀ r t, Abreast (f.reading R) r t → E r t) :
    f.Couples (ask prompt) (ask prompt) p q (fun a b r t => b = a ∧ Abreast (f.reading R) r t) E := by
  have hread := (h.print prompt).read hline.rest
  unfold ask
  apply coupled_bind
  apply coupled_modify
  apply coupled_bind
  refine .ok rfl rfl ?_
  dsimp only
  rw [hline.isEmpty]
  split
  · exact coupled_bind (coupled_throw (hE _ _ hread))
  · exact coupled_pure ⟨hline.line, hread⟩

theorem couples_askNumber {R : List Char → List Char → Prop} (h : Abreast f p q)
    (hline : SameLine p.streams.stdin q.streams.stdin R) (hE : ∀ r t, Abreast (f.reading R) r t → E r t) :
    f.Couples askNumber askNumber p q (fun a b r t => b = a ∧ Abreast (f.reading R) r t) E := by
  unfold askNumber
  refine (couples_ask _ h hline hE).bind ?_
  rintro _ line r t ⟨rfl, hr⟩
  cases readNumeral line with
  | ok n => exact coupled_pure ⟨rfl, hr⟩
  | error b => exact coupled_throw (hE r t hr)

theorem couples_askCharacter {R : List Char → List Char → Prop} (h : Abreast f p q)
    (hline : SameLine p.streams.stdin q.streams.stdin R) (hE : ∀ r t, Abreast (f.reading R) r t → E r t) :
    f.Couples askCharacter askCharacter p q (fun a b r t => b = a ∧ Abreast (f.reading R) r t) E := by
  unfold askCharacter
  refine (couples_ask _ h hline hE).bind ?_
  rintro _ line r t ⟨rfl, hr⟩
  split
  · exact coupled_pure ⟨rfl, hr⟩
  · exact coupled_pure ⟨rfl, hr⟩
  · exact coupled_pure ⟨rfl, hr⟩

/-- Both take the same from the same input. -/
theorem couples_input (medium : Medium) (h : Abreast f p q) (hstdin : f.stdin = Eq) :
    f.Couples (input medium) (input medium) p q (fun a b r t => b = a ∧ Abreast f r t) (Abreast f) := by
  have hline : SameLine p.streams.stdin q.streams.stdin Eq := by
    have hsame : p.streams.stdin = q.streams.stdin := by
      rw [← hstdin]
      exact h.stdin
    rw [hsame]
    exact sameLine_self _
  have hback : ∀ r t, Abreast (f.reading Eq) r t → Abreast f r t := by
    rw [Footing.reading_eq hstdin]
    exact fun _ _ hr => hr
  unfold input
  apply coupled_bind
  apply coupled_get
  rw [h.desk]
  cases p.desk with
  | basic held =>
    cases medium with
    | number => exact couples_lineNumber held h hstdin
    | character => exact couples_lineCharacter held h hstdin
  | interactive =>
    cases medium with
    | number =>
      exact (couples_askNumber h hline hback).mono (fun _ _ r t hr => ⟨hr.1, hback r t hr.2⟩) fun _ _ hr => hr
    | character =>
      exact (couples_askCharacter h hline hback).mono (fun _ _ r t hr => ⟨hr.1, hback r t hr.2⟩) fun _ _ hr => hr
  | reader held =>
    cases medium with
    | number => exact couples_readerNumber held h
    | character => exact couples_readerCharacter held h

/-- Users who are asked may be asked in different inputs, as long as they answer the same. -/
theorem couples_inputAsked {R : List Char → List Char → Prop} (medium : Medium) (h : Abreast f p q)
    (hdesk : p.desk = .interactive) (hline : SameLine p.streams.stdin q.streams.stdin R)
    (hE : ∀ r t, Abreast (f.reading R) r t → E r t) :
    f.Couples (input medium) (input medium) p q (fun a b r t => b = a ∧ Abreast (f.reading R) r t) E := by
  unfold input
  apply coupled_bind
  apply coupled_get
  rw [h.desk, hdesk]
  cases medium with
  | number => exact couples_askNumber h hline hE
  | character => exact couples_askCharacter h hline hE

/-! ### Output -/

theorem couples_utter (u : Utterance) (h : Abreast f p q) :
    f.Couples (PerformanceM.utter u) (PerformanceM.utter u) p q (fun _ _ => Abreast f) E :=
  coupled_modify (h.utter u)

theorem couples_outputNumber (n : Int) (h : Abreast f p q) :
    f.Couples (outputNumber n) (outputNumber n) p q (fun _ _ => Abreast f) (Abreast f) := by
  unfold outputNumber
  generalize Number.numeral n = numeral
  apply coupled_bind
  refine couples_ofBreakdown numeral (fun text _ => ?_) h
  apply coupled_bind
  apply coupled_get
  apply couples_ite h
  · exact coupled_bind (coupled_modify (couples_utter _ (h.print _)))
  · exact coupled_bind (coupled_modify (couples_utter _ (h.print _)))
  · exact fun hs => coupled_bind (coupled_modify (couples_utter _ (h.printApart hs _ _)))
  · exact fun hs => coupled_bind (coupled_modify (couples_utter _ (h.printApart hs _ _)))

theorem couples_characterCode (n : Int) (h : Abreast f p q) :
    f.Couples (characterCode n) (characterCode n) p q (fun a b r t => b = a ∧ Abreast f r t) (Abreast f) := by
  unfold characterCode
  dsimp only
  split
  · exact coupled_bind (coupled_throw h)
  · split
    · exact coupled_bind (coupled_throw h)
    · exact coupled_pure ⟨rfl, h⟩

/-- Half of a character is shown as its code by a style that tells what is done. Otherwise it cannot be printed. -/
theorem couples_outputCharacter (n : Int) (h : Abreast f p q) :
    f.Couples (outputCharacter n) (outputCharacter n) p q (fun _ _ => Abreast f) (Abreast f) := by
  unfold outputCharacter
  refine (couples_characterCode n h).bind ?_
  rintro _ code r t ⟨rfl, hr⟩
  apply coupled_bind
  apply coupled_get
  apply couples_ite hr
  · exact coupled_bind (coupled_modify (couples_utter _ (hr.print _)))
  · by_cases hvalid : code.isValidChar
    · simp only [hvalid, if_true]
      exact coupled_bind (coupled_modify (couples_utter _ (hr.print _)))
    · simp only [hvalid, if_false]
      exact coupled_bind (coupled_throw hr)
  · intro hs
    by_cases hvalid : code.isValidChar
    · simp only [hvalid, if_true]
      exact coupled_bind (coupled_modify (couples_utter _ (hr.printApart hs _ _)))
    · simp only [hvalid, if_false]
      exact .right rfl ⟨hs, rfl⟩
  · intro hs
    by_cases hvalid : code.isValidChar
    · simp only [hvalid, if_true]
      exact coupled_bind (coupled_modify (couples_utter _ (hr.printApart hs _ _)))
    · simp only [hvalid, if_false]
      exact .left rfl ⟨hs, rfl⟩

theorem couples_output (medium : Medium) (n : Int) (h : Abreast f p q) :
    f.Couples (output medium n) (output medium n) p q (fun _ _ => Abreast f) (Abreast f) := by
  cases medium with
  | number => exact couples_outputNumber n h
  | character => exact couples_outputCharacter n h

/-! ### Actions -/

theorem couples_question {speaker : String} {comparison : Comparison} {words : List String}
    {x y x' y' : Expression} {remember remember' : Action Expression → PerformanceM Unit} (h : Abreast f p q)
    (hfaithful : (Action.question comparison words x y).Faithful)
    (hfaithful' : (Action.question comparison words x' y').Faithful) (hx : x'.forget = x.forget)
    (hy : y'.forget = y.forget)
    (hrem : Records (Action.question comparison words x y).Redone f.layout remember)
    (hrem' : Records (Action.question comparison words x' y').Redone f.layout' remember') :
    f.Couples (performAction speaker remember (.question comparison words x y))
      (performAction speaker remember' (.question comparison words x' y')) p q (fun _ _ => Abreast f)
        (Abreast f) := by
  have hfirst : ∀ {z w layout remember}, w.Faithful →
      Records (Action.question comparison words z w).Redone layout remember →
      Records z.Redone layout fun z' => remember (.question comparison words z' w) := by
    intro z w layout remember hw hr z' r hz' hf hl
    exact hr _ r ⟨⟨hz'.1, hw⟩, by simp only [Action.forget, Action.map, hz'.2]⟩ hf hl
  -- what is kept now holds what the first expression has worked out, not the first expression itself
  have hsecond : ∀ {z z' w layout remember}, z.Redone z' →
      Records (Action.question comparison words z w).Redone layout remember →
      Records w.Redone layout fun w' => remember (.question comparison words z' w') := by
    intro z z' w layout remember hz hr w' r hw' hf hl
    exact hr _ r ⟨⟨hz.1, hw'.1⟩, by simp only [Action.forget, Action.map, hz.2, hw'.2]⟩ hf hl
  unfold performAction
  refine (couples_evaluate h hfaithful.1 hfaithful'.1 hx (hfirst hfaithful.2 hrem) (hfirst hfaithful'.2 hrem')
    fun _ _ hr => hr).bind ?_
  rintro ⟨m, z⟩ ⟨m', z'⟩ r t ⟨hm, hz, hz', hr⟩
  cases hm
  refine (couples_evaluate hr hfaithful.2 hfaithful'.2 hy (hsecond hz hrem) (hsecond hz' hrem')
    fun _ _ hr => hr).bind ?_
  rintro ⟨n, w⟩ ⟨n', w'⟩ r t ⟨hn, -, -, hr⟩
  cases hn
  refine (couples_narrate _ hr).bind fun _ _ r t hr => ?_
  apply coupled_modify
  rw [hr.stage]
  exact hr.restage _

theorem couples_giving {speaker : String} {x x' : Expression} {remember remember' : Expression → PerformanceM Unit}
    (take : Int → Character → Character) (text : String → String → String) (h : Abreast f p q) (hx : x.Faithful)
    (hx' : x'.Faithful) (hsame : x'.forget = x.forget) (hrem : Records x.Redone f.layout remember)
    (hrem' : Records x'.Redone f.layout' remember') :
    f.Couples (do
        let other ← look (·.opposite speaker)
        let (n, _) ← evaluate speaker remember x
        changeCharacter other fun c => .ok (take n c)
        if (← get).style.narrates then printLine (text other (← ofBreakdown (Number.numeral n))))
      (do
        let other ← look (·.opposite speaker)
        let (n, _) ← evaluate speaker remember' x'
        changeCharacter other fun c => .ok (take n c)
        if (← get).style.narrates then printLine (text other (← ofBreakdown (Number.numeral n)))) p q
      (fun _ _ => Abreast f) (Abreast f) := by
  apply coupled_bind
  refine couples_look h (fun other _ => ?_) h
  refine (couples_evaluate h hx hx' hsame hrem hrem' fun _ _ hr => hr).bind ?_
  rintro ⟨n, z⟩ ⟨n', z'⟩ r t ⟨hn, -, -, hr⟩
  cases hn
  refine (couples_changeCharacter other _ hr fun _ _ ht => ht).bind fun _ _ r t hr => ?_
  have hnumeral := fun b => Number.unprintable_of_numeral (n := n) (b := b)
  generalize Number.numeral n = numeral at hnumeral ⊢
  exact couples_tellLast _ hr hnumeral hr

/-- Input that both take alike is told alike, and taken by the same character. `R` relates what is left to be
read. -/
theorem couples_performInput {R : List Char → List Char → Prop} {speaker : String} {medium : Medium}
    {remember remember' : Action Expression → PerformanceM Unit} (h : Abreast f p q) (hE : E p q)
    (hE' : ∀ r t, Abreast (f.reading R) r t → E r t)
    (hinput : f.Couples (input medium) (input medium) p q (fun a b r t => b = a ∧ Abreast (f.reading R) r t) E) :
    f.Couples (performAction speaker remember (.input medium)) (performAction speaker remember' (.input medium))
      p q (fun _ _ => Abreast (f.reading R)) E := by
  unfold performAction
  apply coupled_bind
  refine couples_look h (fun other _ => ?_) hE
  refine hinput.bind ?_
  rintro _ n r t ⟨rfl, hr⟩
  apply coupled_bind
  apply coupled_get
  dsimp only
  have hnumeral := fun b => Number.unprintable_of_numeral (n := n) (b := b)
  generalize Number.numeral n = numeral at hnumeral ⊢
  exact couples_tell (f := f.reading R) _ hr hnumeral (fun r t hr => couples_changeCharacter other _ hr hE')
    (hE' r t hr)

theorem couples_performAction {speaker : String} {a a' : Action Expression}
    {remember remember' : Action Expression → PerformanceM Unit} (h : Abreast f p q) (ha : a.Faithful)
    (ha' : a'.Faithful) (hsame : a'.forget = a.forget) (hrem : Records a.Redone f.layout remember)
    (hrem' : Records a'.Redone f.layout' remember') (hinput : ∀ medium, a = .input medium → f.stdin = Eq) :
    f.Couples (performAction speaker remember a) (performAction speaker remember' a') p q (fun _ _ => Abreast f)
      (Abreast f) := by
  cases a with
  | question comparison words x y =>
    cases a' with
    | question comparison' words' x' y' =>
      obtain ⟨rfl, rfl, hx, hy⟩ := Action.question.inj hsame
      exact couples_question h ha ha' hx hy hrem hrem'
    | _ => cases hsame
  | assignment x =>
    cases a' with
    | assignment x' =>
      have hx : x'.forget = x.forget := Action.assignment.inj hsame
      refine couples_giving (fun n c => { c with value := n })
        (fun other numeral => other ++ " set to " ++ numeral) h ha
        ha' hx (fun y r hy => hrem _ r ⟨hy.1, ?_⟩) (fun y r hy => hrem' _ r ⟨hy.1, ?_⟩)
      · exact congrArg Action.assignment hy.2
      · exact congrArg Action.assignment hy.2
    | _ => cases hsame
  | input medium =>
    cases a' with
    | input medium' =>
      cases hsame
      have hstdin := hinput medium rfl
      have hback : ∀ r t, Abreast (f.reading Eq) r t → Abreast f r t := by
        rw [Footing.reading_eq hstdin]
        exact fun _ _ hr => hr
      have hread : f.Couples (PerformanceM.input medium) (PerformanceM.input medium) p q
          (fun a b r t => b = a ∧ Abreast (f.reading Eq) r t) (Abreast f) := by
        rw [Footing.reading_eq hstdin]
        exact couples_input medium h hstdin
      exact (couples_performInput h h hback hread).mono (fun _ _ r t hr => hback r t hr) fun _ _ hr => hr
    | _ => cases hsame
  | output medium =>
    cases a' with
    | output medium' =>
      cases hsame
      unfold performAction
      apply coupled_bind
      refine couples_look h (fun other _ => ?_) h
      apply coupled_bind
      refine couples_look h (fun c _ => ?_) h
      exact (couples_narrate _ h).bind fun _ _ r t hr => couples_output medium c.value hr
    | _ => cases hsame
  | push x =>
    cases a' with
    | push x' =>
      have hx : x'.forget = x.forget := Action.push.inj hsame
      refine couples_giving (fun n c => c.push n) (fun other numeral => other ++ " pushed " ++ numeral) h ha
        ha' hx (fun y r hy => hrem _ r ⟨hy.1, ?_⟩) (fun y r hy => hrem' _ r ⟨hy.1, ?_⟩)
      · exact congrArg Action.push hy.2
      · exact congrArg Action.push hy.2
    | _ => cases hsame
  | pop recalled =>
    cases a' with
    | pop recalled' =>
      unfold performAction
      apply coupled_bind
      refine couples_look h (fun other _ => ?_) h
      exact (couples_changeCharacter other _ h fun _ _ hr => hr).bind fun _ _ r t hr => couples_narrate _ hr
    | _ => cases hsame
  | goto target numeral =>
    cases a' with
    | goto target' numeral' => exact coupled_pure h
    | _ => cases hsame

/-! ### Jumps, sentences and operations -/

/-- From the same position both jump to the same one, if the acts and scenes are laid out alike. -/
theorem couples_jump (target : Target) (numeral : String) (h : Abreast f p q) (hplace : f.place = Eq)
    (hlayout : f.layout'.acts = f.layout.acts) :
    f.Couples (jump target numeral) (jump target numeral) p q (fun _ _ => Abreast f) (Abreast f) := by
  unfold jump
  refine (couples_narrate _ h).bind fun _ _ r t hr => ?_
  apply coupled_bind
  apply coupled_get
  have hposition : r.position = t.position := by
    rw [← hplace]
    exact hr.place
  have hacts : t.script.acts = r.script.acts :=
    show t.script.forget.acts = r.script.forget.acts by rw [hr.script', hr.script, hlayout]
  rw [destination_congr hacts, ← hposition]
  cases destination r.script r.position target numeral with
  | ok n => exact coupled_set (hr.move (by rw [hplace]))
  | error e => exact coupled_throw hr

end PerformanceM

/-- The deed reads input, if the flag is so. -/
def Deed.takesInput (flag : Bool) : Deed → Bool
  | speak _ condition (.input _) => PerformanceM.isMet condition flag
  | _ => false

/-- The deed is a jump, if its condition holds. -/
def Deed.isJump : Deed → Bool
  | speak _ _ (.goto _ _) => true
  | _ => false

namespace PerformanceM

variable {f : Footing} {p q : Performance}

/-- The sentence is no jump. -/
theorem performSentence_of_not_goto {span : Span} {remember : Action Expression → PerformanceM Unit}
    {speaker : String} {condition : Option Condition} {a : Action Expression}
    (ha : ∀ target numeral, a ≠ .goto target numeral) :
    performSentence span remember speaker condition a = (do
      look (·.checkPresent speaker)
      let flag := (← get).stage.flag
      if isMet condition flag then locating span (performAction speaker remember a)
      else narrate (refusal a flag)) := by
  cases a with
  | goto target numeral => exact absurd rfl (ha target numeral)
  | question comparison words x y => rfl
  | assignment x => rfl
  | input medium => rfl
  | output medium => rfl
  | push x => rfl
  | pop recalled => rfl

theorem refusal_forget (a : Action Expression) (flag : Bool) : refusal a.forget flag = refusal a flag := by
  cases a <;> rfl

theorem couples_performSentence {span : Span} {speaker : String} {condition : Option Condition}
    {a a' : Action Expression} {remember remember' : Action Expression → PerformanceM Unit} (h : Abreast f p q)
    (ha : a.Faithful) (ha' : a'.Faithful) (hsame : a'.forget = a.forget)
    (hrem : Records a.Redone f.layout remember) (hrem' : Records a'.Redone f.layout' remember')
    (hinput : (Deed.speak speaker condition a).takesInput p.stage.flag = true → f.stdin = Eq)
    (hjump : (Deed.speak speaker condition a).isJump = true → f.place = Eq ∧ f.layout'.acts = f.layout.acts) :
    f.Couples (performSentence span remember speaker condition a)
      (performSentence span remember' speaker condition a') p q (fun _ _ => Abreast f) (Abreast f) := by
  have hrefusal : ∀ flag, refusal a' flag = refusal a flag := by
    intro flag
    rw [← refusal_forget, hsame, refusal_forget]
  by_cases hgoto : ∃ target numeral, a = .goto target numeral
  · obtain ⟨target, numeral, rfl⟩ := hgoto
    have ha' : a' = .goto target numeral := by
      cases a' <;> cases hsame
      rfl
    subst ha'
    unfold performSentence
    apply coupled_bind
    refine couples_look h (fun _ _ => ?_) h
    apply coupled_bind
    apply coupled_get
    dsimp only
    rw [h.stage]
    split
    · exact couples_jump target numeral h (hjump rfl).1 (hjump rfl).2
    · exact couples_narrate _ h
  · have hnot : ∀ target numeral, a ≠ .goto target numeral := fun target numeral he => hgoto ⟨target, numeral, he⟩
    have hnot' : ∀ target numeral, a' ≠ .goto target numeral := by
      rintro target numeral rfl
      refine hnot target numeral ?_
      cases a <;> cases hsame
      rfl
    rw [performSentence_of_not_goto hnot, performSentence_of_not_goto hnot']
    apply coupled_bind
    refine couples_look h (fun _ _ => ?_) h
    apply coupled_bind
    apply coupled_get
    dsimp only
    rw [h.stage, hrefusal]
    split
    · next hmet =>
      apply couples_locating
      refine couples_performAction h ha ha' hsame hrem hrem' fun medium hmedium => hinput ?_
      rw [hmedium]
      exact hmet
    · exact couples_narrate _ h

theorem couples_direction (m : StageM Unit) (text : String) (span : Span) (h : Abreast f p q) :
    f.Couples (locating span do narrate text; onStage m) (locating span do narrate text; onStage m) p q
      (fun _ _ => Abreast f) (Abreast f) := by
  apply couples_locating
  exact (couples_narrate text h).bind fun _ _ r t hr => couples_onStage m hr

/-- **Performances abreast stay abreast.** An operation that differs in both only in what it remembers ends alike
in both. Where it reads, both have to have the same input, and where it jumps, the same position and acts. -/
theorem couples_perform {op op' : Operation} {remember remember' : Action Expression → PerformanceM Unit}
    (h : Abreast f p q) (hop : op.Faithful) (hop' : op'.Faithful) (hsame : op'.forget = op.forget)
    (hrem : ∀ {speaker condition a}, op.deed = .speak speaker condition a → Records a.Redone f.layout remember)
    (hrem' : ∀ {speaker condition a}, op'.deed = .speak speaker condition a → Records a.Redone f.layout' remember')
    (hinput : op.deed.takesInput p.stage.flag = true → f.stdin = Eq)
    (hjump : op.deed.isJump = true → f.place = Eq ∧ f.layout'.acts = f.layout.acts) :
    f.Couples (perform remember op) (perform remember' op') p q (fun _ _ => Abreast f) (Abreast f) := by
  obtain ⟨hspan, hdeed⟩ : op'.span = op.span ∧ op'.deed.forget = op.deed.forget := Operation.mk.inj hsame
  by_cases hspeak : ∃ speaker condition a, op.deed = .speak speaker condition a
  · obtain ⟨speaker, condition, a, hd⟩ := hspeak
    rw [hd] at hdeed hinput hjump
    obtain ⟨a', hd', ha'⟩ := Deed.eq_of_forget_eq_speak hdeed
    unfold perform
    rw [hd, hd', hspan]
    exact couples_performSentence h (hop speaker condition a hd) (hop' speaker condition a' hd') ha'
      (hrem hd) (hrem' hd') hinput hjump
  · have hsilent : ∀ speaker condition a, op.deed ≠ .speak speaker condition a :=
      fun speaker condition a he => hspeak ⟨speaker, condition, a, he⟩
    unfold perform
    rw [Deed.eq_of_forget_eq hdeed hsilent, hspan]
    cases hd : op.deed with
    | speak speaker condition a => exact absurd hd (hsilent speaker condition a)
    | enter names => exact couples_direction _ _ op.span h
    | exit name => exact couples_direction _ _ op.span h
    | exeunt names => exact couples_direction _ _ op.span h
    | exeuntAll => exact couples_direction _ _ op.span h
    | breakpoint => exact coupled_pure h

end PerformanceM

end Playhouse
