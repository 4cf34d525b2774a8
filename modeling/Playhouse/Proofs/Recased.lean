import Playhouse.Proofs.Jumps
import Playhouse.Proofs.SmallLetters
import Playhouse.Proofs.Styles

/-!
# Playhouse.Proofs.Recased — performances of texts that differ in case

Texts that differ in case only are the same play but for the numerals, which are kept and compared as they are
written. Their performances stay abreast, and what they print and report is the same but for case, until a jump
finds its numeral in one of them and not in the other.
-/

namespace Playhouse

open Grammar

/-! ### Faults in small letters -/

/-- The fault with the numerals it names in small letters. -/
def Fault.small : Fault → Fault
  | error cause span => error cause.small span
  | breakdown b => breakdown b

section Adapt

variable {ε σ α β : Type} {g : ε → ε} {m m' : EStateM ε σ α} {s s' t : σ}

theorem adaptExcept_of_ok {a : α} (h : m s = .ok a t) : m.adaptExcept g s = .ok a t := by
  unfold EStateM.adaptExcept
  rw [h]

theorem adaptExcept_of_error {e : ε} (h : m s = .error e t) : m.adaptExcept g s = .error (g e) t := by
  unfold EStateM.adaptExcept
  rw [h]

theorem adaptExcept_congr (h : m s = m' s') : m.adaptExcept g s = m'.adaptExcept g s' := by
  unfold EStateM.adaptExcept
  rw [h]

theorem ok_of_adaptExcept {a : α} (h : m.adaptExcept g s = .ok a t) : m s = .ok a t := by
  unfold EStateM.adaptExcept at h
  cases hm : m s with
  | ok b u =>
    rw [hm] at h
    cases h
    rfl
  | error e u =>
    rw [hm] at h
    cases h

theorem error_of_adaptExcept {e : ε} (h : m.adaptExcept g s = .error e t) :
    ∃ e', m s = .error e' t ∧ g e' = e := by
  unfold EStateM.adaptExcept at h
  cases hm : m s with
  | ok b u =>
    rw [hm] at h
    cases h
  | error e' u =>
    rw [hm] at h
    cases h
    exact ⟨e', rfl, rfl⟩

theorem adaptExcept_bind (k : α → EStateM ε σ β) :
    (m >>= k).adaptExcept g = m.adaptExcept g >>= fun a => (k a).adaptExcept g := by
  funext s
  cases hm : m s with
  | ok a t =>
    rw [bind_of_ok (adaptExcept_of_ok hm)]
    exact adaptExcept_congr (bind_of_ok hm)
  | error e t => rw [bind_of_error (adaptExcept_of_error hm), adaptExcept_of_error (bind_of_error hm)]

end Adapt

/-- What ends alike does so too if the numerals of its faults are put in small letters. -/
theorem Footing.Couples.small {α β : Type} {f : Footing} {m : PerformanceM α} {m' : PerformanceM β}
    {p q : Performance} {Q : α → β → Performance → Performance → Prop} {E : Performance → Performance → Prop}
    (h : f.Couples m m' p q Q E) :
    f.Couples (m.adaptExcept Fault.small) (m'.adaptExcept Fault.small) p q Q E := by
  have hexcuse : ∀ e, f.Excuse e → f.Excuse e.small := by
    intro e he
    cases e with
    | error cause span => exact he.elim
    | breakdown b => exact he
  cases h with
  | ok hm hm' hQ => exact .ok (adaptExcept_of_ok hm) (adaptExcept_of_ok hm') hQ
  | error hm hm' hE => exact .error (adaptExcept_of_error hm) (adaptExcept_of_error hm') hE
  | left hm he => exact .left (adaptExcept_of_error hm) (hexcuse _ he)
  | right hm' he => exact .right (adaptExcept_of_error hm') (hexcuse _ he)

/-! ### Destinations -/

theorem lastActFrom_small (k : Int) (as : List ActEntry) :
    ∀ a, Script.lastActFrom k a.small (as.map ActEntry.small) = (Script.lastActFrom k a as).small := by
  induction as with
  | nil => exact fun a => rfl
  | cons b bs ih =>
    intro a
    show (if k < b.position then a.small else Script.lastActFrom k b.small (bs.map ActEntry.small)) =
      (if k < b.position then a else Script.lastActFrom k b bs).small
    rw [ih]
    split <;> rfl

theorem actAt?_small (s : Script) (k : Int) : s.small.actAt? k = (s.actAt? k).map ActEntry.small := by
  unfold Script.actAt? Script.small
  cases s.acts with
  | nil => rfl
  | cons a as => exact congrArg some (lastActFrom_small k as a)

namespace PerformanceM

/-- Jumps to numerals that are the same but for case fail for the same cause but for case, if both fail. -/
theorem small_of_destination_error {s s' : Script} {k : Int} {target : Target} {numeral numeral' : String}
    {e e' : Fault} (hs : s.acts.map ActEntry.small = s'.acts.map ActEntry.small)
    (hnumeral : smallWord numeral = smallWord numeral') (h : destination s k target numeral = .error e)
    (h' : destination s' k target numeral' = .error e') :
    e.small = e'.small := by
  have hat : (s.actAt? k).map ActEntry.small = (s'.actAt? k).map ActEntry.small := by
    rw [← actAt?_small, ← actAt?_small]
    unfold Script.actAt?
    rw [show s.small.acts = s'.small.acts from hs]
  unfold destination at h h'
  cases target with
  | act =>
    simp only at h h'
    split at h <;> cases h
    split at h' <;> cases h'
    simp only [Fault.small, Cause.small, hnumeral]
  | scene =>
    simp only at h h'
    split at h
    · next hnone =>
      rw [hnone, Option.map_none, eq_comm, Option.map_eq_none_iff] at hat
      rw [hat] at h'
      cases h
      cases h'
      rfl
    · next a ha =>
      rw [ha, Option.map_some, eq_comm, Option.map_eq_some_iff] at hat
      obtain ⟨a', ha', -⟩ := hat
      rw [ha'] at h'
      simp only at h'
      split at h <;> cases h
      split at h' <;> cases h'
      simp only [Fault.small, Cause.small, hnumeral]

/-- The jumps that are to be made next go to different positions, or only one of them goes anywhere. -/
def LeadsElsewhere (p q : Performance) : Prop :=
  ∃ op op' target numeral numeral', AtJump p op target numeral ∧ AtJump q op' target numeral' ∧
    (destination p.script p.position target numeral).toOption ≠
    (destination q.script q.position target numeral').toOption

end PerformanceM

/-! ### Operations -/

/-- Actions that are the same in small letters differ in where a jump goes or in what is recalled, if at all. -/
theorem Action.cases_of_small {ε : Type} {a a' : Action ε} (h : a.small = a'.small) :
    (∃ target numeral numeral', a = .goto target numeral ∧ a' = .goto target numeral' ∧
        smallWord numeral = smallWord numeral') ∨
      (∃ recalled recalled', a = .pop recalled ∧ a' = .pop recalled') ∨
      (a' = a ∧ ∀ target numeral, a ≠ .goto target numeral) := by
  cases a with
  | goto target numeral =>
    cases a' with
    | goto target' numeral' =>
      obtain ⟨rfl, hnumeral⟩ := Action.goto.inj h
      exact .inl ⟨target, numeral, numeral', rfl, rfl, hnumeral⟩
    | _ => cases h
  | pop recalled =>
    cases a' with
    | pop recalled' => exact .inr (.inl ⟨recalled, recalled', rfl, rfl⟩)
    | _ => cases h
  | question comparison words x y | assignment x | input medium | output medium | push x =>
    cases a' <;> cases h
    exact .inr (.inr ⟨rfl, nofun⟩)

theorem Deed.exists_of_small {d : Deed} {speaker : String} {condition : Option Condition} {a : Action Expression}
    (h : d.small = .speak speaker condition a) : ∃ b, d = .speak speaker condition b ∧ b.small = a := by
  cases d with
  | speak speaker' condition' b =>
    obtain ⟨rfl, rfl, hb⟩ := Deed.speak.inj h
    exact ⟨b, rfl, hb⟩
  | _ => cases h

/-- Operations of scripts that are the same in small letters, with nothing remembered, differ only so. -/
theorem Operation.cases_of_small {op op' : Operation} (h : op.forget.small = op'.forget.small) :
    op'.span = op.span ∧
      ((∃ speaker condition target numeral numeral', op.deed = .speak speaker condition (.goto target numeral) ∧
          op'.deed = .speak speaker condition (.goto target numeral') ∧ smallWord numeral = smallWord numeral') ∨
        (∃ speaker condition recalled recalled', op.deed = .speak speaker condition (.pop recalled) ∧
          op'.deed = .speak speaker condition (.pop recalled')) ∨
        (op'.forget = op.forget ∧ op.deed.isJump = false)) := by
  obtain ⟨hspan, hdeed⟩ : op.span = op'.span ∧ op.deed.forget.small = op'.deed.forget.small := Operation.mk.inj h
  refine ⟨hspan.symm, ?_⟩
  have hforget : op'.deed.forget = op.deed.forget → op'.forget = op.forget := by
    intro hd
    unfold Operation.forget
    rw [hspan, hd]
  cases hd : op.deed with
  | speak speaker condition a =>
    rw [hd] at hdeed
    obtain ⟨b, hb, hsmall⟩ := Deed.exists_of_small hdeed.symm
    obtain ⟨a', hd', rfl⟩ := Deed.eq_of_forget_eq_speak hb
    rcases Action.cases_of_small hsmall.symm with ⟨target, numeral, numeral', ha, ha', hnumeral⟩ |
      ⟨r, r', ha, ha'⟩ | ⟨heq, hnot⟩
    · have hgoto : a = .goto target numeral := by
        cases a <;> cases ha
        rfl
      have hgoto' : a' = .goto target numeral' := by
        cases a' <;> cases ha'
        rfl
      exact .inl ⟨speaker, condition, target, numeral, numeral', by rw [hgoto], by rw [hd', hgoto'], hnumeral⟩
    · have hpop : a = .pop r := by
        cases a <;> cases ha
        rfl
      have hpop' : a' = .pop r' := by
        cases a' <;> cases ha'
        rfl
      exact .inr (.inl ⟨speaker, condition, r, r', by rw [hpop], by rw [hd', hpop']⟩)
    · refine .inr (.inr ⟨hforget ?_, ?_⟩)
      · rw [hd, hd', Deed.forget, Deed.forget, heq]
      · cases a with
        | goto target numeral => exact absurd rfl (hnot target numeral)
        | _ => rfl
  | enter names | exit name | exeunt names | exeuntAll | breakpoint =>
    have hsame : op'.deed = op.deed := by
      rw [hd] at hdeed ⊢
      cases hd' : op'.deed <;> rw [hd'] at hdeed <;> injection hdeed <;> simp_all
    exact .inr (.inr ⟨hforget (congrArg Deed.forget hsame), rfl⟩)

theorem Operation.isBreakpoint_small (op : Operation) : op.small.isBreakpoint = op.isBreakpoint := by
  unfold Operation.isBreakpoint Operation.small
  cases op.deed <;> rfl

/-! ### Printing in either case -/

/-- What both print next may differ in case. -/
def Footing.Lenient (f : Footing) : Prop :=
  ∀ {a b text text'}, f.printed a b → smallWord text = smallWord text' → f.printed (a ++ text) (b ++ text')

/-- The performance after a line was told, if the style tells it. -/
def Performance.told (p : Performance) (text : String) : Performance :=
  if p.style.narrates then p.printed (p.streams.out ++ (text ++ "\n")) else p

theorem Abreast.printEither {f : Footing} {p q : Performance} (h : Abreast f p q) (hlenient : f.Lenient)
    {text text' : String} (htext : smallWord text = smallWord text') :
    Abreast f (p.printed (p.streams.out ++ text)) (q.printed (q.streams.out ++ text')) := by
  refine ⟨h.script, h.script', h.faithful, h.faithful', h.stage, h.place, h.desk, h.style, h.stdin,
    h.reader, h.uttered, fun haloud => ?_⟩
  obtain ⟨hout, herr⟩ := h.printed haloud
  exact ⟨hlenient hout htext, herr⟩

namespace PerformanceM

theorem narrate_eq (text : String) (p : Performance) : narrate text p = .ok () (p.told text) := by
  show (if p.style.narrates then printLine text else pure () : PerformanceM Unit) p = _
  unfold Performance.told
  split <;> rfl

theorem jump_eq (target : Target) (numeral : String) (p : Performance) :
    jump target numeral p = match destination p.script p.position target numeral with
      | .ok n => .ok () { p.told ("Jumping to " ++ target.text ++ " " ++ numeral) with position := n }
      | .error e => .error e (p.told ("Jumping to " ++ target.text ++ " " ++ numeral)) := by
  have htold : ∀ text, (p.told text).script = p.script ∧ (p.told text).position = p.position := by
    intro text
    unfold Performance.told
    split <;> exact ⟨rfl, rfl⟩
  unfold jump
  rw [bind_of_ok (narrate_eq _ p)]
  generalize "Jumping to " ++ target.text ++ " " ++ numeral = text
  show (match destination (p.told text).script (p.told text).position target numeral with
    | .ok n => set { p.told text with position := n }
    | .error f => throw f : PerformanceM Unit) (p.told text) = _
  rw [(htold text).1, (htold text).2]
  cases destination p.script p.position target numeral <;> rfl

/-- A jump that is not made is told, and one whose speaker is away is an error. -/
theorem performSentence_goto {span : Span} {remember : Action Expression → PerformanceM Unit} {speaker : String}
    {condition : Option Condition} {target : Target} {numeral : String} {p : Performance} :
    performSentence span remember speaker condition (.goto target numeral) p =
      match p.stage.checkPresent speaker with
      | .error e => .error e p
      | .ok _ => if isMet condition p.stage.flag then jump target numeral p
        else .ok () (p.told (refusal (.goto target numeral) p.stage.flag)) := by
  unfold performSentence
  cases hpresent : p.stage.checkPresent speaker with
  | error e => exact bind_of_error (by unfold look; dsimp only; rw [hpresent])
  | ok u =>
    have hlook : look (·.checkPresent speaker) p = .ok u p := by
      unfold look
      dsimp only
      rw [hpresent]
    rw [bind_of_ok hlook]
    show (if isMet condition p.stage.flag then jump target numeral
      else narrate (refusal (.goto target numeral) p.stage.flag) : PerformanceM Unit) p = _
    rw [← narrate_eq]
    split <;> rfl

/-- What is recalled is not looked at, and nothing is remembered. -/
theorem performSentence_pop (span : Span) (remember remember' : Action Expression → PerformanceM Unit)
    (speaker : String) (condition : Option Condition) (recalled recalled' : String) :
    performSentence span remember speaker condition (.pop recalled) =
      performSentence span remember' speaker condition (.pop recalled') := by
  have hpop : ∀ recalled target numeral, (.pop recalled : Action Expression) ≠ .goto target numeral := nofun
  rw [performSentence_of_not_goto (hpop recalled), performSentence_of_not_goto (hpop recalled'), performAction,
    performAction]
  rfl

variable {f : Footing} {p q : Performance} {E : Performance → Performance → Prop}

theorem abreast_told (h : Abreast f p q) (hstyled : f.styled) (hlenient : p.style.narrates = true → f.Lenient)
    {text text' : String} (htext : smallWord text = smallWord text') : Abreast f (p.told text) (q.told text') := by
  unfold Performance.told
  rw [h.style hstyled]
  split
  · next hnarrates => exact h.printEither (hlenient hnarrates) (by rw [smallWord_append, smallWord_append, htext])
  · exact h

/-- Jumps to numerals that are the same but for case end alike, unless they lead elsewhere. -/
theorem couples_jump_recased {target : Target} {numeral numeral' : String} (h : Abreast f p q)
    (hplace : f.place = Eq) (hstyled : f.styled) (hlenient : p.style.narrates = true → f.Lenient)
    (hnumeral : smallWord numeral = smallWord numeral')
    (hacts : f.layout.acts.map ActEntry.small = f.layout'.acts.map ActEntry.small)
    (hleads : (destination p.script p.position target numeral).toOption =
      (destination q.script q.position target numeral').toOption) :
    f.Couples ((jump target numeral).adaptExcept Fault.small) ((jump target numeral').adaptExcept Fault.small) p q
      (fun _ _ => Abreast f) (Abreast f) := by
  have hposition : p.position = q.position := by
    rw [← hplace]
    exact h.place
  have hacts' : p.script.acts.map ActEntry.small = q.script.acts.map ActEntry.small := by
    rw [← h.script, ← h.script'] at hacts
    exact hacts
  have htold : Abreast f (p.told ("Jumping to " ++ target.text ++ " " ++ numeral))
      (q.told ("Jumping to " ++ target.text ++ " " ++ numeral')) :=
    abreast_told h hstyled hlenient (by simp only [smallWord_append, hnumeral])
  have hjump := jump_eq target numeral p
  have hjump' := jump_eq target numeral' q
  cases hd : destination p.script p.position target numeral with
  | ok n =>
    rw [hd] at hleads hjump
    cases hd' : destination q.script q.position target numeral' with
    | ok n' =>
      rw [hd'] at hleads hjump'
      obtain rfl : n = n' := Option.some.inj hleads
      exact .ok (adaptExcept_of_ok hjump) (adaptExcept_of_ok hjump') (htold.move (by rw [hplace]))
    | error e' =>
      rw [hd'] at hleads
      cases hleads
  | error e =>
    rw [hd] at hleads hjump
    cases hd' : destination q.script q.position target numeral' with
    | ok n' =>
      rw [hd'] at hleads
      cases hleads
    | error e' =>
      rw [hd'] at hjump'
      rw [← hposition] at hd'
      have hsmall : e.small = e'.small := small_of_destination_error hacts' hnumeral hd hd'
      exact .error (adaptExcept_of_error hjump) (hsmall ▸ adaptExcept_of_error hjump') htold

/-- An operation and one that is the same in small letters end alike in both, unless they are jumps that lead
elsewhere. -/
theorem couples_perform_recased {op op' : Operation} {remember remember' : Action Expression → PerformanceM Unit}
    (h : Abreast f p q) (hplace : f.place = Eq) (hstdin : f.stdin = Eq) (hstyled : f.styled)
    (hlenient : p.style.narrates = true → f.Lenient)
    (hacts : f.layout.acts.map ActEntry.small = f.layout'.acts.map ActEntry.small) (hop : op.Faithful)
    (hop' : op'.Faithful) (hsmall : op.forget.small = op'.forget.small)
    (hrem : ∀ {speaker condition a}, op.deed = .speak speaker condition a → Records a.Redone f.layout remember)
    (hrem' : ∀ {speaker condition a}, op'.deed = .speak speaker condition a → Records a.Redone f.layout' remember')
    (hleads : ∀ {speaker condition target numeral numeral'}, op.deed =
      .speak speaker condition (.goto target numeral) →
      op'.deed = .speak speaker condition (.goto target numeral') → p.stage.checkPresent speaker = .ok () →
      isMet condition p.stage.flag = true → (destination p.script p.position target numeral).toOption =
        (destination q.script q.position target numeral').toOption) :
    f.Couples ((perform remember op).adaptExcept Fault.small) ((perform remember' op').adaptExcept Fault.small) p q
      (fun _ _ => Abreast f) (Abreast f) := by
  obtain ⟨hspan, ⟨speaker, condition, target, numeral, numeral', hd, hd', hnumeral⟩ |
    ⟨speaker, condition, recalled, recalled', hd, hd'⟩ | hforget⟩ := Operation.cases_of_small hsmall
  · have hperform : perform remember op p = _ :=
      (by unfold perform; rw [hd] : perform remember op p =
        performSentence op.span remember speaker condition (.goto target numeral) p).trans performSentence_goto
    have hperform' : perform remember' op' q = _ :=
      (by unfold perform; rw [hd'] : perform remember' op' q =
        performSentence op'.span remember' speaker condition (.goto target numeral') q).trans performSentence_goto
    rw [h.stage] at hperform'
    cases hpresent : p.stage.checkPresent speaker with
    | error e =>
      rw [hpresent] at hperform hperform'
      exact .error (adaptExcept_of_error hperform) (adaptExcept_of_error hperform') h
    | ok u =>
      rw [hpresent] at hperform hperform'
      by_cases hmet : isMet condition p.stage.flag = true
      · simp only [if_pos hmet] at hperform hperform'
        exact (couples_jump_recased h hplace hstyled hlenient hnumeral hacts (hleads hd hd' hpresent hmet)).of_eq
          (adaptExcept_congr hperform) (adaptExcept_congr hperform')
      · simp only [if_neg hmet] at hperform hperform'
        have hbetween : ∀ before after flag : String, smallWord (before ++ numeral ++ after ++ flag) =
            smallWord (before ++ numeral' ++ after ++ flag) := by
          intro before after flag
          simp only [smallWord_append, hnumeral]
        have hrefusal : smallWord (refusal (.goto target numeral) p.stage.flag) =
            smallWord (refusal (.goto target numeral') p.stage.flag) := hbetween _ _ _
        exact .ok (adaptExcept_of_ok hperform) (adaptExcept_of_ok hperform')
          (abreast_told h hstyled hlenient hrefusal)
  · have hperform' : perform remember' op' = perform (fun _ => pure ()) op := by
      unfold perform
      rw [hd, hd', hspan]
      exact performSentence_pop op.span remember' _ speaker condition recalled' recalled
    rw [hperform']
    have hjump : op.deed.isJump = true → f.place = Eq ∧ f.layout'.acts = f.layout.acts := by
      rw [hd]
      exact nofun
    exact (couples_perform h hop hop rfl hrem (fun _ => records_nothing _ _) (fun _ => hstdin) hjump).small
  · obtain ⟨hforget, hnot⟩ := hforget
    have hjump : op.deed.isJump = true → f.place = Eq ∧ f.layout'.acts = f.layout.acts := by
      rw [hnot]
      exact nofun
    exact (couples_perform h hop hop' hforget hrem hrem' (fun _ => hstdin) hjump).small

end PerformanceM

/-- Both find operations at a position that are the same in small letters, with nothing remembered. -/
theorem Abreast.operation_small {f : Footing} {p q : Performance} (h : Abreast f p q)
    (hsmall : f.layout.operations.map Operation.small = f.layout'.operations.map Operation.small) (n : Int) :
    ((p.script.operation? n).map Operation.forget).map Operation.small =
      ((q.script.operation? n).map Operation.forget).map Operation.small := by
  rw [← Script.operation?_forget, ← Script.operation?_forget, h.script, h.script']
  unfold Script.operation?
  rw [← at?_map, ← at?_map, hsmall]

namespace PerformanceM

variable {f : Footing} {p q : Performance} {E : Performance → Performance → Prop}

/-! ### Steps -/

/-- Headers of the debug style show the same but for case. -/
theorem debugText_recased {op op' : Operation} (hsource : SameButCase p.script.source q.script.source)
    (hstage : q.stage = p.stage) (hspan : op'.span = op.span) :
    (debugText q op').map smallWord = (debugText p op).map smallWord := by
  have hshown : (Source.showSpan q.script.source op.span Source.usualContext).map (List.map Char.toLower) =
      (Source.showSpan p.script.source op.span Source.usualContext).map (List.map Char.toLower) := by
    rw [← Source.showSpan_toLower, ← Source.showSpan_toLower, hsource]
  have hline : Source.lineOf q.script.source op.span.start = Source.lineOf p.script.source op.span.start := by
    rw [← Source.lineOf_toLower, ← hsource, Source.lineOf_toLower]
  unfold debugText
  rw [hspan, hstage, hline]
  generalize Source.showSpan q.script.source op.span Source.usualContext = shown' at hshown ⊢
  generalize Source.showSpan p.script.source op.span Source.usualContext = shown at hshown ⊢
  generalize p.stage.text = state
  cases shown with
  | error b =>
    cases shown' with
    | error b' =>
      cases hshown
      rfl
    | ok context' => cases hshown
  | ok context =>
    cases shown' with
    | error b' => cases hshown
    | ok context' =>
      cases state with
      | error b => rfl
      | ok text =>
        have hcontext : smallWord (String.ofList context') = smallWord (String.ofList context) := by
          unfold smallWord
          rw [String.toList_ofList, String.toList_ofList, Except.ok.inj hshown]
        have hbetween : ∀ before after text end' : String,
            smallWord (before ++ String.ofList context' ++ after ++ text ++ end') =
            smallWord (before ++ String.ofList context ++ after ++ text ++ end') := by
          intro before after text end'
          simp only [smallWord_append, hcontext]
        exact congrArg Except.ok (hbetween _ _ _ _)

/-- The header of the debug style, and what follows it. -/
theorem couples_announce_recased {op op' : Operation} {k k' : PerformanceM Unit}
    {Q : Unit → Unit → Performance → Performance → Prop} (h : Abreast f p q) (hstyled : f.styled)
    (hlenient : p.style.narrates = true → f.Lenient)
    (htext : (debugText q op').map smallWord = (debugText p op).map smallWord)
    (hk : ∀ out out', Abreast f (p.printed out) (q.printed out') →
      f.Couples k k' (p.printed out) (q.printed out') Q E) (hE : E p q) :
    f.Couples (if p.style = .debug then (do printLine (← ofBreakdown (debugText p op)); k) else k)
      (if q.style = .debug then (do printLine (← ofBreakdown (debugText q op')); k') else k') p q Q E := by
  rw [h.style hstyled]
  generalize debugText p op = header at htext ⊢
  generalize debugText q op' = header' at htext ⊢
  by_cases hp : p.style = .debug
  · have hnarrates : p.style.narrates = true := by
      rw [hp]
      rfl
    simp only [hp, if_true]
    cases header with
    | error b =>
      cases header' with
      | error b' =>
        cases htext
        exact .error rfl rfl hE
      | ok text' => cases htext
    | ok text =>
      cases header' with
      | error b' => cases htext
      | ok text' =>
        have hline : smallWord (text ++ "\n") = smallWord (text' ++ "\n") := by
          rw [smallWord_append, smallWord_append, Except.ok.inj htext]
        exact (hk _ _ (h.printEither (hlenient hnarrates) hline)).of_eq rfl rfl
  · simp only [hp, if_false]
    exact hk p.streams.out q.streams.out h

/-- A step, with the numerals of its faults in small letters. The header has none. -/
theorem adaptExcept_step {op : Operation} (hop : p.script.operation? p.position = some op)
    (hnot : op.isBreakpoint = false) :
    EStateM.adaptExcept Fault.small step p =
      (if p.style = .debug then (do
          printLine (← ofBreakdown (debugText p op))
          (perform (rememberAt p.position) op).adaptExcept Fault.small
          if (← get).position = p.position then advance : PerformanceM Unit)
        else (do
          (perform (rememberAt p.position) op).adaptExcept Fault.small
          if (← get).position = p.position then advance)) p := by
  have hadvance : ∀ n : Int,
      (do if (← get).position = n then advance : PerformanceM Unit).adaptExcept Fault.small =
      (do if (← get).position = n then advance : PerformanceM Unit) := by
    intro n
    funext r
    show EStateM.adaptExcept Fault.small (if r.position = n then advance else pure () : PerformanceM Unit) r =
      (if r.position = n then advance else pure () : PerformanceM Unit) r
    split <;> rfl
  rw [adaptExcept_congr (step_of_operation hop hnot)]
  generalize debugText p op = header
  by_cases hstyle : p.style = .debug
  · simp only [hstyle, if_true]
    cases header with
    | error b => rfl
    | ok text =>
      show EStateM.adaptExcept Fault.small (do
          perform (rememberAt p.position) op
          if (← get).position = p.position then advance : PerformanceM Unit)
          (p.printed (p.streams.out ++ (text ++ "\n"))) =
        (do
          (perform (rememberAt p.position) op).adaptExcept Fault.small
          if (← get).position = p.position then advance : PerformanceM Unit)
          (p.printed (p.streams.out ++ (text ++ "\n")))
      rw [adaptExcept_bind, hadvance]
  · simp only [hstyle, if_false]
    rw [adaptExcept_bind, hadvance]

/-- **Steps in texts that differ in case only end alike**, unless they are jumps that lead elsewhere. -/
theorem couples_step_recased (h : Abreast f p q) (hplace : f.place = Eq) (hstdin : f.stdin = Eq)
    (hstyled : f.styled) (hlenient : p.style.narrates = true → f.Lenient)
    (hsmall : f.layout.small = f.layout'.small) (hleads : ¬ LeadsElsewhere p q) :
    f.Couples (EStateM.adaptExcept Fault.small step) (EStateM.adaptExcept Fault.small step) p q
      (fun _ _ => Abreast f) (Abreast f) := by
  have hposition : p.position = q.position := by
    rw [← hplace]
    exact h.place
  obtain ⟨hsource, hoperations, hacts⟩ := Script.mk.inj hsmall
  have hoperation := h.operation_small hoperations p.position
  cases hop : p.script.operation? p.position with
  | none =>
    rw [hop, Option.map_none, Option.map_none, eq_comm, Option.map_map, Option.map_eq_none_iff,
      hposition] at hoperation
    exact .error (adaptExcept_of_error (bind_of_error (nextOperation_of_none hop)))
      (adaptExcept_of_error (bind_of_error (nextOperation_of_none hoperation))) h
  | some op =>
    rw [hop, Option.map_some, Option.map_some, eq_comm, Option.map_map, Option.map_eq_some_iff] at hoperation
    obtain ⟨op', hop', hsame⟩ := hoperation
    have hbreak : op'.isBreakpoint = op.isBreakpoint := by
      rw [← op'.isBreakpoint_forget, ← Operation.isBreakpoint_small, show op'.forget.small = _ from hsame,
        Operation.isBreakpoint_small, op.isBreakpoint_forget]
    cases hnot : op.isBreakpoint with
    | true =>
      refine .ok (adaptExcept_of_ok (step_of_breakpoint hop hnot))
        (adaptExcept_of_ok (step_of_breakpoint (hposition ▸ hop') (hbreak.trans hnot))) (h.move ?_)
      rw [hplace, hposition]
    | false =>
      have hrem : ∀ {speaker condition a}, op.deed = .speak speaker condition a →
          Records a.Redone f.layout (rememberAt p.position) := fun hd => h.script ▸ records_rememberAt hop hd
      have hrem' : ∀ {speaker condition a}, op'.deed = .speak speaker condition a →
          Records a.Redone f.layout' (rememberAt p.position) := fun hd => h.script' ▸ records_rememberAt hop' hd
      have hsource' : SameButCase p.script.source q.script.source := by
        rw [← h.script, ← h.script'] at hsource
        exact hsource
      refine Coupled.of_eq ?_ (adaptExcept_step hop hnot) (adaptExcept_step (hposition ▸ hop') (hbreak.trans hnot))
      rw [← hposition]
      have hspan := (Operation.cases_of_small hsame.symm).1
      refine couples_announce_recased h hstyled hlenient (debugText_recased hsource' h.stage hspan)
        (fun out out' hout => ?_) h
      apply couples_advance p.position hplace
      refine couples_perform_recased hout hplace hstdin hstyled hlenient hacts (h.faithful.operation hop)
        (h.faithful'.operation hop') hsame.symm hrem hrem' fun hd hd' hpresent hmet => ?_
      by_contra hne
      have hspeaker := checkPresent_ok_iff.mp hpresent
      refine hleads ⟨op, op', _, _, _, ⟨hop, _, _, hd, hspeaker, hmet⟩, ⟨hposition ▸ hop', _, _, hd', ?_, ?_⟩, hne⟩
      · rw [h.stage]
        exact hspeaker
      · rw [h.stage]
        exact hmet

end PerformanceM

/-- Faults that are the same in small letters are reported so, from sources that are the same in small letters. -/
theorem ReportM.reports_of_small {m m' : PerformanceM Unit} {source source' : List Char} {p q r t : Performance}
    {e e' : Fault} (hsource : source.map Char.toLower = source'.map Char.toLower) (hstage : t.stage = r.stage)
    (h : m p = .error e r) (h' : m' q = .error e' t) (hsmall : e.small = e'.small) :
    ∃ report report', reporting source none m p = .error report r ∧
      reporting source' none m' q = .error report' t ∧ report'.small = report.small := by
  cases e with
  | breakdown b =>
    cases e' with
    | breakdown b' =>
      cases hsmall
      exact ⟨_, _, reporting_of_breakdown h, reporting_of_breakdown h', rfl⟩
    | error cause' span' => cases hsmall
  | error cause span =>
    cases e' with
    | breakdown b' => cases hsmall
    | error cause' span' =>
      obtain ⟨hcause, rfl⟩ := Fault.error.inj hsmall
      refine ⟨_, _, reporting_of_error h, reporting_of_error h', ?_⟩
      cases span with
      | none =>
        simp only [Report.small, hcause, hstage, Option.map_none, Option.orElse_none, Option.orElse_eq_orElse]
      | some span => simp [Report.small, hcause, hstage, hsource]

/-! ### Runs -/

/-- The footing of performances of texts that differ in case. In a style that tells what is done, the case of what
is told may differ. -/
def Footing.recased (layout layout' : Script) (narrates : Bool) : Footing where
  layout := layout
  layout' := layout'
  place := Eq
  stdin := Eq
  styled := True
  aloud := True
  printed a b := if narrates then smallWord a = smallWord b else a = b
  styled_of_aloud := id
  printed_append text h := by
    cases narrates with
    | false => exact Footing.eq_append text h
    | true =>
      simp only [if_true] at h ⊢
      rw [smallWord_append, smallWord_append, h]

theorem Footing.recased_printed (layout layout' : Script) (narrates : Bool) (a : String) :
    (Footing.recased layout layout' narrates).printed a a := by
  unfold Footing.recased
  dsimp only
  split <;> rfl

theorem Footing.recased_lenient (layout layout' : Script) : (Footing.recased layout layout' true).Lenient := by
  intro a b text text' h htext
  have hprinted : smallWord a = smallWord b := h
  show smallWord (a ++ text) = smallWord (b ++ text')
  rw [smallWord_append, smallWord_append, hprinted, htext]

namespace Performance

/-- Both have come to the same, and have told it in the same words but for case. Basic output has nothing else to
tell. -/
structure SameTale (p q : Performance) : Prop extends SameCourse p q where
  told : smallWord q.streams.out = smallWord p.streams.out
  basic : p.style = .basic → q.streams.out = p.streams.out

/-- After `n` steps both have come to the same, and each of the steps succeeds in both, or fails in both with the
same report but for case. -/
def RunsAlike (p q : Performance) (n : Nat) : Prop :=
  (p.afterSteps n).SameTale (q.afterSteps n) ∧
    ∀ m < n, (outcomeOf ReportM.stepForward (q.afterSteps m)).mapError Report.small =
      (outcomeOf ReportM.stepForward (p.afterSteps m)).mapError Report.small

theorem Reachable.afterSteps {source : List Char} {play : Play} {p : Performance}
    (h : p.Reachable source play) (n : Nat) :
    (p.afterSteps n).Reachable source play := by
  induction n with
  | zero => exact h
  | succ n ih => exact ih.ask .step

/-- Steps do not change the style. -/
theorem Reachable.style_afterSteps {source : List Char} {play : Play} {p : Performance}
    (h : p.Reachable source play) (n : Nat) : (p.afterSteps n).style = p.style := by
  induction n with
  | zero => rfl
  | succ n ih =>
    have hstep := (PerformanceM.ends_step (h.afterSteps n).sound.stage).mono
      (fun _ _ hq => hq.style) fun _ _ hq => hq.1.style
    exact (ReportM.ends_ofScript hstep).stateAfter.trans ih

end Performance

open Performance PerformanceM

section Runs

variable {layout layout' : Script} {p q : Performance}

theorem Abreast.sameTale (h : Abreast (Footing.recased layout layout' p.style.narrates) p q) : p.SameTale q := by
  have hout := (h.printed trivial).1
  refine ⟨⟨Eq.symm h.place, h.stage, h.desk, Eq.symm h.stdin, h.reader, h.uttered⟩, ?_, fun hbasic => ?_⟩
  · unfold Footing.recased at hout
    dsimp only at hout
    split at hout
    · exact hout.symm
    · rw [hout]
  · rw [hbasic] at hout
    exact Eq.symm hout

/-- One step in both texts. -/
theorem recased_stepForward (h : Abreast (Footing.recased layout layout' p.style.narrates) p q)
    (hsmall : layout.small = layout'.small) (hleads : ¬ LeadsElsewhere p q) :
    (outcomeOf ReportM.stepForward q).mapError Report.small =
      (outcomeOf ReportM.stepForward p).mapError Report.small ∧
      Abreast (Footing.recased layout layout' p.style.narrates) (stateAfter ReportM.stepForward p)
        (stateAfter ReportM.stepForward q) := by
  have hlenient : p.style.narrates = true → (Footing.recased layout layout' p.style.narrates).Lenient := by
    intro hnarrates
    rw [hnarrates]
    exact Footing.recased_lenient layout layout'
  have hsource : p.script.source.map Char.toLower = q.script.source.map Char.toLower := by
    have hsources := (Script.mk.inj hsmall).1
    rw [← show p.script.forget = layout from h.script, ← show q.script.forget = layout' from h.script'] at hsources
    exact hsources
  have hnoExcuse := Footing.not_excuse_of_styled (f := Footing.recased layout layout' p.style.narrates) trivial
  cases couples_step_recased h rfl rfl trivial hlenient hsmall hleads with
  | ok hm hm' hr =>
    have hp : ReportM.stepForward p = .ok _ _ := ReportM.reporting_of_ok (ok_of_adaptExcept hm)
    have hq : ReportM.stepForward q = .ok _ _ := ReportM.reporting_of_ok (ok_of_adaptExcept hm')
    rw [outcomeOf_of_ok hp, outcomeOf_of_ok hq, stateAfter_of_ok hp, stateAfter_of_ok hq]
    exact ⟨rfl, hr⟩
  | error hm hm' hr =>
    obtain ⟨e, he, hesmall⟩ := error_of_adaptExcept hm
    obtain ⟨e', he', hesmall'⟩ := error_of_adaptExcept hm'
    obtain ⟨report, report', hp, hq, hreports⟩ :=
      ReportM.reports_of_small hsource hr.stage he he' (hesmall.trans hesmall'.symm)
    have hp : ReportM.stepForward p = .error report _ := hp
    have hq : ReportM.stepForward q = .error report' _ := hq
    unfold outcomeOf
    rw [stateAfter_of_error hp, stateAfter_of_error hq, hp, hq]
    exact ⟨congrArg Except.error hreports, hr⟩
  | left _ he => exact absurd he (hnoExcuse _)
  | right _ he => exact absurd he (hnoExcuse _)

/-- Performances of texts that differ in case stay abreast as long as no jump leads elsewhere. By induction on the
steps. -/
theorem abreast_afterSteps {source : List Char} {play : Play} (hp : p.Reachable source play)
    (h : Abreast (Footing.recased layout layout' p.style.narrates) p q) (hsmall : layout.small = layout'.small) :
    ∀ n, (∀ m < n, ¬ LeadsElsewhere (p.afterSteps m) (q.afterSteps m)) →
      Abreast (Footing.recased layout layout' (p.afterSteps n).style.narrates) (p.afterSteps n)
        (q.afterSteps n) := by
  intro n
  induction n with
  | zero => exact fun _ => h
  | succ n ih =>
    intro hleads
    have habreast := ih fun m hm => hleads m (Nat.lt_succ_of_lt hm)
    have hstep := (recased_stepForward habreast hsmall (hleads n (Nat.lt_succ_self n))).2
    rw [hp.style_afterSteps] at hstep ⊢
    exact hstep

/-- **Performances of texts that differ in case run alike** as long as no jump leads elsewhere. -/
theorem runsAlike_of_leads {source : List Char} {play : Play} (hp : p.Reachable source play)
    (h : Abreast (Footing.recased layout layout' p.style.narrates) p q)
    (hsmall : layout.small = layout'.small) (n : Nat)
    (hleads : ∀ m < n, ¬ LeadsElsewhere (p.afterSteps m) (q.afterSteps m)) : p.RunsAlike q n := by
  refine ⟨(abreast_afterSteps hp h hsmall n hleads).sameTale, fun m hm => ?_⟩
  have habreast := abreast_afterSteps hp h hsmall m fun k hk => hleads k (Nat.lt_trans hk hm)
  exact (recased_stepForward habreast hsmall (hleads m hm)).1

end Runs

end Playhouse
