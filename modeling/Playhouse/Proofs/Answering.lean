import Playhouse.Proofs.Mishaps
import Playhouse.Proofs.Speakers

/-!
# Playhouse.Proofs.Answering — every line is answered

Whatever is typed at the console is answered, with a result, a message or an error that is told, and the console
asks for the next line or is left. What ends it otherwise is listed by `LineStops`: the user leaves, there is
nothing left to be read, somebody is named twice in an exeunt, or a value is asked for while nobody has spoken yet.
There is no other reason as long as the numbers that a line involves have at most 31 bits. Main statement:
`console_answers_lines`.
-/

namespace Playhouse

open Grammar Source Number Performance
open PerformanceM (asked isOver Stopped)
open ReportM

/-! ### What is typed -/

/-- The line is no command, and is read as `said`. -/
structure Types (line : List Char) (said : ConsoleLine) : Prop where
  notCommand : String.ofList line ∉ commands
  read : readAs .replInput ConsoleLine.ofTree? (line ++ ['\n']) = .ok said

theorem Types.unique {line : List Char} {said said' : ConsoleLine} (h : Types line said) (h' : Types line said') :
    said = said' := Except.ok.inj (h.read.symm.trans h'.read)

/-- The operations that a console line gives to perform. -/
def ConsoleLine.operations (speaker : Option String) : ConsoleLine → List Operation
  | .event (.line _ name ss) => ss.map (Operation.ofSentence (Name.normalize (Name.normalizeWords name)))
  | .event e => Operation.ofEvent e
  | .sentences ss => speaker.elim [] fun name => ss.map (Operation.ofSentence (Name.normalize name))
  | .value _ _ | .display _ => []

/-- Who speaks of the value that a console line asks for. -/
def ConsoleLine.asker? (speaker : Option String) : ConsoleLine → Option String
  | .value name _ => name.map Name.normalizeWords <|> speaker
  | .event _ | .sentences _ | .display _ => none

/-- Whoever says the sentences of a line, they are written there. -/
theorem solid_of_line {text : List Char} {t : Tree} {span : Span} {name : List String} {ss : List Sentence}
    {lo hi : Nat} (speaker : String) (h : t.Written text lo hi)
    (he : Event.ofTree? t = some (.line span name ss)) :
    ∀ op ∈ ss.map (Operation.ofSentence speaker), ∀ s ∈ op.spans, Solid text s := by
  intro op hop
  obtain ⟨s, hs, rfl⟩ := List.mem_map.mp hop
  have hmem : Operation.ofSentence (Name.normalizeWords name) s ∈ Operation.ofEvent (.line span name ss) :=
    List.mem_map_of_mem hs
  -- where an operation is written does not depend on who speaks
  have hwritten := written_of_event h he hmem
  exact fun x hx => (hwritten x hx).solid

/-- The operations of a line, and the value that it asks for, are written in it. -/
theorem solid_of_console {text : List Char} {said : ConsoleLine}
    (h : readAs .replInput ConsoleLine.ofTree? text = .ok said) :
    (∀ speaker, ∀ op ∈ said.operations speaker, ∀ s ∈ op.spans, Solid text s) ∧
      ∀ name v, said = .value name v → ∀ s ∈ (Expression.ofValue v).spans, Solid text s := by
  obtain ⟨t, c, seen, hread, hsaid⟩ := exists_tree_of_readAs h
  obtain ⟨hwritten, -⟩ := written_of_rule (callDepth text) (Cursor.Of.start text) hread
  unfold ConsoleLine.ofTree? at hsaid
  split at hsaid
  · next span fields =>
    simp only [Option.bind_eq_bind, Option.bind_eq_some_iff] at hsaid
    obtain ⟨te, hte, ts, hts, tv, htv, hsaid⟩ := hsaid
    split at hsaid
    · simp only [Option.bind_eq_some_iff, Option.pure_def, Option.some.injEq] at hsaid
      obtain ⟨_, _, _, _, rfl⟩ := hsaid
      exact ⟨fun _ _ hop => absurd hop List.not_mem_nil, nofun⟩
    · simp only [Option.bind_eq_some_iff, Option.pure_def, Option.some.injEq] at hsaid
      obtain ⟨_, _, _, _, v, hv, rfl⟩ := hsaid
      refine ⟨fun _ _ hop => absurd hop List.not_mem_nil, ?_⟩
      rintro _ _ ⟨⟩
      exact fun s hs => (located_of_value (hwritten.field htv) hv s hs).solid
    · simp only [Option.bind_eq_some_iff, Option.pure_def, Option.some.injEq] at hsaid
      obtain ⟨us, hus, ss, hss, rfl⟩ := hsaid
      refine ⟨fun speaker op hop => ?_, nofun⟩
      cases speaker with
      | none => cases hop
      | some name =>
        obtain ⟨s, hs, rfl⟩ := List.mem_map.mp hop
        obtain ⟨u, hu, hsentence⟩ := exists_member Tree.Written.members (hwritten.field hts) hus hss hs
        exact fun x hx => (written_of_sentence _ hu hsentence x hx).solid
    · simp only [Option.bind_eq_some_iff, Option.pure_def, Option.some.injEq] at hsaid
      obtain ⟨e, he, rfl⟩ := hsaid
      refine ⟨fun speaker op hop => ?_, nofun⟩
      cases e with
      | line span name ss => exact solid_of_line _ (hwritten.field hte) he op hop
      | breakpoint | entrance | exit | exeunt =>
        exact fun x hx => (written_of_event (hwritten.field hte) he hop x hx).solid
  · cases hsaid

/-! ### What is involved -/

/-- The numbers that a character holds. -/
def Character.Holds (c : Character) (n : Int) : Prop := n = c.value ∨ n ∈ c.stack

/-- The numbers that anybody holds. -/
def Stage.Holds (s : Stage) (n : Int) : Prop := ∃ x ∈ s.cast, x.2.Holds n

/-- `P` holds where a performance of the operations comes to one of them. -/
inductive Comes (P : Operation → Performance → Prop) : List Operation → Performance → Prop
  | here {op : Operation} {ops : List Operation} {p : Performance} : P op p → Comes P (op :: ops) p
  | later {op : Operation} {ops : List Operation} {p q : Performance} : performApart op p = .ok () q →
      Comes P ops q →
      Comes P (op :: ops) p

/-- The numbers that an operation touches, and those that are shown with its error. -/
def Operation.Involves (op : Operation) (m : PerformanceM Unit) (p : Performance) (n : Int) : Prop :=
  op.deed.Touches p n ∨ ∃ cause span q, m p = .error (.error cause span) q ∧ q.stage.Holds n

/-- The numbers that are met when a value is worked out, and those that are shown with its error. -/
def Value.Involves (v : Value) (speaker : String) (p : Performance) (n : Int) : Prop :=
  (speaker ∈ p.stage.present ∧ (Expression.ofValue v).Meets speaker p.stage n) ∨
    (∃ cause span, ((Expression.ofValue v).evaluate speaker p.stage).1 = .error (.error cause span)) ∧
    p.stage.Holds n

/-- The numbers that an answer to the line has to do with. -/
inductive LineInvolves (line : List Char) (speaker : Option String) (d : Performance) : Int → Prop
  | state {n : Int} : String.ofList line = "state" → d.stage.Holds n → LineInvolves line speaker d n
  | next {op : Operation} {n : Int} : String.ofList line = "next" → d.script.operation? d.position = some op →
      op.Involves PerformanceM.step d n → LineInvolves line speaker d n
  | performing {said : ConsoleLine} {n : Int} : Types line said →
      Comes (fun op p => op.Involves (performApart op) p n) (said.operations speaker) d →
        LineInvolves line speaker d n
  | value {name : Option (List String)} {v : Value} {who : String} {n : Int} : Types line (.value name v) →
      (ConsoleLine.value name v).asker? speaker = some who → v.Involves (Name.normalize who) d n →
      LineInvolves line speaker d n
  | display {name : List String} {c : Character} {n : Int} : Types line (.display name) →
      d.stage.character (Name.normalizeWords name) = .ok c → c.Holds n → LineInvolves line speaker d n

/-- What ends the console at a line. -/
inductive LineStops (line : List Char) (speaker : Option String) (d : Performance) : Breakdown → Prop
  | leave : String.ofList line = "exit" ∨ String.ofList line = "quit" → LineStops line speaker d .quit
  | next {op : Operation} {b : Breakdown} : String.ofList line = "next" →
      d.script.operation? d.position = some op →
      op.deed.Stops d b → LineStops line speaker d b
  | performing {said : ConsoleLine} {b : Breakdown} : Types line said →
      Comes (fun op p => op.deed.Stops p b) (said.operations speaker) d → LineStops line speaker d b
  | nobody {name : Option (List String)} {v : Value} : Types line (.value name v) →
      (ConsoleLine.value name v).asker? speaker = none → LineStops line speaker d .nobodySpeaking

section Comes

variable {P : Operation → Performance → Prop} {op : Operation} {ops : List Operation} {p q : Performance}

theorem comes_cons_of_ok (h : performApart op p = .ok () q) : Comes P (op :: ops) p ↔ P op p ∨ Comes P ops q := by
  constructor
  · rintro (hhere | ⟨hok, hlater⟩)
    · exact .inl hhere
    · cases h.symm.trans hok
      exact .inr hlater
  · rintro (hhere | hlater)
    · exact .here hhere
    · exact .later h hlater

theorem comes_cons_of_error {f : Fault} (h : performApart op p = .error f q) : Comes P (op :: ops) p ↔ P op p := by
  constructor
  · rintro (hhere | ⟨hok, -⟩)
    · exact hhere
    · cases h.symm.trans hok
  · exact .here

end Comes

section Lines

variable {line : List Char} {speaker : Option String} {d : Performance} {b : Breakdown}

theorem LineStops.command (h : LineStops line speaker d b) (hcommand : String.ofList line ∈ commands) :
    (String.ofList line = "exit" ∨ String.ofList line = "quit") ∧ b = .quit ∨
      String.ofList line = "next" ∧ ∃ op, d.script.operation? d.position = some op ∧ op.deed.Stops d b := by
  cases h with
  | leave hline => exact .inl ⟨hline, rfl⟩
  | next hline hop hstops => exact .inr ⟨hline, _, hop, hstops⟩
  | performing htypes _ => exact absurd hcommand htypes.notCommand
  | nobody htypes _ => exact absurd hcommand htypes.notCommand

theorem LineStops.typed (h : LineStops line speaker d b) (hcommand : String.ofList line ∉ commands) :
    ∃ said, Types line said ∧ (Comes (fun op p => op.deed.Stops p b) (said.operations speaker) d ∨
      (∃ name v, said = .value name v) ∧ said.asker? speaker = none ∧ b = .nobodySpeaking) := by
  cases h with
  | leave hline =>
    obtain hline | hline := hline
    · exact absurd (hline ▸ by decide) hcommand
    · exact absurd (hline ▸ by decide) hcommand
  | next hline _ _ => exact absurd (hline ▸ by decide) hcommand
  | performing htypes hcomes => exact ⟨_, htypes, .inl hcomes⟩
  | nobody htypes hnobody => exact ⟨_, htypes, .inr ⟨⟨_, _, rfl⟩, hnobody, rfl⟩⟩

end Lines

/-! ### Texts -/

theorem exists_numeral {n : Int} (h : ¬ Vast n) : ∃ t, numeral n = .ok t := by
  have hvast : ∀ b, numeral n = .error b → Vast n := fun b => vast_of_numeral
  generalize numeral n = text at hvast ⊢
  cases text with
  | ok t => exact ⟨t, rfl⟩
  | error b => exact absurd (hvast b rfl) h

theorem Character.legible_or_vast (c : Character) : c.Legible ∨ ∃ n, c.Holds n ∧ Vast n := by
  by_cases hvast : ∃ n, c.Holds n ∧ Vast n
  · exact .inr hvast
  · have hsmall : ∀ n, c.Holds n → ¬ Vast n := fun n hn hv => hvast ⟨n, hn, hv⟩
    exact .inl ⟨exists_numeral (hsmall _ (.inl rfl)), fun n hn => exists_numeral (hsmall n (.inr hn))⟩

/-- A stage can be shown unless somebody holds a vast number. -/
theorem Stage.legible_or_vast (s : Stage) : s.Legible ∨ ∃ n, s.Holds n ∧ Vast n := by
  by_cases hvast : ∃ n, s.Holds n ∧ Vast n
  · exact .inr hvast
  · refine .inl fun x hx => x.2.legible_or_vast.resolve_right ?_
    rintro ⟨n, hn, hv⟩
    exact hvast ⟨n, ⟨x, hx, hn⟩, hv⟩

/-- The report is of a breakdown as `H` says, or can be told. There may be others only if `L` holds. -/
structure Unanswered (H : Breakdown → Prop) (L : Prop) (r : Report) : Prop where
  stops : ∀ b, H b → r = .breakdown b
  only : ∀ b, r = .breakdown b → H b ∨ L
  told : (∀ b, r ≠ .breakdown b) → (∃ text, r.text = .ok text) ∨ L

namespace Unanswered

variable {H H' : Breakdown → Prop} {L L' : Prop} {r : Report}

theorem mono (h : Unanswered H L r) (hH : ∀ b, H' b ↔ H b) (hL : L → L') : Unanswered H' L' r where
  stops b hb := h.stops b ((hH b).mp hb)
  only b hb := (h.only b hb).imp (hH b).mpr hL
  told hr := (h.told hr).imp_right hL

theorem of_text (hnone : ∀ b, ¬ H b) (hr : ∀ b, r ≠ .breakdown b) (htext : ∃ text, r.text = .ok text) :
    Unanswered H L r :=
  ⟨fun b hb => absurd hb (hnone b), fun b hb => absurd hb (hr b), fun _ => .inl htext⟩

theorem of_vast {b : Breakdown} (hnone : ∀ b, ¬ H b) (hL : L) : Unanswered H L (.breakdown b) :=
  ⟨fun b hb => absurd hb (hnone b), fun _ _ => .inr hL, fun hr => absurd rfl (hr b)⟩

theorem of_breakdown {b : Breakdown} (hH : ∀ b', H b' ↔ b' = b) : Unanswered H L (.breakdown b) where
  stops b' hb := congrArg Report.breakdown ((hH b').mp hb).symm
  only b' hb := .inl ((hH b').mpr (Report.breakdown.inj hb).symm)
  told hr := absurd rfl (hr b)

/-- If no vast number is involved, then what is not told is what stops the console. -/
theorem tell_error_iff (h : Unanswered H L r) (hL : ¬ L) {d : Performance} {r' : Report} :
    (∃ t, tell r d = .error r' t) ↔ ∃ b, H b ∧ r' = .breakdown b := by
  constructor
  · rintro ⟨t, ht⟩
    by_cases hr : ∃ b, r = .breakdown b
    · obtain ⟨b, rfl⟩ := hr
      cases ht
      exact ⟨b, (h.only b rfl).resolve_right hL, rfl⟩
    · have hr : ∀ b, r ≠ .breakdown b := fun b hb => hr ⟨b, hb⟩
      obtain ⟨text, htext⟩ := (h.told hr).resolve_right hL
      obtain ⟨e, he⟩ := tell_of_text (d := d) hr htext
      rw [he] at ht
      cases ht
  · rintro ⟨b, hb, rfl⟩
    rw [h.stops b hb]
    exact ⟨d, rfl⟩

end Unanswered

/-- What went wrong is told where it is written in `text`, with the stage. -/
theorem unanswered_reporting {α : Type} {m : PerformanceM α} {p : Performance} {Q : α → Performance → Prop}
    {text : List Char} {fallback : Option Span} (spans : List Span) {H : Breakdown → Prop} {L : Prop}
    (h : Ends m p Q (fun f _ => Mishap spans H L f)) (hfallback : ∀ s ∈ fallback, s ∈ spans)
    (hsolid : ∀ s ∈ spans, Solid text s)
    (hshown : ∀ cause span q n, m p = .error (.error cause span) q → q.stage.Holds n → Vast n → L) :
    Ends (reporting text fallback m) p Q (fun r _ => Unanswered H L r) := by
  cases hm : m p with
  | ok a q => exact ends_of_ok (reporting_of_ok hm) (h.ok hm)
  | error f q =>
    have hmishap := h.error hm
    cases f with
    | breakdown b =>
      refine ends_of_error (reporting_of_breakdown hm)
        ⟨fun b' hb => ?_, fun b' hb => ?_, fun hr => absurd rfl (hr b)⟩
      · rw [Fault.breakdown.inj (hmishap.stops b' hb)]
      · exact hmishap.only b' (congrArg Fault.breakdown (Report.breakdown.inj hb))
    | error cause span =>
      -- the place can be shown as it is written in the text, the stage unless somebody holds a vast number
      refine ends_of_error (reporting_of_error hm) ⟨fun b hb => (nomatch hmishap.stops b hb), nofun, fun _ => ?_⟩
      obtain hlegible | ⟨n, hn, hvast⟩ := q.stage.legible_or_vast
      · refine .inl (exists_errorText (fun s hs => ?_) ?_)
        · cases span with
          | none => exact hsolid s (hfallback s hs)
          | some s' =>
            cases hs
            exact hsolid _ hmishap.placed
        · rintro s ⟨⟩
          exact hlegible.text
      · exact .inr (hshown cause span q n hm hn hvast)

/-! ### Answers -/

/-- At the console, in a performance of the play. -/
structure Performance.Attended (source : List Char) (play : Play) (limit : Nat) (p : Performance) : Prop where
  sound : p.Sound source play
  console : p.AtConsole limit

theorem lasting_sound (source : List Char) (play : Play) : Lasting (Sound source play) where
  hear _ h := ⟨h.numerals, h.script, h.stage, h.nonneg, h.le_length⟩
  print _ _ h := ⟨h.numerals, h.script, h.stage, h.nonneg, h.le_length⟩
  apart op h := sound_performApart op h
  step h := (PerformanceM.ends_step h.stage).mono (fun _ _ hq => h.stepped hq) fun _ _ hq => h.performed hq.1

theorem lasting_attended (source : List Char) (play : Play) (limit : Nat) :
    Lasting (Attended source play limit) := by
  have hsound := lasting_sound source play
  have hconsole := PerformanceM.lasting_atConsole limit
  exact {
    hear := fun prompt h => ⟨hsound.hear prompt h.sound, hconsole.hear prompt h.console⟩
    print := fun out err h => ⟨hsound.print out err h.sound, hconsole.print out err h.console⟩
    apart := fun op h => ((hsound.apart op h.sound).and (hconsole.apart op h.console)).mono
      (fun _ _ hq => ⟨hq.1, hq.2⟩) fun _ _ hq => ⟨hq.1, hq.2⟩
    step := fun h => ((hsound.step h.sound).and (hconsole.step h.console)).mono
      (fun _ _ hq => ⟨hq.1, hq.2⟩) fun _ _ hq => ⟨hq.1, hq.2⟩ }

section Answers

variable {source line : List Char} {play : Play} {limit : Nat} {d : Performance} {speaker : Option String}

theorem Performance.Attended.acts_ne_nil (hd : d.Attended source play limit) (hacts : play.acts ≠ []) :
    d.script.acts ≠ [] := by
  rw [hd.sound.acts]
  cases h : play.acts with
  | nil => exact absurd h hacts
  | cons a as => exact List.cons_ne_nil _ _

/-- Something that belongs to an answer: it is done, or it is told why not, or it stops the console. -/
abbrev Answers {α : Type} (source : List Char) (play : Play) (limit : Nat) (m : ReportM α) (d : Performance)
    (H : Breakdown → Prop) (L : Prop) : Prop :=
  Ends m d (fun _ q => q.Attended source play limit ∧ ∀ b, ¬ H b) (fun r _ => Unanswered H L r)

/-- Perform operations that are typed at the console, one after the other. -/
def performAll (text : List Char) (ops : List Operation) : ReportM Unit :=
  ops.forM fun op => reporting text (some op.span) (performApart op)

theorem answers_performAll {text : List Char} (hacts : play.acts ≠ []) (ops : List Operation) :
    ∀ {d : Performance}, d.Attended source play limit → (∀ op ∈ ops, ∀ s ∈ op.spans, Solid text s) →
      Answers source play limit (performAll text ops) d (fun b => Comes (fun op p => op.deed.Stops p b) ops d)
        (∃ n, Comes (fun op p => op.Involves (performApart op) p n) ops d ∧ Vast n) := by
  induction ops with
  | nil => exact fun hd _ => ends_pure ⟨hd, fun b => nofun⟩
  | cons op ops ih =>
    intro d hd hsolid
    obtain ⟨hsolid, hrest⟩ := List.forall_mem_cons.mp hsolid
    have hstopped := stopped_performApart op hd.console hd.sound.stage (hd.acts_ne_nil hacts)
    show Ends (reporting text (some op.span) (performApart op) >>= fun _ => performAll text ops) d _ _
    apply ends_bind
    -- what is done, and where it leads, decides whether the rest is come to at all
    cases hop : performApart op d with
    | ok u q =>
      have hiff : ∀ b, Comes (fun op p => op.deed.Stops p b) (op :: ops) d ↔
          Comes (fun op p => op.deed.Stops p b) ops q :=
        fun b => (comes_cons_of_ok hop).trans (or_iff_right (hstopped.ok hop b))
      have hq := ((lasting_attended source play limit).apart op hd).ok hop
      refine ends_of_ok (reporting_of_ok hop) ((ih hq hrest).mono ?_ ?_)
      · exact fun _ t ht => ⟨ht.1, fun b hb => ht.2 b ((hiff b).mp hb)⟩
      · refine fun r _ hr => hr.mono hiff ?_
        rintro ⟨n, hn, hvast⟩
        exact ⟨n, .later hop hn, hvast⟩
    | error f q =>
      have hreported : Ends (reporting text (some op.span) (performApart op)) d (fun _ _ => False) (fun r _ =>
          Unanswered (fun b => op.deed.Stops d b) (∃ n, op.Involves (performApart op) d n ∧ Vast n) r) := by
        refine unanswered_reporting op.spans ⟨fun hok => (nomatch hop.symm.trans hok), fun herror => ?_⟩
          (fun s hs => ?_) hsolid fun cause span q n hm hn hvast => ⟨n, .inr ⟨cause, span, q, hm, hn⟩, hvast⟩
        · refine (hstopped.error herror).mono (List.Subset.refl _) (fun b => Iff.rfl) ?_
          rintro ⟨n, hn, hvast⟩
          exact ⟨n, .inl hn, hvast⟩
        · cases hs
          exact List.mem_cons_self
      refine hreported.mono (fun _ _ h => h.elim) fun r _ hr => hr.mono (fun b => comes_cons_of_error hop) ?_
      rintro ⟨n, hn, hvast⟩
      exact ⟨n, .here hn, hvast⟩

/-- What is shown after a line can always be shown. -/
theorem ends_showProgress_attended (hplay : readAs .play Play.ofTree? source = .ok play) (before : Int)
    (speaker : Option String) (hd : d.Attended source play limit) :
    Ends (showProgress before speaker) d (fun _ _ => True) (fun _ _ => False) := by
  unfold showProgress playOver
  refine ends_bind (ends_get ?_)
  split
  · exact ends_pure trivial
  · refine ends_bind (ends_bind (ends_get (ends_pure ?_)))
    split
    · exact ends_pure trivial
    · next hover =>
      obtain ⟨text, htext⟩ := exists_nextOperationText hplay hd.sound (Bool.eq_false_iff.mpr hover)
      have hprint : Ends (bare (PerformanceM.printLine ("\n-----\n" ++ text ++ "\n-----\n"))) d (fun _ _ => True)
          (fun _ _ => False) := ends_bare (ends_modify trivial)
      exact ends_bind (ends_of_ok htext (hprint.bind fun _ _ _ => ends_pure trivial))

/-- A sentence that is typed is an operation that is typed. -/
theorem saySentences_eq (text : List Char) (name : String) (ss : List Sentence) :
    saySentences text (some name) ss =
      (do performAll text (ss.map (Operation.ofSentence (Name.normalize name))); return some name) := by
  unfold saySentences performAll
  simp only [List.forM_eq_forM, List.forM_map]
  rfl

theorem performEvent_eq {text : List Char} {e : Event} {op : Operation} (hop : Operation.ofEvent e = [op])
    (hspan : op.span = e.span) : performEvent text e = performAll text [op] := by
  funext d
  unfold performEvent performAll
  rw [hop, ← hspan]
  show reporting text (some op.span) (performApart op >>= fun _ => pure ()) d =
    (reporting text (some op.span) (performApart op) >>= fun _ => pure ()) d
  cases hd : performApart op d with
  | ok u q =>
    rw [bind_of_ok (reporting_of_ok hd)]
    exact reporting_of_ok (bind_of_ok hd)
  | error f q =>
    have hfail := bind_of_error (f := fun _ => (pure () : PerformanceM Unit)) hd
    cases f with
    | breakdown b => rw [bind_of_error (reporting_of_breakdown hd), reporting_of_breakdown hfail]
    | error cause span => rw [bind_of_error (reporting_of_error hd), reporting_of_error hfail]

theorem answers_printLine (content : Except Breakdown String) {H : Breakdown → Prop} {L : Prop}
    (hd : d.Attended source play limit) (hnone : ∀ b, ¬ H b) (hL : ∀ b, content = .error b → L) :
    Answers source play limit (bare do PerformanceM.printLine (← PerformanceM.ofBreakdown content)) d H L := by
  cases hcontent : content with
  | ok text =>
    exact ends_of_ok (bare_printLine rfl) ⟨(lasting_attended source play limit).print _ d.streams.err hd, hnone⟩
  | error b => exact ends_of_error rfl (.of_vast hnone (hL b hcontent))

theorem vast_of_stage {s : Stage} {b : Breakdown} (h : s.text = .error b) : ∃ n, s.Holds n ∧ Vast n := by
  refine s.legible_or_vast.resolve_left fun hlegible => ?_
  obtain ⟨text, htext⟩ := hlegible.text
  rw [h] at htext
  cases htext

theorem vast_of_character {c : Character} {b : Breakdown} (h : c.text = .error b) : ∃ n, c.Holds n ∧ Vast n := by
  refine c.legible_or_vast.resolve_left fun hlegible => ?_
  obtain ⟨text, htext⟩ := hlegible.text
  rw [h] at htext
  cases htext

/-! ### Lines -/

theorem lineStops_iff {said : ConsoleLine} {b : Breakdown} (h : Types line said) : LineStops line speaker d b ↔
    Comes (fun op p => op.deed.Stops p b) (said.operations speaker) d ∨
      (∃ name v, said = .value name v) ∧ said.asker? speaker = none ∧ b = .nobodySpeaking := by
  constructor
  · intro hstops
    obtain ⟨said', htypes, hcase⟩ := hstops.typed h.notCommand
    rw [h.unique htypes]
    exact hcase
  · rintro (hcomes | ⟨⟨name, v, rfl⟩, hnobody, rfl⟩)
    · exact .performing h hcomes
    · exact .nobody h hnobody

/-- A line that gives operations to perform. -/
theorem answers_performing {said : ConsoleLine} (speaker : Option String) (hacts : play.acts ≠ [])
    (hd : d.Attended source play limit) (h : Types line said) (hvalue : ∀ name v, said ≠ .value name v)
    (next : Option String) :
    Answers source play limit (do performAll (line ++ ['\n']) (said.operations speaker); return next) d
      (LineStops line speaker d) (∃ n, LineInvolves line speaker d n ∧ Vast n) := by
  have hiff : ∀ b, LineStops line speaker d b ↔
      Comes (fun op p => op.deed.Stops p b) (said.operations speaker) d := by
    refine fun b => (lineStops_iff h).trans (or_iff_left ?_)
    rintro ⟨⟨name, v, hsaid⟩, -⟩
    exact hvalue name v hsaid
  have hperform := answers_performAll hacts (said.operations speaker) hd ((solid_of_console h.read).1 speaker)
  refine (hperform.mono ?_ ?_).bind fun _ _ hq => ends_pure hq
  · exact fun _ q hq => ⟨hq.1, fun b hb => hq.2 b ((hiff b).mp hb)⟩
  · refine fun r _ hr => hr.mono hiff ?_
    rintro ⟨n, hn, hvast⟩
    exact ⟨n, .performing h hn, hvast⟩

/-- A value is worked out, or it is told why not. -/
theorem answers_evaluateValue {text : List Char} {v : Value} {who : String} {H : Breakdown → Prop} {L : Prop}
    (hd : d.Attended source play limit) (hsolid : ∀ s ∈ (Expression.ofValue v).spans, Solid text s)
    (hnone : ∀ b, ¬ H b) (hL : ∀ n, v.Involves (Name.normalize who) d n → Vast n → L) :
    Ends (evaluateValue text v who) d
      (fun n q => q.Attended source play limit ∧ v.Involves (Name.normalize who) d n)
        (fun r _ => Unanswered H L r) := by
  have hends := ends_evaluateApart d (Name.normalize who) (Expression.ofValue v)
  have hpresent : ∀ {n}, ((Expression.ofValue v).evaluate (Name.normalize who) d.stage).1 = .ok n →
      Name.normalize who ∈ d.stage.present := by
    intro n hn
    unfold Expression.evaluate at hn
    split at hn
    · cases hn
    · next hcheck => exact checkPresent_ok_iff.mp hcheck
  refine unanswered_reporting (Expression.ofValue v).spans (hends.mono ?_ ?_) ?_ hsolid ?_
  · rintro n q ⟨rfl, hn⟩
    exact ⟨hd, .inl ⟨hpresent hn, Expression.meets_of_evaluate hn⟩⟩
  · rintro f q ⟨rfl, hf⟩
    by_cases hs : Name.normalize who ∈ q.stage.present
    · refine .of_evaluate hs hf (List.Subset.refl _) hnone ?_
      rintro ⟨n, hmeets, hvast⟩
      exact hL n (.inl ⟨hs, hmeets⟩) hvast
    · unfold Expression.evaluate at hf
      split at hf
      · next hcheck =>
        cases hf
        obtain ⟨cause, rfl⟩ := checkPresent_error hcheck
        exact .of_unplaced hnone
      · next hcheck => exact absurd (checkPresent_ok_iff.mp hcheck) hs
  · rintro s ⟨⟩
    cases v <;> exact List.mem_cons_self
  · intro cause span q n hm hn hvast
    obtain ⟨rfl, herror⟩ := hends.error hm
    exact hL n (.inr ⟨⟨cause, span, herror⟩, hn⟩) hvast

theorem answers_value {name : Option (List String)} {v : Value} (hd : d.Attended source play limit)
    (h : Types line (.value name v)) :
    Answers source play limit (performConsoleLine line speaker) d (LineStops line speaker d)
      (∃ n, LineInvolves line speaker d n ∧ Vast n) := by
  unfold performConsoleLine
  refine ends_bind (ends_of_ok (readConsoleLine_of_read h.read) ?_)
  dsimp only
  split
  · next hnobody =>
    refine ends_throw (.of_breakdown fun b => (lineStops_iff h).trans ⟨?_, ?_⟩)
    · rintro (hcomes | ⟨-, -, rfl⟩)
      · cases hcomes
      · rfl
    · rintro rfl
      exact .inr ⟨⟨name, v, rfl⟩, hnobody, rfl⟩
  · next who hwho =>
    have hnone : ∀ b, ¬ LineStops line speaker d b := by
      rintro b hb
      obtain hcomes | ⟨-, hnobody, -⟩ := (lineStops_iff h).mp hb
      · cases hcomes
      · cases hwho.symm.trans hnobody
    have hsolid := (solid_of_console h.read).2 name v rfl
    have hinvolves : ∀ n, v.Involves (Name.normalize who) d n → Vast n →
        ∃ n, LineInvolves line speaker d n ∧ Vast n :=
      fun n hn hvast => ⟨n, .value h hwho hn, hvast⟩
    refine (answers_evaluateValue hd hsolid hnone hinvolves).bind fun n q hq => ?_
    have hprint := answers_printLine (numeral n) hq.1 hnone
      fun b hb => hinvolves n hq.2 (vast_of_numeral hb)
    exact hprint.bind fun _ _ ht => ends_pure ht

theorem answers_display {name : List String} (hd : d.Attended source play limit) (h : Types line (.display name)) :
    Answers source play limit (performConsoleLine line speaker) d (LineStops line speaker d)
      (∃ n, LineInvolves line speaker d n ∧ Vast n) := by
  have hnone : ∀ b, ¬ LineStops line speaker d b := by
    rintro b hb
    obtain hcomes | ⟨⟨_, _, hvalue⟩, -⟩ := (lineStops_iff h).mp hb
    · cases hcomes
    · cases hvalue
  unfold performConsoleLine
  refine ends_bind (ends_of_ok (readConsoleLine_of_read h.read) ?_)
  dsimp only
  cases hc : d.stage.character (Name.normalizeWords name) with
  | error f =>
    obtain ⟨cause, rfl⟩ := Stage.character_error hc
    have hlook : bare (PerformanceM.look (·.character (Name.normalizeWords name))) d =
        .error (.error cause none none) d := by
      unfold bare PerformanceM.look
      simp only [hc]
    exact ends_of_error (bind_of_error hlook) (.of_text hnone nofun ⟨_, rfl⟩)
  | ok c =>
    have hlook : bare (PerformanceM.look (·.character (Name.normalizeWords name))) d = .ok c d := by
      unfold bare PerformanceM.look
      simp only [hc]
    refine ends_bind (ends_of_ok hlook ?_)
    refine Ends.bind (answers_printLine c.text hd hnone fun b hb => ?_) fun _ _ ht => ends_pure ht
    obtain ⟨n, hn, hvast⟩ := vast_of_character hb
    exact ⟨n, .display h hc hn, hvast⟩

theorem answers_typed {said : ConsoleLine} (hacts : play.acts ≠ []) (hd : d.Attended source play limit)
    (h : Types line said) :
    Answers source play limit (performConsoleLine line speaker) d (LineStops line speaker d)
      (∃ n, LineInvolves line speaker d n ∧ Vast n) := by
  have hread := readConsoleLine_of_read (d := d) h.read
  cases said with
  | event e =>
    have hperform := fun next => answers_performing speaker hacts hd h nofun next
    have hdirection : ∀ {op}, Operation.ofEvent e = [op] → op.span = e.span →
        (∀ span name ss, e ≠ .line span name ss) →
        Answers source play limit (do performEvent (line ++ ['\n']) e; return speaker) d (LineStops line speaker d)
          (∃ n, LineInvolves line speaker d n ∧ Vast n) := by
      intro op hop hspan hline
      rw [performEvent_eq hop hspan, ← hop]
      cases e with
      | line span name ss => exact absurd rfl (hline span name ss)
      | breakpoint | entrance | exit | exeunt => exact hperform speaker
    unfold performConsoleLine
    refine ends_bind (ends_of_ok hread ?_)
    cases e with
    | line span name ss =>
      dsimp only
      rw [saySentences_eq]
      exact hperform (some (Name.normalizeWords name))
    | breakpoint span => exact hdirection rfl rfl nofun
    | entrance span names => exact hdirection rfl rfl nofun
    | exit span name => exact hdirection rfl rfl nofun
    | exeunt span names => cases names <;> exact hdirection rfl rfl nofun
  | sentences ss =>
    unfold performConsoleLine
    refine ends_bind (ends_of_ok hread ?_)
    dsimp only
    cases speaker with
    | none =>
      have hnone : ∀ b, ¬ LineStops line none d b := by
        intro b hb
        obtain hcomes | ⟨⟨_, _, hvalue⟩, -⟩ := (lineStops_iff h).mp hb
        · cases hcomes
        · cases hvalue
      exact Ends.bind (answers_printLine (.ok "Who's saying this?") hd hnone nofun) fun _ _ ht => ends_pure ht
    | some name =>
      rw [saySentences_eq]
      exact answers_performing (some name) hacts hd h nofun (some name)
  | value name v => exact answers_value hd h
  | display name => exact answers_display hd h

/-- The next step is made, or it is told why not. -/
theorem answers_stepForward {op : Operation} (hplay : readAs .play Play.ofTree? source = .ok play)
    (hacts : play.acts ≠ []) (hd : d.Attended source play limit) (hop : d.script.operation? d.position = some op) :
    Answers source play limit stepForward d (op.deed.Stops d)
      (∃ n, op.Involves PerformanceM.step d n ∧ Vast n) := by
  have hstopped := PerformanceM.stopped_step hd.console hd.sound.stage (hd.acts_ne_nil hacts) hop
  have hlasting := (lasting_attended source play limit).step hd
  have hsource : d.script.source = source := congrArg Script.source hd.sound.script
  refine ends_bind (ends_get (unanswered_reporting op.spans ?_ nofun ?_ ?_))
  · refine ⟨fun hok => ⟨hlasting.ok hok, hstopped.ok hok⟩, fun herror => ?_⟩
    refine (hstopped.error herror).mono (List.Subset.refl _) (fun b => Iff.rfl) ?_
    rintro ⟨n, hn, hvast⟩
    exact ⟨n, .inl hn, hvast⟩
  · rw [hsource]
    exact solid_of_script hplay hd.sound.script hop
  · exact fun cause span q n hm hn hvast => ⟨n, .inr ⟨cause, span, q, hm, hn⟩, hvast⟩

theorem eq_of_command (h : String.ofList line ∈ commands) : line ∈ commands.map String.toList :=
  List.mem_map.mpr ⟨_, h, String.toList_ofList⟩

theorem lineStops_leave_iff {b : Breakdown} (h : line = "exit".toList ∨ line = "quit".toList) :
    LineStops line speaker d b ↔ b = .quit := by
  have hleave : String.ofList line = "exit" ∨ String.ofList line = "quit" := by
    obtain rfl | rfl := h <;> decide
  have hcommand : String.ofList line ∈ commands := by
    obtain hline | hline := hleave <;> rw [hline] <;> decide
  refine ⟨fun hb => ?_, fun hb => hb ▸ .leave hleave⟩
  obtain ⟨-, hquit⟩ | ⟨hnext, -⟩ := hb.command hcommand
  · exact hquit
  · rw [hnext] at hleave
    exact absurd hleave (by decide)

theorem not_lineStops_look {b : Breakdown} (h : line = "continue".toList ∨ line = "state".toList) :
    ¬ LineStops line speaker d b := by
  have hcommand : String.ofList line ∈ commands := by
    obtain rfl | rfl := h <;> decide
  intro hb
  obtain ⟨hexit, -⟩ | ⟨hnext, -⟩ := hb.command hcommand
  · obtain rfl | rfl := h <;> exact absurd hexit (by decide)
  · obtain rfl | rfl := h <;> exact absurd hnext (by decide)

theorem lineStops_next_iff {op : Operation} {b : Breakdown} (hop : d.script.operation? d.position = some op) :
    LineStops "next".toList speaker d b ↔ op.deed.Stops d b := by
  refine ⟨fun hb => ?_, fun hb => .next rfl hop hb⟩
  obtain ⟨hexit, -⟩ | ⟨-, op', hop', hstops⟩ := hb.command (by decide)
  · exact absurd hexit (by decide)
  · cases hop.symm.trans hop'
    exact hstops

/-- What comes of a line: it is answered unless it stops the console, and what cannot be done is told. -/
abbrev Replies (line : List Char) (speaker : Option String) (d : Performance) : Prop :=
  Ends (answerLine line speaker) d (fun _ _ => ∀ b, ¬ LineStops line speaker d b)
    (fun r _ => Unanswered (LineStops line speaker d) (∃ n, LineInvolves line speaker d n ∧ Vast n) r)

theorem replies_leave (h : line = "exit".toList ∨ line = "quit".toList) : Replies line speaker d := by
  have hbreak : Unanswered (LineStops line speaker d) (∃ n, LineInvolves line speaker d n ∧ Vast n)
      (.breakdown .quit) :=
    .of_breakdown fun b => lineStops_leave_iff h
  obtain rfl | rfl := h
  · exact ends_of_error rfl hbreak
  · exact ends_of_error rfl hbreak

theorem replies_next (hplay : readAs .play Play.ofTree? source = .ok play) (hacts : play.acts ≠ [])
    (hd : d.Attended source play limit) : Replies "next".toList speaker d := by
  refine ends_of_eq (answerLine_next speaker d) (ends_bind (ends_bind (ends_get (ends_pure ?_))))
  split
  · next hover =>
    refine ends_pure fun b hb => ?_
    obtain ⟨hexit, -⟩ | ⟨-, op, hop, -⟩ := hb.command (by decide)
    · exact absurd hexit (by decide)
    · rw [operation?_of_over hover] at hop
      cases hop
  · next hover =>
    obtain ⟨op, hop⟩ := hd.sound.operation (Bool.eq_false_iff.mpr hover)
    refine Ends.bind ((answers_stepForward hplay hacts hd hop).mono (fun _ _ hq => hq) fun r _ hr => ?_)
      fun _ q hq => ?_
    · refine hr.mono (fun b => lineStops_next_iff hop) ?_
      rintro ⟨n, hn, hvast⟩
      exact ⟨n, .next rfl hop hn, hvast⟩
    · refine (ends_showProgress_attended hplay _ speaker hq.1).mono (fun _ _ _ b hb => ?_) fun _ _ h => h.elim
      exact hq.2 b ((lineStops_next_iff hop).mp hb)

theorem replies_state (hplay : readAs .play Play.ofTree? source = .ok play) (hd : d.Attended source play limit) :
    Replies "state".toList speaker d := by
  have hnone : ∀ b, ¬ LineStops "state".toList speaker d b := fun b => not_lineStops_look (.inr rfl)
  have heq : answerLine "state".toList speaker d = (do
      bare do PerformanceM.printLine (← PerformanceM.ofBreakdown d.stage.text)
      showProgress d.position speaker : ReportM (Option (Option String))) d := rfl
  refine ends_of_eq heq (Ends.bind (answers_printLine d.stage.text hd hnone fun b hb => ?_) fun _ q hq => ?_)
  · obtain ⟨n, hn, hvast⟩ := vast_of_stage hb
    exact ⟨n, .state rfl hn, hvast⟩
  · exact (ends_showProgress_attended hplay _ speaker hq.1).mono (fun _ _ _ => hnone) fun _ _ h => h.elim

theorem replies_typed (hplay : readAs .play Play.ofTree? source = .ok play) (hacts : play.acts ≠ [])
    (hd : d.Attended source play limit) (hcommand : String.ofList line ∉ commands) : Replies line speaker d := by
  refine ends_of_eq (answerLine_of_not_command hcommand) ?_
  cases hread : readAs .replInput ConsoleLine.ofTree? (line ++ ['\n']) with
  | ok said =>
    refine Ends.bind (answers_typed hacts hd ⟨hcommand, hread⟩) fun next q hq => ?_
    exact (ends_showProgress_attended hplay _ next hq.1).mono (fun _ _ _ => hq.2) fun _ _ h => h.elim
  | error r =>
    obtain ⟨e, hparse, rfl⟩ := unreadable_of_console hread
    have hfail : performConsoleLine line speaker d = .error (.unreadable (line ++ ['\n']) e) d := by
      refine bind_of_error ?_
      unfold readConsoleLine
      rw [hread]
      rfl
    refine ends_of_error (bind_of_error hfail) (.of_text (fun b hb => ?_) nofun (exists_unreadableText hparse))
    obtain ⟨said, htypes, -⟩ := hb.typed hcommand
    cases hread.symm.trans htypes.read

theorem replies (line : List Char) (speaker : Option String) (hplay : readAs .play Play.ofTree? source = .ok play)
    (hacts : play.acts ≠ []) (hd : d.Attended source play limit) : Replies line speaker d := by
  by_cases hcommand : String.ofList line ∈ commands
  · have hline := eq_of_command hcommand
    simp only [commands, List.map_cons, List.map_nil, List.mem_cons, List.not_mem_nil, or_false] at hline
    obtain hexit | hquit | rfl | rfl | rfl := hline
    · exact replies_leave (.inl hexit)
    · exact replies_leave (.inr hquit)
    · exact ends_of_ok (answerLine_continue speaker d) fun b => not_lineStops_look (.inl rfl)
    · exact replies_next hplay hacts hd
    · exact replies_state hplay hd
  · exact replies_typed hplay hacts hd hcommand

/-- **What ends the console in a round.** -/
theorem consoleRound_error_iff (hplay : readAs .play Play.ofTree? source = .ok play) (hacts : play.acts ≠ [])
    (hd : d.Attended source play limit)
    (hsmall : ∀ line rest, Says d.streams.stdin line rest →
      ∀ n, LineInvolves line speaker (asked ">> " d) n → ¬ Vast n)
    (r : Report) :
    (∃ t, consoleRound speaker d = .error r t) ↔
      (d.streams.stdin = [] ∧ r = .breakdown .endOfInput) ∨
        ∃ line rest b, Says d.streams.stdin line rest ∧ LineStops line speaker (asked ">> " d) b ∧
          r = .breakdown b := by
  by_cases hstdin : d.streams.stdin = []
  · rw [consoleRound_of_end speaker hstdin]
    constructor
    · rintro ⟨t, ⟨⟩⟩
      exact .inl ⟨hstdin, rfl⟩
    · rintro (⟨-, rfl⟩ | ⟨line, rest, b, hsaid, -⟩)
      · exact ⟨_, rfl⟩
      · exact absurd hstdin hsaid.ne_nil
  · obtain ⟨line, rest, hsaid⟩ := exists_line hstdin
    have hL : ¬ ∃ n, LineInvolves line speaker (asked ">> " d) n ∧ Vast n :=
      fun ⟨n, hn, hvast⟩ => hsmall line rest hsaid n hn hvast
    have hline := replies line speaker hplay hacts ((lasting_attended source play limit).hear ">> " hd)
    have hright : ((d.streams.stdin = [] ∧ r = .breakdown .endOfInput) ∨
        ∃ line rest b, Says d.streams.stdin line rest ∧ LineStops line speaker (asked ">> " d) b ∧
        r = .breakdown b) ↔
          ∃ b, LineStops line speaker (asked ">> " d) b ∧ r = .breakdown b := by
      constructor
      · rintro (⟨hend, -⟩ | ⟨line', rest', b, hsaid', hb, hr⟩)
        · exact absurd hend hstdin
        · rw [← hsaid'.line, hsaid.line] at hb
          exact ⟨b, hb, hr⟩
      · exact fun ⟨b, hb, hr⟩ => .inr ⟨line, rest, b, hsaid, hb, hr⟩
    rw [consoleRound_of_line speaker hsaid, hright]
    cases hanswer : answerLine line speaker (asked ">> " d) with
    | ok next q =>
      refine iff_of_false ?_ fun ⟨b, hb, _⟩ => hline.ok hanswer b hb
      rintro ⟨_, ⟨⟩⟩
    | error report q =>
      rw [← (hline.error hanswer).tell_error_iff hL (d := q)]
      dsimp only
      cases htell : tell report q with
      | ok _ t => constructor <;> rintro ⟨_, ⟨⟩⟩
      | error r' t =>
        constructor
        · rintro ⟨_, ⟨⟩⟩
          exact ⟨_, rfl⟩
        · rintro ⟨_, ⟨⟩⟩
          exact ⟨_, rfl⟩

end Answers

/-- **Every line is answered.** In whatever performance of a play with an act the console is opened, and whatever
was typed before: if the numbers that the next line involves have at most 31 bits, then the console ends at this
line exactly if there is none, or as `LineStops` says. The console ends in no other way than in one of its
rounds. -/
theorem console_answers_lines {source : List Char} {play : Play} {p : Performance}
    (hplay : readAs .play Play.ofTree? source = .ok play) (hacts : play.acts ≠ []) (hp : p.Reachable source play) :
    (∀ {es : List Entry} {first speaker : Option String} {q : Performance}, Rounds es p.opened first q speaker →
      (∀ line rest, Says q.streams.stdin line rest →
        ∀ n, LineInvolves line speaker (asked ">> " q) n → n.natAbs < 2 ^ 31) →
      ∀ r, (∃ t, consoleRound speaker q = .error r t) ↔
        (q.streams.stdin = [] ∧ r = .breakdown .endOfInput) ∨
          ∃ line rest b, Says q.streams.stdin line rest ∧ LineStops line speaker (asked ">> " q) b ∧
            r = .breakdown b) ∧
    ∀ r t, console p = .error r t →
      ∃ es q speaker, Rounds es p.opened none q speaker ∧ consoleRound speaker q = .error r t := by
  have hopened : p.opened.Attended source play p.streams.stdin.length := by
    have hsound := hp.sound
    exact ⟨⟨hsound.numerals, hsound.script, hsound.stage, hsound.nonneg, hsound.le_length⟩, p.opened_atConsole⟩
  refine ⟨fun hrounds hsmall => ?_, fun r t hfail => (ends_console p).error hfail⟩
  refine consoleRound_error_iff hplay hacts ((lasting_attended _ _ _).rounds hrounds hopened) ?_
  exact fun line rest hsaid n hn hvast => Nat.not_le.mpr (hsmall line rest hsaid n hn) hvast

/-- Romeo and Juliet are on stage. The user looks at the stage and then sends Romeo away twice. -/
def farewell : Performance := stateAfter stepForward (plainRehearsal "state\n[Exeunt Romeo and Romeo]\n".toList)

/-- The farewell after the look at the stage. -/
def farewellOn : Performance := stateAfter (answerLine "state".toList none) (asked ">> " farewell.opened)

/-- Romeo goes twice. -/
def farewellLine : ConsoleLine := .event (.exeunt ⟨0, 24⟩ (some [["Romeo"], ["Romeo"]]))

def farewellDeed : Operation := ⟨⟨0, 24⟩, .exeunt ["Romeo", "Romeo"]⟩

/-- One evaluation for all of the session: each has to go through the lexicon. -/
theorem farewell_course :
    outcomeOf (answerLine "state".toList none) (asked ">> " farewell.opened) = .ok (some none) ∧
      Says farewell.opened.streams.stdin "state".toList "[Exeunt Romeo and Romeo]\n".toList ∧
      Says farewellOn.streams.stdin "[Exeunt Romeo and Romeo]".toList [] ∧
      readAs .replInput ConsoleLine.ofTree? "[Exeunt Romeo and Romeo]\n".toList = .ok farewellLine ∧
      farewellLine.operations none = [farewellDeed] ∧
      (∀ x ∈ farewell.stage.cast, x.2 = {}) ∧
      (∀ name ∈ ["Romeo", "Romeo"], name ∈ (asked ">> " farewellOn).stage.present) ∧
      outcomeOf (performApart farewellDeed) (asked ">> " farewellOn) =
        .error (.breakdown (.nobodyToRemove "Romeo")) := by
  decide +kernel

theorem reachable_farewell : farewell.Reachable rehearsalText rehearsal :=
  .ask .step (.start (show Performance.ofPlay rehearsalText rehearsal (.basic []) .basic
    (Session.streams "state\n[Exeunt Romeo and Romeo]\n".toList none) = .ok (plainRehearsal _) from rfl))

theorem types_farewell : Types "[Exeunt Romeo and Romeo]".toList farewellLine :=
  ⟨by decide, farewell_course.2.2.2.1⟩

/-- To look at the stage involves what is held there, which is nothing but zero. -/
theorem small_farewell {n : Int} (h : LineInvolves "state".toList none (asked ">> " farewell.opened) n) :
    n.natAbs < 2 ^ 31 := by
  obtain ⟨-, -, -, -, -, hcast, -⟩ := farewell_course
  cases h with
  | state _ hholds =>
    obtain ⟨x, hx, hheld⟩ := hholds
    rw [hcast x hx] at hheld
    obtain rfl | hheld := hheld
    · decide
    · cases hheld
  | next hnext _ _ => exact absurd hnext (by decide)
  | performing htypes _ => exact absurd (by decide) htypes.notCommand
  | value htypes _ _ => exact absurd (by decide) htypes.notCommand
  | display htypes _ _ => exact absurd (by decide) htypes.notCommand

/-- To send somebody away twice involves no number. -/
theorem not_involves_farewell {n : Int} :
    ¬ LineInvolves "[Exeunt Romeo and Romeo]".toList none (asked ">> " farewellOn) n := by
  obtain ⟨-, -, -, -, hoperations, -, -, hgone⟩ := farewell_course
  intro h
  cases h with
  | state hstate _ => exact absurd hstate (by decide)
  | next hnext _ _ => exact absurd hnext (by decide)
  | performing htypes hcomes =>
    rw [← types_farewell.unique htypes, hoperations] at hcomes
    obtain htouches | ⟨cause, span, q, hfails, -⟩ := (comes_cons_of_error (error_of_outcomeOf hgone)).mp hcomes
    · exact htouches
    · cases (error_of_outcomeOf hgone).symm.trans hfails
  | value htypes _ _ => cases types_farewell.unique htypes
  | display htypes _ _ => cases types_farewell.unique htypes

/-- The look at the stage does not end the console, and the exeunt does. -/
theorem console_answers_lines_farewell :
    (∀ r t, consoleRound none farewell.opened ≠ .error r t) ∧
      ∃ t, consoleRound none farewellOn = .error (.breakdown (.nobodyToRemove "Romeo")) t := by
  obtain ⟨hanswer, hsaid, hsaid', -, hoperations, -, hpresent, -⟩ := farewell_course
  have hanswers := console_answers_lines readAs_rehearsalText (by decide) reachable_farewell
  constructor
  · intro r t hfail
    have hsmall : ∀ line rest, Says farewell.opened.streams.stdin line rest →
        ∀ n, LineInvolves line none (asked ">> " farewell.opened) n → n.natAbs < 2 ^ 31 := by
      intro line rest hheard n hn
      rw [← hheard.line, hsaid.line] at hn
      exact small_farewell hn
    obtain ⟨hend, -⟩ | ⟨line, rest, b, hheard, hstops, -⟩ := (hanswers.1 .nil hsmall r).mp ⟨t, hfail⟩
    · exact hsaid.ne_nil hend
    · rw [← hheard.line, hsaid.line] at hstops
      exact not_lineStops_look (.inr rfl) hstops
  · have hrounds : Rounds [⟨"state".toList, false⟩] farewell.opened none farewellOn none :=
      .answered hsaid (ok_of_outcomeOf hanswer) .nil
    have hsmall : ∀ line rest, Says farewellOn.streams.stdin line rest →
        ∀ n, LineInvolves line none (asked ">> " farewellOn) n → n.natAbs < 2 ^ 31 := by
      intro line rest hheard n hn
      rw [← hheard.line, hsaid'.line] at hn
      exact absurd hn not_involves_farewell
    have hgone : (asked ">> " farewellOn).stage.FindsGone ["Romeo", "Romeo"] (.nobodyToRemove "Romeo") :=
      ⟨hpresent, "Romeo", ⟨["Romeo"], [], rfl, List.nodup_singleton _, List.mem_singleton_self _⟩, rfl⟩
    have hcomes : Comes (fun op p => op.deed.Stops p (.nobodyToRemove "Romeo")) (farewellLine.operations none)
        (asked ">> " farewellOn) := hoperations ▸ .here hgone
    exact (hanswers.1 hrounds hsmall _).mpr (.inr ⟨_, _, _, hsaid', .performing types_farewell hcomes, rfl⟩)

/-- A value is asked for before anybody has spoken. -/
theorem line_can_end_console :
    (Session.console ["Romeo".toList, "Juliet".toList] "a cat\nexit\n".toList).ending =
      .failed (.breakdown .nobodySpeaking) := by
  decide +kernel

end Playhouse
