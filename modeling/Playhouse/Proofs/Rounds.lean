import Playhouse.Proofs.Debugging

/-!
# Playhouse.Proofs.Rounds — sessions at the console

A session at the console is one round after the other: a line is asked for and answered, or an error is told.
`Rounds` says where the lines of a session lead, and `ends_console` that the console is such a session, which ends
with the round that leaves it. `Lasting` lists what a condition has to be closed under to hold all the time. The
styles that the console chooses last to its end and beyond it. Main statement: `console_keeps_its_styles`.
-/

namespace Playhouse

open Performance
open PerformanceM (asked splitLine dropLineFeed isOver Keeping)
open ReportM

/-! ### What lasts at the console -/

/-- What a condition on performances has to be closed under to last as long as the console is open. -/
structure Lasting (I : Performance → Prop) : Prop where
  hear : ∀ {p} (prompt : String), I p → I (asked prompt p)
  print : ∀ {p} (out err : String), I p → I { p with streams := { p.streams with out := out, err := err } }
  apart : ∀ {p} (op : Operation), I p → Ends (performApart op) p (fun _ => I) (fun _ => I)
  step : ∀ {p}, I p → Ends PerformanceM.step p (fun _ => I) (fun _ => I)

/-- To evaluate an expression apart from the script changes nothing. -/
theorem ends_evaluateApart (p : Performance) (speaker : String) (e : Expression) :
    Ends (do let (n, _) ← PerformanceM.evaluate speaker (fun _ => pure ()) e; return n) p
      (fun n q => q = p ∧ (e.evaluate speaker p.stage).1 = .ok n)
      (fun f q => q = p ∧ (e.evaluate speaker p.stage).1 = .error f) := by
  apply ends_bind
  unfold PerformanceM.evaluate
  apply ends_bind
  apply ends_get
  generalize e.evaluate speaker p.stage = x
  obtain ⟨outcome, e'⟩ := x
  apply ends_bind
  apply ends_pure
  cases outcome with
  | ok n => exact ends_pure (ends_pure ⟨rfl, rfl⟩)
  | error f => exact ends_throw ⟨rfl, rfl⟩

theorem ends_evaluateValue {I : Performance → Prop} {p : Performance} {source : List Char} {v : Value}
    {name : String} (h : I p) : Ends (evaluateValue source v name) p (fun _ => I) (fun _ => I) :=
  ends_reporting ((ends_evaluateApart p _ _).mono (fun _ _ hq => hq.1 ▸ h) fun _ _ hq => hq.1 ▸ h)

namespace Lasting

variable {I : Performance → Prop} {p : Performance} {source line : List Char} {speaker : Option String}

theorem of_keeping (hI : Keeping I I) (hhear : ∀ {p} (prompt : String), I p → I (asked prompt p))
    (hprint : ∀ {p} (out err : String), I p → I { p with streams := { p.streams with out := out, err := err } }) :
    Lasting I where
  hear := hhear
  print := hprint
  apart _ h := PerformanceM.keeps_perform hI (fun _ q => ⟨q.script, rfl⟩) h
  step h := PerformanceM.keeps_step hI h

section

variable (hI : Lasting I)

include hI

theorem performEvent (e : Event) (h : I p) : Ends (performEvent source e) p (fun _ => I) (fun _ => I) :=
  ends_reporting (ends_forM (fun op _ _ hq => hI.apart op hq) h)

theorem performSentence (s : Sentence) (name : String) (h : I p) :
    Ends (performSentence source s name) p (fun _ => I) (fun _ => I) := ends_reporting (hI.apart _ h)

theorem stepForward (h : I p) : Ends stepForward p (fun _ => I) (fun _ => I) := ends_ofScript (hI.step h)

theorem printLine (content : Except Breakdown String) (h : I p) :
    Ends (bare do PerformanceM.printLine (← PerformanceM.ofBreakdown content)) p (fun _ => I) (fun _ => I) := by
  refine ends_bare (ends_bind (PerformanceM.ends_ofBreakdown (fun _ _ => ?_) fun _ => h))
  exact ends_modify (hI.print _ p.streams.err h)

theorem saySentences (ss : List Sentence) (h : I p) :
    Ends (saySentences source speaker ss) p (fun _ => I) (fun _ => I) := by
  unfold ReportM.saySentences
  split
  · exact Ends.bind (ends_bare (ends_modify (hI.print _ p.streams.err h))) fun _ _ hq => ends_pure hq
  · next name =>
    exact (ends_forM (fun s _ q hq => hI.performSentence s name hq) h).bind fun _ _ hq => ends_pure hq

theorem performConsoleLine (h : I p) : Ends (performConsoleLine line speaker) p (fun _ => I) (fun _ => I) := by
  have hread : Ends (readConsoleLine (line ++ ['\n'])) p (fun _ => I) (fun _ => I) := by
    unfold readConsoleLine ReportM.ofText
    split
    · exact ends_pure h
    · exact ends_throw h
  unfold ReportM.performConsoleLine
  refine hread.bind fun said q hq => ?_
  split
  · exact hI.saySentences _ hq
  · exact (hI.performEvent _ hq).bind fun _ _ hr => ends_pure hr
  · exact hI.saySentences _ hq
  · split
    · exact ends_throw hq
    · refine (ends_evaluateValue hq).bind fun n r hr => ?_
      exact (hI.printLine _ hr).bind fun _ _ ht => ends_pure ht
  · refine Ends.bind (ends_bare (PerformanceM.ends_look (fun _ _ => hq) fun _ _ => hq)) fun c r hr => ?_
    exact (hI.printLine _ hr).bind fun _ _ ht => ends_pure ht

theorem showProgress (before : Int) (h : I p) :
    Ends (showProgress before speaker) p (fun _ => I) (fun _ => I) := by
  have htext : Ends nextOperationText p (fun _ => I) (fun _ => I) := by
    refine ends_ofScript (ends_bind (PerformanceM.ends_nextOperation (fun op _ => ?_) fun _ => h))
    apply ends_bind
    apply ends_get
    exact ends_bind (PerformanceM.ends_ofBreakdown (fun _ _ => ends_pure h) fun _ => h)
  unfold ReportM.showProgress playOver
  apply ends_bind
  apply ends_get
  split
  · exact ends_pure h
  · apply ends_bind
    refine ends_bind (ends_get (ends_pure ?_))
    split
    · exact ends_pure h
    · refine htext.bind fun text q hq => ?_
      exact Ends.bind (ends_bare (ends_modify (hI.print _ q.streams.err hq))) fun _ _ hr => ends_pure hr

theorem answerLine (line : List Char) (speaker : Option String) (h : I p) :
    Ends (answerLine line speaker) p (fun _ => I) (fun _ => I) := by
  unfold ReportM.answerLine playOver
  apply ends_bind
  apply ends_get
  split
  · exact ends_throw h
  · exact ends_throw h
  · exact ends_pure h
  · apply ends_bind
    refine ends_bind (ends_get (ends_pure ?_))
    split
    · exact ends_pure h
    · exact (hI.stepForward h).bind fun _ _ hq => hI.showProgress _ hq
  · apply ends_bind
    apply ends_get
    exact (hI.printLine _ h).bind fun _ _ hq => hI.showProgress _ hq
  · exact (hI.performConsoleLine h).bind fun _ _ hq => hI.showProgress _ hq

theorem tell (r : Report) (h : I p) : Ends (tell r) p (fun _ => I) (fun _ => I) := by
  unfold ReportM.tell
  split
  · exact ends_throw h
  · split
    · exact ends_modify (hI.print p.streams.out _ h)
    · exact ends_throw h

end

end Lasting

/-- What has a text is told, a breakdown apart. -/
theorem tell_of_text {r : Report} {text : String} {d : Performance} (hr : ∀ b, r ≠ .breakdown b)
    (h : r.text = .ok text) :
    ∃ e, tell r d = .ok () e := by
  unfold ReportM.tell
  split
  · next b => exact absurd rfl (hr b)
  · rw [h]
    exact ⟨_, rfl⟩

/-! ### Rounds -/

theorem isEmpty_splitLine {cs : List Char} : (splitLine cs).1.isEmpty = true ↔ cs = [] := by
  fun_cases splitLine cs with
  | case1 => exact iff_of_true rfl rfl
  | case2 cs => exact iff_of_false Bool.false_ne_true (List.cons_ne_nil _ _)
  | case3 c cs => exact iff_of_false Bool.false_ne_true (List.cons_ne_nil _ _)

/-- A line of a session, and whether an error was told for it. -/
structure Entry where
  line : List Char
  failed : Bool
  deriving DecidableEq, Repr

/-- The console goes from `p`, where `speaker` spoke last, to where the entries of a session lead. -/
inductive Rounds : List Entry → (p : Performance) → (speaker : Option String) → Performance → Option String → Prop
  | nil {p : Performance} {speaker : Option String} : Rounds [] p speaker p speaker
  | answered {es : List Entry} {p q r : Performance} {speaker speaker' last : Option String}
      {line rest : List Char} :
      Says p.streams.stdin line rest → answerLine line speaker (asked ">> " p) = .ok (some speaker') q →
      Rounds es q speaker' r last → Rounds (⟨line, false⟩ :: es) p speaker r last
  | told {es : List Entry} {p q q' r : Performance} {speaker last : Option String} {line rest : List Char}
      {report : Report} :
      Says p.streams.stdin line rest → answerLine line speaker (asked ">> " p) = .error report q →
      tell report q = .ok () q' → Rounds es q' speaker r last → Rounds (⟨line, true⟩ :: es) p speaker r last

theorem Lasting.rounds {I : Performance → Prop} (hI : Lasting I) {es : List Entry} {p q : Performance}
    {speaker last : Option String} (hrounds : Rounds es p speaker q last) : I p → I q := by
  induction hrounds with
  | nil => exact id
  | answered _ hanswer _ ih => exact fun h => ih ((hI.answerLine _ _ (hI.hear ">> " h)).ok hanswer)
  | told _ hanswer htell _ ih =>
    exact fun h => ih ((hI.tell _ ((hI.answerLine _ _ (hI.hear ">> " h)).error hanswer)).ok htell)

section Console

variable {p q : Performance} {speaker : Option String}

theorem exists_line {input : List Char} (h : input ≠ []) : ∃ line rest, Says input line rest :=
  ⟨_, _, rfl, Bool.eq_false_iff.mpr fun hempty => h (isEmpty_splitLine.mp hempty), rfl⟩

theorem Says.ne_nil {input line rest : List Char} (h : Says input line rest) : input ≠ [] := by
  intro hnil
  have hempty := h.notEmpty
  rw [isEmpty_splitLine.mpr hnil] at hempty
  cases hempty

theorem consoleRound_of_end (speaker : Option String) (h : p.streams.stdin = []) :
    consoleRound speaker p = .error (.breakdown .endOfInput) (asked ">> " p) := by
  have hask : bare (PerformanceM.ask ">> ") p = .error (.breakdown .endOfInput) (asked ">> " p) := by
    unfold bare
    rw [PerformanceM.ask_eq, if_pos (isEmpty_splitLine.mpr h)]
  exact bind_of_error hask

theorem consoleRound_of_line (speaker : Option String) {line rest : List Char}
    (h : Says p.streams.stdin line rest) :
    consoleRound speaker p =
      match answerLine line speaker (asked ">> " p) with
      | .ok next p => .ok next p
      | .error r p =>
        match tell r p with
        | .ok _ p => .ok (some speaker) p
        | .error r p => .error r p := by
  have hask : bare (PerformanceM.ask ">> ") p = .ok line (asked ">> " p) := by
    unfold bare
    rw [PerformanceM.ask_eq, if_neg (by rw [h.notEmpty]; exact Bool.false_ne_true), h.line]
  exact bind_of_ok hask

/-- What can come of a round: there is no line to be read, a line is answered, or an error of it is told. -/
theorem ends_consoleRound (speaker : Option String) (p : Performance) :
    Ends (consoleRound speaker) p
      (fun next q => ∃ line rest, Says p.streams.stdin line rest ∧
        (answerLine line speaker (asked ">> " p) = .ok next q ∨ next = some speaker ∧
          ∃ report t, answerLine line speaker (asked ">> " p) = .error report t ∧ tell report t = .ok () q))
      (fun r q => (p.streams.stdin = [] ∧ r = .breakdown .endOfInput) ∨ ∃ line rest report t,
        Says p.streams.stdin line rest ∧ answerLine line speaker (asked ">> " p) = .error report t ∧
          tell report t = .error r q) := by
  by_cases hstdin : p.streams.stdin = []
  · exact ends_of_error (consoleRound_of_end speaker hstdin) (.inl ⟨hstdin, rfl⟩)
  · obtain ⟨line, rest, hsaid⟩ := exists_line hstdin
    have hround := consoleRound_of_line speaker hsaid
    cases hanswer : answerLine line speaker (asked ">> " p) with
    | ok next t =>
      rw [hanswer] at hround
      exact ends_of_ok hround ⟨line, rest, hsaid, .inl hanswer⟩
    | error report t =>
      rw [hanswer] at hround
      cases htell : tell report t with
      | ok _ q =>
        simp only [htell] at hround
        exact ends_of_ok hround ⟨line, rest, hsaid, .inr ⟨rfl, report, t, hanswer, htell⟩⟩
      | error r q =>
        simp only [htell] at hround
        exact ends_of_error hround (.inr ⟨line, rest, report, t, hsaid, hanswer, htell⟩)

theorem rounds_of_consoleRound {speaker' : Option String} (h : consoleRound speaker p = .ok (some speaker') q) :
    ∃ e, ∀ {es r last}, Rounds es q speaker' r last → Rounds (e :: es) p speaker r last := by
  obtain ⟨line, rest, hsaid, hanswer | ⟨hnext, report, t, hanswer, htell⟩⟩ := (ends_consoleRound speaker p).ok h
  · exact ⟨⟨line, false⟩, fun hrounds => .answered hsaid hanswer hrounds⟩
  · cases hnext
    exact ⟨⟨line, true⟩, fun hrounds => .told hsaid hanswer htell hrounds⟩

end Console

/-! ### The styles of the console -/

/-- The styles of the console are in use, and at most `limit` characters are still to be read. -/
structure Performance.AtConsole (limit : Nat) (p : Performance) : Prop where
  desk : p.desk = .interactive
  style : p.style = .verbose
  stdin : p.streams.stdin.length ≤ limit

namespace PerformanceM

variable {p : Performance} {limit : Nat}

theorem atConsole_asked (prompt : String) (h : p.AtConsole limit) : (asked prompt p).AtConsole limit := by
  refine ⟨h.desk, h.style, Nat.le_trans ?_ h.stdin⟩
  rw [← length_splitLine p.streams.stdin]
  exact Nat.le_add_left _ _

theorem atConsole_input (medium : Medium) (h : p.AtConsole limit) :
    Ends (input medium) p (fun _ => AtConsole limit) (fun _ => AtConsole limit) := by
  have hask : ∀ prompt, Ends (ask prompt) p (fun _ => AtConsole limit) (fun _ => AtConsole limit) := by
    intro prompt
    have heq := ask_eq prompt p
    split at heq
    · exact ends_of_error heq (atConsole_asked prompt h)
    · exact ends_of_ok heq (atConsole_asked prompt h)
  unfold input
  apply ends_bind
  apply ends_get
  rw [h.desk]
  cases medium with
  | number =>
    refine (hask _).bind fun line q hq => ?_
    split
    · exact ends_pure hq
    · exact ends_throw hq
  | character =>
    refine (hask _).bind fun line q hq => ?_
    split
    · exact ends_pure hq
    · exact ends_pure hq
    · exact ends_pure hq

theorem atConsole_changeCharacter (name : String) (f : Character → Except Fault Character)
    (h : p.AtConsole limit) :
    Ends (changeCharacter name f) p (fun _ => AtConsole limit) (fun _ => AtConsole limit) := by
  refine (ends_changeCharacter name f).mono ?_ ?_
  · rintro _ _ ⟨c, -, rfl⟩
    exact ⟨h.desk, h.style, h.stdin⟩
  · rintro _ _ ⟨rfl, -⟩
    exact h

theorem keeping_atConsole (limit : Nat) : Keeping (AtConsole limit) (AtConsole limit) where
  fail h := h
  notDebug h := by
    rw [h.style]
    decide
  record _ h := ⟨h.desk, h.style, h.stdin⟩
  move _ h := ⟨h.desk, h.style, h.stdin⟩
  answer _ h := ⟨h.desk, h.style, h.stdin⟩
  narrate text h := ends_narrate_of text h fun _ _ hr => ⟨hr.desk, hr.style, hr.stdin⟩
  direct d h := ends_onStage ⟨fun _ => ⟨h.desk, h.style, h.stdin⟩, fun _ => ⟨h.desk, h.style, h.stdin⟩⟩
  give text other n _ h := (atConsole_changeCharacter other _ h).bind fun _ _ hq =>
    ends_tell text hq (fun _ _ hr => ⟨hr.desk, hr.style, hr.stdin⟩) fun _ => hq
  input text other medium h := by
    refine (atConsole_input medium h).bind fun n q hq => ?_
    generalize Number.numeral n = numeral
    apply ends_bind
    apply ends_get
    dsimp only
    rw [if_pos (by rw [hq.style]; rfl)]
    refine ends_bind (ends_ofBreakdown (fun t _ => ?_) fun _ => hq)
    exact ends_bind (ends_modify (atConsole_changeCharacter other _ ⟨hq.desk, hq.style, hq.stdin⟩))
  pop other h := atConsole_changeCharacter other _ h
  output medium n h := by
    refine (ends_output medium n (Alike.refl _)).mono (fun _ q hq => ?_) fun _ q hq => ?_ <;>
      exact ⟨hq.desk.trans h.desk, hq.style.trans h.style, hq.stdin ▸ h.stdin⟩

theorem lasting_atConsole (limit : Nat) : Lasting (AtConsole limit) :=
  .of_keeping (keeping_atConsole limit) atConsole_asked fun _ _ h => ⟨h.desk, h.style, h.stdin⟩

end PerformanceM

section Console

open PerformanceM (lasting_atConsole)

variable {p q : Performance} {speaker : Option String}

/-- A round takes a line away, and keeps the styles. -/
theorem atConsole_of_consoleRound {limit : Nat} {next : Option (Option String)} (h : p.AtConsole (limit + 1))
    (hround : consoleRound speaker p = .ok next q) : q.AtConsole limit := by
  obtain ⟨line, rest, hsaid, hanswer⟩ := (ends_consoleRound speaker p).ok hround
  have hheard : (asked ">> " p).AtConsole limit := by
    have hlength := hsaid.length_lt
    have hstdin := h.stdin
    refine ⟨h.desk, h.style, ?_⟩
    show (splitLine p.streams.stdin).2.length ≤ limit
    rw [hsaid.rest]
    omega
  have hkept := (lasting_atConsole limit).answerLine line speaker hheard
  obtain hanswer | ⟨-, report, t, hanswer, htell⟩ := hanswer
  · exact hkept.ok hanswer
  · exact ((lasting_atConsole limit).tell report (hkept.error hanswer)).ok htell

/-- The console is rounds one after the other, and ends with a round that leaves it or fails. It is never given
up. -/
theorem ends_consoleFrom (limit : Nat) : ∀ {p : Performance} (speaker : Option String), p.AtConsole limit →
    Ends (consoleFrom (limit + 1) speaker) p
      (fun _ q => ∃ es r last, Rounds es p speaker r last ∧ consoleRound last r = .ok none q)
      (fun report q => ∃ es r last, Rounds es p speaker r last ∧ consoleRound last r = .error report q) := by
  induction limit with
  | zero =>
    intro p speaker h
    have hempty : p.streams.stdin = [] := List.length_eq_zero_iff.mp (Nat.le_zero.mp h.stdin)
    unfold consoleFrom
    cases hround : consoleRound speaker p with
    | error report q => exact ends_of_error (bind_of_error hround) ⟨[], p, speaker, .nil, hround⟩
    | ok next q =>
      obtain ⟨line, rest, hsaid, -⟩ := (ends_consoleRound speaker p).ok hround
      have hlength := hsaid.length_lt
      rw [hempty] at hlength
      cases hlength
  | succ limit ih =>
    intro p speaker h
    unfold consoleFrom
    cases hround : consoleRound speaker p with
    | error report q => exact ends_of_error (bind_of_error hround) ⟨[], p, speaker, .nil, hround⟩
    | ok next q =>
      have hq := atConsole_of_consoleRound h hround
      cases next with
      | none =>
        exact ends_bind (ends_of_ok hround (ends_pure ⟨[], p, speaker, .nil, hround⟩))
      | some speaker' =>
        obtain ⟨e, he⟩ := rounds_of_consoleRound hround
        refine ends_bind (ends_of_ok hround ((ih speaker' hq).mono ?_ ?_))
        · rintro _ t ⟨es, r, last, hrounds, hlast⟩
          exact ⟨e :: es, r, last, he hrounds, hlast⟩
        · rintro _ t ⟨es, r, last, hrounds, hlast⟩
          exact ⟨e :: es, r, last, he hrounds, hlast⟩

/-- The performance when the console opens. -/
def Performance.opened (p : Performance) : Performance := { p with desk := .interactive, style := .verbose }

theorem Performance.opened_atConsole (p : Performance) : p.opened.AtConsole p.streams.stdin.length :=
  ⟨rfl, rfl, Nat.le_refl _⟩

theorem ends_console (p : Performance) :
    Ends console p
      (fun _ q => ∃ es r last, Rounds es p.opened none r last ∧ consoleRound last r = .ok none q)
      (fun report q => ∃ es r last, Rounds es p.opened none r last ∧ consoleRound last r = .error report q) := by
  have hends := ends_consoleFrom p.streams.stdin.length none p.opened_atConsole
  exact ⟨fun h => hends.ok h, fun h => hends.error h⟩

/-- **The console does not give the styles back.** Whatever the styles were before, and however the console is
left, they are its own afterwards. So they are as before only if they were that from the start. -/
theorem console_keeps_its_styles (h : console p = .ok () q) :
    q.desk = .interactive ∧ q.style = .verbose ∧
      (q.desk.name = p.desk.name ∧ q.style.name = p.style.name ↔ p.desk = .interactive ∧ p.style = .verbose) := by
  obtain ⟨es, r, last, hrounds, hround⟩ := (ends_console p).ok h
  have hr : r.AtConsole p.streams.stdin.length := (lasting_atConsole _).rounds hrounds p.opened_atConsole
  have hq : q.AtConsole (p.streams.stdin.length) :=
    atConsole_of_consoleRound ⟨hr.desk, hr.style, Nat.le_succ_of_le hr.stdin⟩ hround
  refine ⟨hq.desk, hq.style, ?_⟩
  rw [hq.desk, hq.style]
  cases p.desk <;> cases p.style <;> simp [InputDesk.name, OutputStyle.name]

/-- The performance of `rehearsal` about to begin, with basic input and output. -/
def plainRehearsal (stdin : List Char) : Performance :=
  { rehearsalStart with desk := .basic [], style := .basic, streams := Session.streams stdin none }

theorem console_keeps_its_styles_plain :
    ∃ q, console (plainRehearsal "state\nRomeo\ncontinue\n".toList) = .ok () q ∧
    q.desk = .interactive ∧ q.style = .verbose := by
  have hreturns : outcomeOf console (plainRehearsal "state\nRomeo\ncontinue\n".toList) = .ok () := by
    decide +kernel
  obtain ⟨hdesk, hstyle, -⟩ := console_keeps_its_styles (ok_of_outcomeOf hreturns)
  exact ⟨_, ok_of_outcomeOf hreturns, hdesk, hstyle⟩

/-- The console is opened in a performance with basic styles and left at once, and they are not basic any more. -/
theorem console_can_change_styles :
    outcomeOf console (plainRehearsal "continue\n".toList) = .ok () ∧
      (stateAfter console (plainRehearsal "continue\n".toList)).desk.name ≠ (plainRehearsal []).desk.name ∧
      (stateAfter console (plainRehearsal "continue\n".toList)).style.name ≠ (plainRehearsal []).style.name := by
  decide +kernel

end Console

end Playhouse
