import Playhouse.Proofs.Rounds

/-!
# Playhouse.Proofs.Speakers — who speaks at the console

Sentences and values that name no speaker are taken to be said by whoever spoke last. That is the one named last by
a line that was answered. Whoever is named by a line that failed is not remembered: such a line was said, but the
next one without a name is not taken to be by the same speaker. Main statement: `speaker_heard_last`.
-/

namespace Playhouse

open PerformanceM (asked)
open ReportM

/-- Who is named as the speaker of what was typed. -/
def ConsoleLine.speaker? : ConsoleLine → Option String
  | .event (.line _ name _) => some (Name.normalizeWords name)
  | .value (some name) _ => some (Name.normalizeWords name)
  | _ => none

/-- Who is named as the speaker by a line of a session. Commands name nobody, nor does what cannot be read. -/
def namedBy (line : List Char) : Option String :=
  if String.ofList line ∈ commands then none
  else
    match readAs .replInput ConsoleLine.ofTree? (line ++ ['\n']) with
    | .ok said => said.speaker?
    | .error _ => none

/-- Who is named by an entry that was answered. -/
def Entry.heard? (e : Entry) : Option String := if e.failed then none else namedBy e.line

section Lines

variable {line : List Char} {speaker : Option String} {d : Performance}

theorem namedBy_of_command (h : String.ofList line ∈ commands) : namedBy line = none := if_pos h

theorem namedBy_of_read (h : String.ofList line ∉ commands) {said : ConsoleLine}
    (hread : readAs .replInput ConsoleLine.ofTree? (line ++ ['\n']) = .ok said) :
    namedBy line = said.speaker? := by
  unfold namedBy
  rw [if_neg h, hread]

theorem readConsoleLine_of_read {text : List Char} {said : ConsoleLine}
    (hread : readAs .replInput ConsoleLine.ofTree? text = .ok said) : readConsoleLine text d = .ok said d := by
  unfold readConsoleLine
  rw [hread]
  rfl

/-- Sentences do not change who speaks. -/
theorem ends_saySentences_speaker (source : List Char) (speaker : Option String) (ss : List Sentence)
    (d : Performance) :
    Ends (saySentences source speaker ss) d (fun next _ => next = speaker) (fun _ _ => True) := by
  unfold saySentences
  split
  · exact (ends_anyhow _ d).bind fun _ _ _ => ends_pure rfl
  · exact (ends_anyhow _ d).bind fun _ _ _ => ends_pure rfl

/-- A line that is answered leaves the speaker that it names, if it names one. -/
theorem ends_performConsoleLine_speaker {said : ConsoleLine} (speaker : Option String) (d : Performance)
    (hread : readAs .replInput ConsoleLine.ofTree? (line ++ ['\n']) = .ok said) :
    Ends (performConsoleLine line speaker) d (fun next _ => next = said.speaker?.or speaker)
      (fun _ _ => True) := by
  unfold performConsoleLine
  apply ends_bind
  refine ends_of_ok (readConsoleLine_of_read hread) ?_
  cases said with
  | event e =>
    cases e with
    | line span name ss => exact ends_saySentences_speaker _ _ ss d
    | breakpoint span => exact (ends_anyhow _ d).bind fun _ _ _ => ends_pure rfl
    | entrance span names => exact (ends_anyhow _ d).bind fun _ _ _ => ends_pure rfl
    | exit span name => exact (ends_anyhow _ d).bind fun _ _ _ => ends_pure rfl
    | exeunt span names => exact (ends_anyhow _ d).bind fun _ _ _ => ends_pure rfl
  | sentences ss => exact ends_saySentences_speaker _ speaker ss d
  | value name v =>
    dsimp only
    split
    · exact ends_throw trivial
    · next speaking heq =>
      refine (ends_anyhow _ d).bind fun n r _ => (ends_anyhow _ r).bind fun _ _ _ => ends_pure ?_
      cases name with
      | none => exact heq.symm
      | some name => exact heq.symm
  | display name =>
    exact (ends_anyhow _ d).bind fun c r _ => (ends_anyhow _ r).bind fun _ _ _ => ends_pure rfl

theorem ends_showProgress_speaker (before : Int) (speaker : Option String) (d : Performance) :
    Ends (showProgress before speaker) d (fun next _ => ∀ s, next = some s → s = speaker) (fun _ _ => True) := by
  have hsame : ∀ s, some speaker = some s → s = speaker := fun _ hs => (Option.some.inj hs).symm
  unfold showProgress playOver
  apply ends_bind
  apply ends_get
  split
  · exact ends_pure hsame
  · apply ends_bind
    refine ends_bind (ends_get (ends_pure ?_))
    split
    · exact ends_pure fun _ hs => nomatch hs
    · exact (ends_anyhow _ d).bind fun text r _ => (ends_anyhow _ r).bind fun _ _ _ => ends_pure hsame

/-- **A line that is answered leaves the speaker that it names, or else the one before.** -/
theorem speaker_of_answer {next : Option String} {q : Performance}
    (h : answerLine line speaker d = .ok (some next) q) :
    next = (namedBy line).or speaker := by
  by_cases hcommand : String.ofList line ∈ commands
  · rw [namedBy_of_command hcommand, Option.none_or]
    have hends : Ends (answerLine line speaker) d (fun next _ => ∀ s, next = some s → s = speaker)
        (fun _ _ => True) := by
      unfold answerLine playOver
      apply ends_bind
      apply ends_get
      split
      · exact ends_throw trivial
      · exact ends_throw trivial
      · exact ends_pure fun _ hs => nomatch hs
      · apply ends_bind
        refine ends_bind (ends_get (ends_pure ?_))
        split
        · exact ends_pure fun _ hs => nomatch hs
        · exact (ends_anyhow _ d).bind fun _ r _ => ends_showProgress_speaker _ speaker r
      · apply ends_bind
        apply ends_get
        exact (ends_anyhow _ d).bind fun _ r _ => ends_showProgress_speaker _ speaker r
      · next hexit hquit hcontinue hnext hstate =>
        simp only [commands, List.mem_cons, List.not_mem_nil, or_false] at hcommand
        tauto
    exact hends.ok h next rfl
  · rw [answerLine_of_not_command hcommand] at h
    cases hread : readAs .replInput ConsoleLine.ofTree? (line ++ ['\n']) with
    | error r =>
      have hfail : readConsoleLine (line ++ ['\n']) d = .error r d := by
        unfold readConsoleLine
        rw [hread]
        rfl
      rw [bind_of_error (show performConsoleLine line speaker d = .error r d from bind_of_error hfail)] at h
      cases h
    | ok said =>
      rw [namedBy_of_read hcommand hread]
      have hends := (ends_performConsoleLine_speaker speaker d hread).bind fun s r hs =>
        (ends_showProgress_speaker d.position s r).mono (fun next _ hnext s' hs' => (hnext s' hs').trans hs)
          fun _ _ h => h
      exact hends.ok h next rfl

/-- Sentences that name no speaker are performed as those of the present one. -/
theorem answerLine_of_sentences {ss : List Sentence} (name : String) (h : String.ofList line ∉ commands)
    (hread : readAs .replInput ConsoleLine.ofTree? (line ++ ['\n']) = .ok (.sentences ss)) :
    answerLine line (some name) d = (do
      ss.forM fun s => performSentence (line ++ ['\n']) s name
      showProgress d.position (some name)) d := by
  have hperform : performConsoleLine line (some name) d = (do
      ss.forM fun s => performSentence (line ++ ['\n']) s name
      return some name) d := bind_of_ok (readConsoleLine_of_read hread)
  rw [answerLine_of_not_command h, bind_of_eq hperform, bind_assoc]
  simp only [pure_bind]

/-- A value that names no speaker is worked out for the present one. -/
theorem answerLine_of_value {v : Value} (name : String) (h : String.ofList line ∉ commands)
    (hread : readAs .replInput ConsoleLine.ofTree? (line ++ ['\n']) = .ok (.value none v)) :
    answerLine line (some name) d = (do
      let n ← evaluateValue (line ++ ['\n']) v name
      bare do PerformanceM.printLine (← PerformanceM.ofBreakdown (Number.numeral n))
      showProgress d.position (some name)) d := by
  have hperform : performConsoleLine line (some name) d = (do
      let n ← evaluateValue (line ++ ['\n']) v name
      bare do PerformanceM.printLine (← PerformanceM.ofBreakdown (Number.numeral n))
      return some name) d := bind_of_ok (readConsoleLine_of_read hread)
  rw [answerLine_of_not_command h, bind_of_eq hperform]
  simp only [bind_assoc, pure_bind]

end Lines

/-! ### Sessions -/

variable {p q : Performance} {es : List Entry} {speaker last : Option String}

theorem speaker_of_rounds (h : Rounds es p speaker q last) :
    last = (es.filterMap Entry.heard?).getLast?.or speaker := by
  induction h with
  | nil => rfl
  | @answered es p q r speaker speaker' last line rest _ hanswer _ ih =>
    rw [ih, speaker_of_answer hanswer]
    have hheard : Entry.heard? ⟨line, false⟩ = namedBy line := rfl
    rw [List.filterMap_cons, hheard]
    cases namedBy line with
    | none => rfl
    | some name =>
      cases hrest : (es.filterMap Entry.heard?).getLast? <;> simp [List.getLast?_cons, hrest]
  | told _ _ _ _ ih => exact ih

/-- **Who speaks.** After any session at the console, whoever says what is said without a name is the one named
last by a line that was answered. That is the one named last by any line, as long as no line with a name has
failed. -/
theorem speaker_heard_last (h : Rounds es p.opened none q last) :
    last = (es.filterMap Entry.heard?).getLast? ∧
      ((∀ e ∈ es, e.failed = true → namedBy e.line = none) →
        last = (es.filterMap fun e => namedBy e.line).getLast?) ∧
      ∀ {line : List Char} {name : String} (d : Performance), String.ofList line ∉ commands → last = some name →
        (∀ ss, readAs .replInput ConsoleLine.ofTree? (line ++ ['\n']) = .ok (.sentences ss) →
          answerLine line last d = (do
            ss.forM fun s => performSentence (line ++ ['\n']) s name
            showProgress d.position (some name)) d) ∧
        ∀ v, readAs .replInput ConsoleLine.ofTree? (line ++ ['\n']) = .ok (.value none v) →
          answerLine line last d = (do
            let n ← evaluateValue (line ++ ['\n']) v name
            bare do PerformanceM.printLine (← PerformanceM.ofBreakdown (Number.numeral n))
            showProgress d.position (some name)) d := by
  have hlast : last = (es.filterMap Entry.heard?).getLast? := by
    rw [speaker_of_rounds h, Option.or_none]
  refine ⟨hlast, fun hnames => ?_, fun d hcommand hname => ?_⟩
  · have hsame : es.filterMap Entry.heard? = es.filterMap fun e => namedBy e.line := by
      refine List.filterMap_congr fun e he => ?_
      unfold Entry.heard?
      split
      · next hfailed => exact (hnames e he hfailed).symm
      · rfl
    rw [hlast, hsame]
  · rw [hname]
    exact ⟨fun ss hread => answerLine_of_sentences _ hcommand hread,
      fun v hread => answerLine_of_value _ hcommand hread⟩

/-- Romeo and Juliet are on stage. Hamlet is not of this play, so that Juliet's line fails. -/
def quarrel : Performance := stateAfter stepForward (plainRehearsal "Romeo: Juliet\nJuliet: Hamlet\n".toList)

/-- The quarrel after Romeo's line. -/
def quarrelOn : Performance := stateAfter (answerLine "Romeo: Juliet".toList none) (asked ">> " quarrel.opened)

/-- What is told for Juliet's line. -/
def quarrelReport : Report :=
  .error (.notInitialized "Hamlet") (some ("Juliet: Hamlet\n".toList, ⟨8, 14⟩)) (some quarrel.stage)

/-- One evaluation for all of the session: each has to go through the lexicon. -/
theorem quarrel_course :
    outcomeOf (answerLine "Romeo: Juliet".toList none) (asked ">> " quarrel.opened) = .ok (some (some "Romeo")) ∧
      outcomeOf (answerLine "Juliet: Hamlet".toList (some "Romeo")) (asked ">> " quarrelOn) =
        .error quarrelReport ∧
      namedBy "Juliet: Hamlet".toList = some "Juliet" ∧
      Says quarrel.opened.streams.stdin "Romeo: Juliet".toList "Juliet: Hamlet\n".toList ∧
      Says quarrelOn.streams.stdin "Juliet: Hamlet".toList [] ∧ quarrelReport.text.isOk = true := by
  decide +kernel

theorem rounds_quarrel :
    ∃ q, Rounds [⟨"Romeo: Juliet".toList, false⟩, ⟨"Juliet: Hamlet".toList, true⟩] quarrel.opened
    none q (some "Romeo") := by
  obtain ⟨hromeo, hjuliet, -, hsaid, hsaid', htext⟩ := quarrel_course
  cases hreport : quarrelReport.text with
  | error b =>
    rw [hreport] at htext
    cases htext
  | ok text =>
    have hnot : ∀ b, quarrelReport ≠ .breakdown b := by
      intro b hb
      unfold quarrelReport at hb
      cases hb
    obtain ⟨e, he⟩ := tell_of_text (r := quarrelReport) hnot hreport
    have hrest : Rounds [⟨"Juliet: Hamlet".toList, true⟩] quarrelOn (some "Romeo") e (some "Romeo") :=
      .told hsaid' (error_of_outcomeOf hjuliet) he .nil
    exact ⟨e, .answered hsaid (ok_of_outcomeOf hromeo) hrest⟩

theorem speaker_heard_last_quarrel : ∃ q, Rounds [⟨"Romeo: Juliet".toList, false⟩, ⟨"Juliet: Hamlet".toList, true⟩]
    quarrel.opened none q (some "Romeo") ∧
      some "Romeo" =
        ([⟨"Romeo: Juliet".toList, false⟩, ⟨"Juliet: Hamlet".toList, true⟩].filterMap Entry.heard?).getLast? := by
  obtain ⟨q, hrounds⟩ := rounds_quarrel
  exact ⟨q, hrounds, (speaker_heard_last hrounds).1⟩

/-- Juliet is named last, and Romeo speaks on. -/
theorem failed_speaker_not_heard : ∃ q, Rounds [⟨"Romeo: Juliet".toList, false⟩, ⟨"Juliet: Hamlet".toList, true⟩]
    quarrel.opened none q (some "Romeo") ∧ namedBy "Juliet: Hamlet".toList = some "Juliet" := by
  obtain ⟨q, hrounds⟩ := rounds_quarrel
  obtain ⟨-, -, hnamed, -⟩ := quarrel_course
  exact ⟨q, hrounds, hnamed⟩

end Playhouse
