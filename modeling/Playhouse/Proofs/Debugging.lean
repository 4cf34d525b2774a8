import Playhouse.Session
import Playhouse.Proofs.Legible
import Playhouse.Proofs.Naming
import Playhouse.Proofs.Spans
import Playhouse.Proofs.Turns

/-!
# Playhouse.Proofs.Debugging — the debugger changes nothing

A scripted session answers each prompt of the console, and gives each line that the play asks for. Beside the run
of the play the debugger goes through the same positions and stages, and returns. There is one exception: where the
last operation of the script is a breakpoint and the run itself passes it, there is no next operation to be shown
at the console. Main statement: `debugging_changes_nothing`.
-/

namespace Playhouse

open PerformanceM (isOver splitLine dropLineFeed TakesInput asked)
open ReportM

/-! ### Scripted sessions -/

/-- The first line of `input` is `answer`, and `rest` follows it. -/
structure Says (input answer rest : List Char) : Prop where
  line : dropLineFeed (splitLine input).1 = answer
  notEmpty : (splitLine input).1.isEmpty = false
  rest : (splitLine input).2 = rest

instance (input answer rest : List Char) : Decidable (Says input answer rest) :=
  decidable_of_iff (dropLineFeed (splitLine input).1 = answer ∧ (splitLine input).1.isEmpty = false ∧
    (splitLine input).2 = rest) ⟨fun h => ⟨h.1, h.2.1, h.2.2⟩, fun h => ⟨h.line, h.notEmpty, h.rest⟩⟩

/-- The next step of `p` reads a line that `input` begins with too, or reads nothing. `rest` is what it leaves of
`input`. -/
inductive Shares (p : Performance) : (input rest : List Char) → Prop
  | read {line left input rest : List Char} : TakesInput p → Says p.streams.stdin line left →
      Says input line rest →
      Shares p input rest
  | nothing {input : List Char} : ¬ TakesInput p → Shares p input input

/-- The words that the console takes for commands. -/
def commands : List String := ["exit", "quit", "continue", "next", "state"]

/-- Answers that look at the play: a command, and the names of declared characters however they are spelled. -/
inductive Looks (play : Play) : (answer : List Char) → Prop
  | state : Looks play "state".toList
  | name {q : Persona} : q ∈ play.personae → Looks play (typedName q.name)
  | spelled {answer : List Char} {name : List String} {q : Persona} : String.ofList answer ∉ commands →
      readAs .replInput ConsoleLine.ofTree? (answer ++ ['\n']) = .ok (.display name) → q ∈ play.personae →
      Name.normalizeWords name = Name.normalizeWords q.name → Looks play answer

/-- `input` is what is typed in a session beside the run that goes on in `p`, from the console on if it is open.
Each prompt of the console is answered, and each line that the play asks for is the one that it reads in the run.
The session is stranded if the run comes to its end with a breakpoint. -/
inductive Scripted (play : Play) : (atConsole : Bool) → Performance → (input : List Char) →
    (stranded : Bool) → Prop
  | ended {p : Performance} {input : List Char} : isOver p = true → Scripted play false p input false
  | step {p q : Performance} {input rest : List Char} {stranded : Bool} : isOver p = false →
      p.atBreakpoint = false →
      stepForward p = .ok () q → Shares p input rest → Scripted play false q rest stranded →
      Scripted play false p input stranded
  | pause {p q : Performance} {input : List Char} {stranded : Bool} : isOver p = false → p.atBreakpoint = true →
      stepForward p = .ok () q → isOver q = false → Scripted play true q input stranded →
      Scripted play false p input stranded
  | last {p q : Performance} {input : List Char} : isOver p = false → p.atBreakpoint = true →
      stepForward p = .ok () q →
      isOver q = true → Scripted play false p input true
  | look {p : Performance} {answer input rest : List Char} {stranded : Bool} : Says input answer rest →
      Looks play answer → Scripted play true p rest stranded → Scripted play true p input stranded
  | next {p q : Performance} {input rest rest' : List Char} {stranded : Bool} : Says input "next".toList rest →
      stepForward p = .ok () q → Shares p rest rest' → Scripted play (!isOver q) q rest' stranded →
      Scripted play true p input stranded
  | goOn {p : Performance} {input rest : List Char} {stranded : Bool} : Says input "continue".toList rest →
      Scripted play false p rest stranded → Scripted play true p input stranded

theorem length_splitLine (cs : List Char) : (splitLine cs).1.length + (splitLine cs).2.length = cs.length := by
  fun_induction splitLine cs with
  | case1 => rfl
  | case2 cs => exact Nat.add_comm 1 cs.length
  | case3 c cs _ ih =>
    simp only [List.length_cons]
    omega

theorem Says.length_lt {input answer rest : List Char} (h : Says input answer rest) :
    rest.length < input.length := by
  have hpos := List.length_pos_iff.mpr (List.isEmpty_eq_false_iff.mp h.notEmpty)
  rw [← length_splitLine input, ← h.rest]
  omega

/-- No name is a command. -/
theorem typedName_not_command {name : List String} (h : name ∈ Grammar.Lexicon.characters) :
    String.ofList (typedName name) ∉ commands := by
  have hall : Grammar.Lexicon.characters.all fun name => decide (String.ofList (typedName name) ∉ commands) := by
    decide +kernel
  exact of_decide_eq_true (List.all_eq_true.mp hall name h)

/-- What is asked for at the console by an answer other than `state`. -/
theorem Looks.display {source : List Char} {play : Play} (hplay : readAs .play Play.ofTree? source = .ok play)
    {answer : List Char} (h : Looks play answer) :
    answer = "state".toList ∨ String.ofList answer ∉ commands ∧ ∃ name,
      readAs .replInput ConsoleLine.ofTree? (answer ++ ['\n']) = .ok (.display name) ∧
        Name.normalizeWords name ∈ play.castNames := by
  cases h with
  | state => exact .inl rfl
  | name hq =>
    have hname := name_of_persona hplay hq
    exact .inr ⟨typedName_not_command hname, _, readAs_name hname, List.mem_map_of_mem hq⟩
  | spelled hnot hread hq hsame =>
    refine .inr ⟨hnot, _, hread, ?_⟩
    rw [hsame]
    exact List.mem_map_of_mem hq

/-! ### The next operation -/

namespace ReportM

variable {source : List Char} {play : Play} {p q d : Performance}

theorem exists_nextOperationText (hplay : readAs .play Play.ofTree? source = .ok play) (h : d.Sound source play)
    (hover : isOver d = false) : ∃ text, nextOperationText d = .ok text d := by
  obtain ⟨op, hop⟩ := h.operation hover
  obtain ⟨context, hcontext⟩ := exists_showSpan_of_script hplay h.script hop Source.usualContext
  refine ⟨String.ofList context, reporting_of_ok ?_⟩
  have hget : (get : PerformanceM Performance) d = .ok d d := rfl
  rw [bind_of_ok (PerformanceM.nextOperation_of_some hop), bind_of_ok hget, hcontext]
  rfl

theorem operation?_of_over (h : isOver d = true) : d.script.operation? d.position = none := by
  have hle : (d.script.operations.length : Int) ≤ d.position := of_decide_eq_true h
  obtain ⟨k, hk⟩ := Int.eq_ofNat_of_zero_le (by omega : 0 ≤ d.position)
  rw [hk] at hle ⊢
  exact List.getElem?_eq_none (by omega)

theorem nextOperationText_of_over (h : isOver d = true) :
    nextOperationText d = .error (.breakdown .positionOutOfRange) d :=
  reporting_of_breakdown (bind_of_error (PerformanceM.nextOperation_of_none (operation?_of_over h)))

/-- A step leads to another position. -/
theorem position_ne_of_stepForward (hstyle : p.style ≠ .debug) (h : stepForward p = .ok () q) :
    q.position ≠ p.position := by
  have hstep := step_of_stepForward h
  obtain ⟨op, hop⟩ := PerformanceM.operation_of_step hstep
  cases hnot : op.isBreakpoint with
  | true =>
    rw [PerformanceM.step_of_breakpoint hop hnot] at hstep
    cases hstep
    show p.position + 1 ≠ p.position
    omega
  | false =>
    rw [PerformanceM.step_of_quiet hop hnot hstyle] at hstep
    cases hperform : PerformanceM.perform (PerformanceM.rememberAt p.position) op p with
    | error f t =>
      rw [bind_of_error hperform] at hstep
      cases hstep
    | ok _ t =>
      have hget : (get : PerformanceM Performance) t = .ok t t := rfl
      rw [bind_of_ok hperform, bind_of_ok hget] at hstep
      split at hstep
      · next hstay =>
        cases hstep
        show t.position + 1 ≠ p.position
        omega
      · next hleft =>
        cases hstep
        exact hleft

end ReportM

/-! ### Beside the run -/

/-- What a run and the debugger beside it have in common, where the debugger is still to read `input`. -/
def Footing.watching (layout : Script) (input : List Char) : Footing :=
  ⟨layout, layout, Eq, fun _ left => left = input, True, False, Eq, False.elim, Footing.eq_append⟩

/-- The debugger `d` is where the run is that goes on in `p`, and is still to read `input`. -/
structure Observes (source : List Char) (play : Play) (input : List Char) (p d : Performance) : Prop where
  sound : p.Sound source play
  watched : p.Watched
  names : p.stage.names = play.castNames
  abreast : Abreast (Footing.watching (Script.ofActs source play.acts) input) p d

namespace Observes

variable {source : List Char} {play : Play} {input rest answer : List Char} {p q d : Performance}

theorem position (h : Observes source play input p d) : d.position = p.position :=
  (show p.position = d.position from h.abreast.place).symm

theorem stdin (h : Observes source play input p d) : d.streams.stdin = input := h.abreast.stdin

theorem observed (h : Observes source play input p d) : d.observed = p.observed :=
  Prod.ext h.position h.abreast.stage

theorem sound' (h : Observes source play input p d) : d.Sound source play where
  numerals := h.sound.numerals
  script := h.abreast.script'
  stage := h.abreast.stage ▸ h.sound.stage
  nonneg := h.position ▸ h.sound.nonneg
  le_length := h.position ▸ h.sound.le_length

theorem notDebug (h : Observes source play input p d) : p.style ≠ .debug :=
  PerformanceM.keeping_watched.notDebug h.watched

theorem isOver_eq (h : Observes source play input p d) : isOver d = isOver p := by
  unfold isOver
  rw [h.position, h.sound.length, h.sound'.length]

theorem atBreakpoint_eq (h : Observes source play input p d) : d.atBreakpoint = p.atBreakpoint := by
  have hforget : ∀ o : Option Operation,
      (o.map Operation.forget).any Operation.isBreakpoint = o.any Operation.isBreakpoint := by
    intro o
    cases o with
    | none => rfl
    | some op => exact op.isBreakpoint_forget
  unfold Performance.atBreakpoint
  rw [h.position, ← hforget, h.abreast.operation rfl, hforget]

/-- What the debugger prints does not matter. -/
theorem aside (h : Observes source play input p d) (streams : Streams) (hstdin : streams.stdin = rest)
    (hreader : streams.reader = d.streams.reader) : Observes source play rest p { d with streams := streams } :=
  ⟨h.sound, h.watched, h.names, h.abreast.script, h.abreast.script', h.abreast.faithful, h.abreast.faithful',
    h.abreast.stage, h.abreast.place, h.abreast.desk, h.abreast.style, hstdin, hreader.trans h.abreast.reader,
    h.abreast.uttered, False.elim⟩

theorem print (h : Observes source play input p d) (out : String) : Observes source play input p (d.printed out) :=
  h.aside _ h.stdin rfl

theorem hear (h : Observes source play input p d) (hsaid : Says input answer rest) (prompt : String) :
    Observes source play rest p (asked prompt d) := by
  refine h.aside _ ?_ rfl
  show (splitLine d.streams.stdin).2 = rest
  rw [h.stdin]
  exact hsaid.rest

/-- **The debugger makes the step that the run makes.** -/
theorem step (h : Observes source play input p d) (hstep : stepForward p = .ok () q)
    (hshares : Shares p input rest) :
    ∃ e, stepForward d = .ok () e ∧ Observes source play rest q e := by
  have hp := step_of_stepForward hstep
  have hstepped := (PerformanceM.ends_step h.sound.stage).ok hp
  have hwatched := (PerformanceM.keeps_step PerformanceM.keeping_watched h.watched).ok hp
  have hexcuse : ∀ e, ¬ (Footing.watching (Script.ofActs source play.acts) input).Excuse e :=
    Footing.not_excuse_of_styled trivial
  obtain ⟨_, e, he, habreast⟩ : ∃ u e, PerformanceM.step d = .ok u e ∧
      Abreast (Footing.watching (Script.ofActs source play.acts) rest) q e := by
    cases hshares with
    | read htakes hline hline' =>
      have hsame : PerformanceM.SameLine p.streams.stdin d.streams.stdin fun _ left => left = rest := by
        rw [h.stdin]
        exact ⟨hline'.line.trans hline.line.symm, hline'.notEmpty.trans hline.notEmpty.symm, hline'.rest⟩
      exact (PerformanceM.couples_step_asking h.abreast rfl rfl trivial h.notDebug h.watched.desk htakes
        hsame).ok_of_ok hexcuse hp
    | nothing hnot =>
      exact (PerformanceM.couples_step h.abreast rfl rfl (fun htakes => absurd htakes hnot)
        fun hs => absurd trivial hs).ok_of_ok hexcuse hp
  exact ⟨e, reporting_of_ok he, h.sound.stepped hstepped, hwatched, hstepped.stage.names.trans h.names, habreast⟩

end Observes

/-! ### Answers at the console -/

namespace ReportM

variable {input rest answer : List Char} {p q d e : Performance} {speaker : Option String}

/-- The styles are chosen anew, and are those that were chosen before. -/
theorem openConsole_of_text {text : String} (htext : nextOperationText d = .ok text d)
    (hdesk : d.desk = .interactive) (hstyle : d.style = .verbose) :
    openConsole d = .ok () (d.printed (d.streams.out ++ ("-----\n" ++ text ++ "\n-----\n" ++ "\n"))) := by
  obtain ⟨script, stage, position, desk, style, streams, uttered⟩ := d
  cases hdesk
  cases hstyle
  exact bind_of_ok htext

theorem turn_of_answer {next : Option (Option String)} (hsaid : Says d.streams.stdin answer rest)
    (h : answerLine answer speaker (asked ">> " d) = .ok next e) :
    turn (.paused speaker) d = .ok (next.elim .running .paused) e := by
  have hask : bare (PerformanceM.ask ">> ") d = .ok answer (asked ">> " d) := by
    unfold bare
    rw [PerformanceM.ask_eq, if_neg (by rw [hsaid.notEmpty]; exact Bool.false_ne_true), hsaid.line]
  have hround : consoleRound speaker d = .ok next e := by
    refine (bind_of_ok hask).trans ?_
    rw [h]
  rw [turn, bind_of_ok hround]
  cases next <;> rfl

theorem showProgress_of_same (h : e.position = n) : showProgress n speaker e = .ok (some speaker) e := by
  have hget : (get : ReportM Performance) e = .ok e e := rfl
  unfold showProgress
  rw [bind_of_ok hget, if_pos h]
  rfl

theorem answerLine_continue (speaker : Option String) (d : Performance) :
    answerLine "continue".toList speaker d = .ok none d := rfl

theorem answerLine_next (speaker : Option String) (d : Performance) : answerLine "next".toList speaker d = (do
    if ← playOver then return none
    stepForward
    showProgress d.position speaker : ReportM (Option (Option String))) d := rfl

theorem bare_printLine {content : Except Breakdown String} {text : String} (h : content = .ok text) :
    bare (do PerformanceM.printLine (← PerformanceM.ofBreakdown content)) d =
      .ok () (d.printed (d.streams.out ++ (text ++ "\n"))) := by
  rw [h]
  rfl

theorem answerLine_state {text : String} (h : d.stage.text = .ok text) : answerLine "state".toList speaker d =
    .ok (some speaker) (d.printed (d.streams.out ++ (text ++ "\n"))) := by
  show (bare _ >>= fun _ => showProgress d.position speaker) d = _
  rw [bind_of_ok (bare_printLine h)]
  exact showProgress_of_same rfl

theorem answerLine_of_not_command (h : String.ofList answer ∉ commands) : answerLine answer speaker d =
    (do showProgress d.position (← performConsoleLine answer speaker) : ReportM (Option (Option String))) d := by
  have hget : (get : ReportM Performance) d = .ok d d := rfl
  unfold answerLine
  refine (bind_of_ok hget).trans (congrFun ?_ d)
  split
  · next heq => exact absurd (heq ▸ by decide) h
  · next heq => exact absurd (heq ▸ by decide) h
  · next heq => exact absurd (heq ▸ by decide) h
  · next heq => exact absurd (heq ▸ by decide) h
  · next heq => exact absurd (heq ▸ by decide) h
  · rfl

theorem answerLine_display {name : List String} {c : Character} {text : String}
    (hnot : String.ofList answer ∉ commands)
    (hread : readAs .replInput ConsoleLine.ofTree? (answer ++ ['\n']) = .ok (.display name))
    (hc : d.stage.character (Name.normalizeWords name) = .ok c) (htext : c.text = .ok text) :
    answerLine answer speaker d = .ok (some speaker) (d.printed (d.streams.out ++ (text ++ "\n"))) := by
  have hline : readConsoleLine (answer ++ ['\n']) d = .ok (.display name) d := by
    unfold readConsoleLine
    rw [hread]
    rfl
  have hlook : bare (PerformanceM.look (·.character (Name.normalizeWords name))) d = .ok c d := by
    unfold bare PerformanceM.look
    simp only [hc]
  have hperform : performConsoleLine answer speaker d =
      .ok speaker (d.printed (d.streams.out ++ (text ++ "\n"))) := by
    refine (bind_of_ok hline).trans ((bind_of_ok hlook).trans ?_)
    exact bind_of_ok (bare_printLine htext)
  rw [answerLine_of_not_command hnot, bind_of_ok hperform]
  exact showProgress_of_same rfl

end ReportM

/-! ### Turns of the debugger -/

namespace Observes

variable {source : List Char} {play : Play} {input rest rest' answer : List Char} {p q d : Performance}

theorem said (h : Observes source play input p d) (hsaid : Says input answer rest) :
    Says d.streams.stdin answer rest := by
  rw [h.stdin]
  exact hsaid

theorem exists_openConsole (h : Observes source play input p d)
    (hplay : readAs .play Play.ofTree? source = .ok play) (hover : isOver p = false) :
    ∃ e, openConsole d = .ok () e ∧ Observes source play input p e := by
  obtain ⟨text, htext⟩ := exists_nextOperationText hplay h.sound' (h.isOver_eq.trans hover)
  have hdesk : d.desk = .interactive := h.abreast.desk.trans h.watched.desk
  have hstyle : d.style = .verbose := (h.abreast.style trivial).trans h.watched.style
  exact ⟨_, openConsole_of_text htext hdesk hstyle, h.print _⟩

theorem turn_step (h : Observes source play input p d) (hover : isOver p = false) (hat : p.atBreakpoint = false)
    (hstep : stepForward p = .ok () q) (hshares : Shares p input rest) :
    ∃ e, turn .running d = .ok .running e ∧ Observes source play rest q e := by
  obtain ⟨e, he, hobserves⟩ := h.step hstep hshares
  refine ⟨e, ?_, hobserves⟩
  rw [turn_of_stepForward (h.isOver_eq.trans hover) he, if_neg (by simp [h.atBreakpoint_eq, hat])]
  rfl

theorem moved {e : Performance} (h : Observes source play input p d) (hstep : stepForward p = .ok () q)
    (he : Observes source play rest q e) : e.observed ≠ d.observed := by
  rw [he.observed, h.observed]
  exact fun hsame => position_ne_of_stepForward h.notDebug hstep (congrArg Prod.fst hsame)

theorem length_lt {e : Performance} (h : Observes source play input p d) (he : Observes source play rest q e)
    (hlt : rest.length < input.length) : e.streams.stdin.length < d.streams.stdin.length := by
  rw [h.stdin, he.stdin]
  exact hlt

/-- A breakpoint reads nothing. -/
theorem shares_of_breakpoint (h : p.atBreakpoint = true) : Shares p input input := by
  obtain ⟨op, hop, hbreak⟩ := (Option.any_eq_true _ _).mp h
  refine .nothing ?_
  rintro ⟨op', hop', htakes⟩
  obtain rfl : op = op' := Option.some.inj (hop.symm.trans hop')
  unfold Operation.isBreakpoint at hbreak
  unfold Deed.takesInput at htakes
  split at htakes
  · next hdeed =>
    rw [hdeed] at hbreak
    cases hbreak
  · cases htakes

theorem turn_pause (h : Observes source play input p d) (hplay : readAs .play Play.ofTree? source = .ok play)
    (hover : isOver p = false) (hat : p.atBreakpoint = true) (hstep : stepForward p = .ok () q)
    (hnext : isOver q = false) :
    ∃ e, turn .running d = .ok (.paused none) e ∧ Observes source play input q e := by
  obtain ⟨t, ht, hobserves⟩ := h.step hstep (shares_of_breakpoint hat)
  obtain ⟨e, he, hopen⟩ := hobserves.exists_openConsole hplay hnext
  refine ⟨e, ?_, hopen⟩
  rw [turn_of_stepForward (h.isOver_eq.trans hover) ht, if_pos (h.atBreakpoint_eq.trans hat), bind_of_ok he]
  rfl

theorem turn_last (h : Observes source play input p d) (hover : isOver p = false) (hat : p.atBreakpoint = true)
    (hstep : stepForward p = .ok () q) (hend : isOver q = true) :
    ∃ e, turn .running d = .error (.breakdown .positionOutOfRange) e ∧ Observes source play input q e := by
  obtain ⟨e, he, hobserves⟩ := h.step hstep (shares_of_breakpoint hat)
  have hopen : openConsole e = .error (.breakdown .positionOutOfRange) e :=
    bind_of_error (nextOperationText_of_over (hobserves.isOver_eq.trans hend))
  refine ⟨e, ?_, hobserves⟩
  rw [turn_of_stepForward (h.isOver_eq.trans hover) he, if_pos (h.atBreakpoint_eq.trans hat), bind_of_error hopen]

theorem turn_look (h : Observes source play input p d) (hplay : readAs .play Play.ofTree? source = .ok play)
    (hsaid : Says input answer rest) (hlooks : Looks play answer) (speaker : Option String) :
    ∃ e, turn (.paused speaker) d = .ok (.paused speaker) e ∧ Observes source play rest p e := by
  have hheard := h.hear hsaid ">> "
  have hlegible : (asked ">> " d).stage.Legible := hheard.abreast.stage ▸ h.watched.stage
  suffices hanswer : ∃ out, answerLine answer speaker (asked ">> " d) =
      .ok (some speaker) ((asked ">> " d).printed out) by
    obtain ⟨out, hout⟩ := hanswer
    exact ⟨_, turn_of_answer (h.said hsaid) hout, hheard.print out⟩
  obtain rfl | ⟨hnot, name, hread, hname⟩ := hlooks.display hplay
  · obtain ⟨text, htext⟩ := hlegible.text
    exact ⟨_, answerLine_state htext⟩
  · rw [← h.names] at hname
    obtain ⟨c, hc⟩ := mem_keys_iff_lookup.mp hname
    have hcharacter : (asked ">> " d).stage.character (Name.normalizeWords name) = .ok c := by
      rw [hheard.abreast.stage]
      unfold Stage.character
      rw [hc]
    obtain ⟨text, htext⟩ := (hlegible.character hcharacter).text
    exact ⟨_, answerLine_display hnot hread hcharacter htext⟩

theorem turn_next (h : Observes source play input p d) (hplay : readAs .play Play.ofTree? source = .ok play)
    (hover : isOver p = false) (hsaid : Says input "next".toList rest) (hstep : stepForward p = .ok () q)
    (hshares : Shares p rest rest') (speaker : Option String) :
    ∃ e, turn (.paused speaker) d = .ok (bif !isOver q then .paused speaker else .running) e ∧
      Observes source play rest' q e := by
  have hheard := h.hear hsaid ">> "
  obtain ⟨t, ht, hobserves⟩ := hheard.step hstep hshares
  have hmoved : t.position ≠ (asked ">> " d).position := by
    rw [hobserves.position, hheard.position]
    exact position_ne_of_stepForward h.notDebug hstep
  have hget : (get : ReportM Performance) t = .ok t t := rfl
  have hanswer : answerLine "next".toList speaker (asked ">> " d) =
      showProgress (asked ">> " d).position speaker t := by
    rw [answerLine_next, bind_of_ok (playOver_eq _), if_neg (by simp [hheard.isOver_eq, hover]), bind_of_ok ht]
  have hshow : showProgress (asked ">> " d).position speaker t = (do
      if ← playOver then return none
      let text ← nextOperationText
      bare (PerformanceM.printLine ("\n-----\n" ++ text ++ "\n-----\n"))
      return some speaker : ReportM (Option (Option String))) t := by
    unfold showProgress
    rw [bind_of_ok hget, if_neg hmoved]
  rw [hshow, bind_of_ok (playOver_eq t), hobserves.isOver_eq] at hanswer
  cases hend : isOver q with
  | true =>
    rw [hend, if_pos rfl] at hanswer
    exact ⟨t, turn_of_answer (h.said hsaid) hanswer, hobserves⟩
  | false =>
    obtain ⟨text, htext⟩ := exists_nextOperationText hplay hobserves.sound' (hobserves.isOver_eq.trans hend)
    rw [hend, if_neg Bool.false_ne_true, bind_of_ok htext] at hanswer
    exact ⟨_, turn_of_answer (h.said hsaid) hanswer, hobserves.print _⟩

end Observes

/-! ### The whole session -/

theorem Shares.length_le {p : Performance} {input rest : List Char} (h : Shares p input rest) :
    rest.length ≤ input.length := by
  cases h with
  | read _ _ hline => exact Nat.le_of_lt hline.length_lt
  | nothing _ => exact Nat.le_refl _

namespace Scripted

variable {source : List Char} {play : Play} {atConsole stranded : Bool} {p : Performance} {input : List Char}

/-- What the debugger goes through, by induction on the session. The console is open only while the play is not
over. -/
theorem follows (hplay : readAs .play Play.ofTree? source = .ok play)
    (h : Scripted play atConsole p input stranded) :
    ∀ (d : Performance) (speaker : Option String), Observes source play input p d →
      (atConsole = true → isOver p = false) →
      ∃ n q k d', Follows stranded (bif atConsole then .paused speaker else .running) p d n q k d' := by
  induction h with
  | ended hover =>
    intro d speaker hd _
    have hturn := turn_of_over (hd.isOver_eq.trans hover)
    exact ⟨0, _, 1, d, (Follows.finish hover hd.observed).wait hturn nofun rfl⟩
  | step hover hat hstep hshares _ ih =>
    intro d speaker hd _
    obtain ⟨e, hturn, he⟩ := hd.turn_step hover hat hstep hshares
    obtain ⟨n, q, k, d', hrest⟩ := ih e speaker he nofun
    exact ⟨n + 1, q, k + 1, d', hrest.move hturn nofun hover hstep hd.observed (hd.moved hstep he)⟩
  | pause hover hat hstep hnext _ ih =>
    intro d speaker hd _
    obtain ⟨e, hturn, he⟩ := hd.turn_pause hplay hover hat hstep hnext
    obtain ⟨n, q, k, d', hrest⟩ := ih e none he fun _ => hnext
    exact ⟨n + 1, q, k + 1, d', hrest.move hturn nofun hover hstep hd.observed (hd.moved hstep he)⟩
  | last hover hat hstep hend =>
    intro d speaker hd _
    obtain ⟨e, hturn, he⟩ := hd.turn_last hover hat hstep hend
    exact ⟨1, _, 1, e, Follows.strand hturn hover hstep hend hd.observed he.observed (hd.moved hstep he)⟩
  | look hsaid hlooks _ ih =>
    intro d speaker hd hopen
    obtain ⟨e, hturn, he⟩ := hd.turn_look hplay hsaid hlooks speaker
    obtain ⟨n, q, k, d', hrest⟩ := ih e speaker he hopen
    have hshorter := hd.length_lt he hsaid.length_lt
    exact ⟨n, q, k + 1, d', hrest.wait hturn (fun _ _ => hshorter) (he.observed.trans hd.observed.symm)⟩
  | next hsaid hstep hshares _ ih =>
    intro d speaker hd hopen
    obtain ⟨e, hturn, he⟩ := hd.turn_next hplay (hopen rfl) hsaid hstep hshares speaker
    obtain ⟨n, q, k, d', hrest⟩ := ih e speaker he (by simp)
    have hshorter := hd.length_lt he (Nat.lt_of_le_of_lt hshares.length_le hsaid.length_lt)
    exact ⟨n + 1, q, k + 1, d',
      hrest.move hturn (fun _ _ => hshorter) (hopen rfl) hstep hd.observed (hd.moved hstep he)⟩
  | goOn hsaid _ ih =>
    intro d speaker hd hopen
    have he := hd.hear hsaid ">> "
    have hturn := turn_of_answer (hd.said hsaid) (answerLine_continue speaker _)
    obtain ⟨n, q, k, d', hrest⟩ := ih _ speaker he nofun
    have hshorter := hd.length_lt he hsaid.length_lt
    exact ⟨n, q, k + 1, d', hrest.wait hturn (fun _ _ => hshorter) (he.observed.trans hd.observed.symm)⟩

/-- Only a breakpoint at the end of the script leaves the debugger stranded. -/
theorem last_isBreakpoint (h : Scripted play atConsole p input stranded) (hp : p.Sound source play)
    (hstranded : stranded = true) :
    (Script.ofActs source play.acts).operations.getLast?.any Operation.isBreakpoint = true := by
  induction h with
  | ended _ => cases hstranded
  | step _ _ hstep _ _ ih => exact ih ((sound_stepForward hp).ok hstep) hstranded
  | pause _ _ hstep _ _ ih => exact ih ((sound_stepForward hp).ok hstep) hstranded
  | look _ _ _ ih => exact ih hp hstranded
  | next _ hstep _ _ ih => exact ih ((sound_stepForward hp).ok hstep) hstranded
  | goOn _ _ ih => exact ih hp hstranded
  | @last p q input hover hat hstep hend =>
    obtain ⟨op, hop, hbreak⟩ := (Option.any_eq_true _ _).mp hat
    rw [stepForward_of_breakpoint hat] at hstep
    cases hstep
    have hle : (p.script.operations.length : Int) ≤ p.position + 1 := of_decide_eq_true hend
    have hlt := hp.lt_length hop
    rw [← hp.length] at hlt
    obtain ⟨k, hk⟩ := Int.eq_ofNat_of_zero_le hp.nonneg
    rw [hk] at hop hle hlt
    have hlast : p.script.operations.getLast? = some op := by
      rw [List.getLast?_eq_getElem?, show p.script.operations.length - 1 = k by omega]
      exact hop
    rw [← hp.script]
    show ((p.script.operations.map Operation.forget).getLast?).any Operation.isBreakpoint = true
    rw [List.getLast?_map, hlast, Option.map_some, Option.any_some, op.isBreakpoint_forget]
    exact hbreak

end Scripted

/-- Both are opened in the same way. -/
theorem observes_of_ofText {source text : List Char} {play : Play} {p : Performance}
    (hplay : readAs .play Play.ofTree? source = .ok play)
    (hp : Performance.ofText source "interactive" "verbose" (Session.streams text none) = .ok p)
    (input : List Char) :
    Performance.ofText source "interactive" "verbose" (Session.streams input none) =
        .ok { p with streams := Session.streams input none } ∧
      p.script = Script.ofActs source play.acts ∧
      Observes source play input p { p with streams := Session.streams input none } := by
  refine ⟨Performance.ofText_of_streams hp _ rfl, ?_⟩
  obtain ⟨desk, style, play', hdesk, hstyle, hplay', hopened, rfl⟩ := Performance.opened_of_ofText hp
  rw [hplay] at hplay'
  cases hplay'
  cases hdesk
  cases hstyle
  have hfaithful := Script.faithful_ofActs source play.acts
  have hforget := Performance.forget_ofActs source play.acts
  exact ⟨rfl, Performance.sound_ofPlay hopened, ⟨rfl, rfl, Stage.legible_ofCast play.castNames⟩,
    Stage.names_of_fresh rfl,
    hforget, hforget, hfaithful, hfaithful, rfl, rfl, rfl, fun _ => rfl, rfl, rfl, rfl, False.elim⟩

/-- **The debugger changes nothing.** Let a play be run with interactive input and verbose output, and let `input`
be a session beside that run: each prompt of the console is answered with `next`, `continue`, `state` or the name
of a declared character, and each line that the play asks for is the one that it reads in the run. Then the run
returns. The debugger returns as well, and its turns go through the positions and stages of the run, in their
order. If the session is stranded, the debugger has gone through all of them too, but breaks down instead of
returning. That happens only if the last operation of the script is a breakpoint, and to no session that passes it
with `next`. -/
theorem debugging_changes_nothing {source text input : List Char} {play : Play} {p : Performance} {stranded : Bool}
    (hplay : readAs .play Play.ofTree? source = .ok play)
    (hp : Performance.ofText source "interactive" "verbose" (Session.streams text none) = .ok p)
    (h : Scripted play false p input stranded) :
    ∃ (n k fuel : Nat) (q d d' : Performance) (marks marks' : List Unit),
      ReportM.run (pure ()) (n + 1) p = .ok marks q ∧
      Performance.ofText source "interactive" "verbose" (Session.streams input none) = .ok d ∧
      ReportM.run pause fuel d = ending stranded marks' d' ∧
      Session.debug fuel source "interactive" "verbose" input = ⟨d'.streams.out, d'.streams.err,
        if stranded then .failed (.breakdown .positionOutOfRange) else .returned⟩ ∧
      turns k .running d = ending stranded .ended d' ∧
      (∀ i < k, ∃ m e fuel' seen rounds,
        turns i .running d = .ok m e ∧ ReportM.run pause fuel d = debugFrom fuel' seen m rounds e) ∧
      (course (turns · .running) k d).destutter (· ≠ ·) = course steps n p ∧
      d'.observed = q.observed ∧
      (stranded = true → p.script.operations.getLast?.any Operation.isBreakpoint = true) := by
  obtain ⟨hd, hscript, hobserves⟩ := observes_of_ofText hplay hp input
  generalize { p with streams := Session.streams input none } = d at hd hobserves
  obtain ⟨n, q, k, d', hfollows⟩ := h.follows hplay d none hobserves nofun
  obtain ⟨marks, hrun⟩ := (run_succ_iff hfollows.performed).mpr hfollows.ended
  obtain ⟨fuel, hfuel⟩ := hfollows.comes
  obtain ⟨⟨marks', hdebug⟩, hpasses⟩ := hfuel [] (d.streams.stdin.length + 1) (Nat.lt_succ_self _)
  have houtcome : Session.debug fuel source "interactive" "verbose" input =
      Session.outcome (ReportM.run pause fuel d) := by
    unfold Session.debug Session.perform
    rw [hd]
  refine ⟨n, k, fuel, q, d, d', marks, marks', hrun, hd, hdebug, ?_, hfollows.turned, hpasses, hfollows.through,
    hfollows.same, hscript ▸ h.last_isBreakpoint hobserves.sound⟩
  rw [houtcome, show ReportM.run pause fuel d = ending stranded marks' d' from hdebug]
  cases stranded <;> rfl

/-! ### A play that ends with a pause -/

/-- After a pause somebody is told a number, and there is another pause. -/
def rehearsal : Play :=
  ⟨"T", [⟨⟨3, 12⟩, ["Romeo"]⟩, ⟨⟨13, 23⟩, ["Juliet"]⟩], [⟨⟨⟨28, 29⟩, "I"⟩, "a", [⟨⟨⟨40, 41⟩, "I"⟩, "b", [
    .entrance ⟨46, 70⟩ [["Romeo"], ["Juliet"]], .breakpoint ⟨71, 80⟩,
    .line ⟨81, 109⟩ ["Romeo"] [⟨⟨88, 109⟩, none, .input .number⟩], .breakpoint ⟨110, 119⟩]⟩]⟩]⟩

def rehearsalText : List Char :=
  ("T. Romeo, x. Juliet, y. Act I: a. Scene I: b. [Enter Romeo and Juliet] [A pause] " ++
    "Romeo: Listen to your heart! [A pause]").toList

/-- The performance of `rehearsal` about to begin. -/
def rehearsalStart : Performance :=
  ⟨Script.ofActs rehearsalText rehearsal.acts, Stage.ofCast ["Romeo", "Juliet"], 0, .interactive, .verbose,
    Session.streams "7\n".toList none, []⟩

theorem readAs_rehearsalText : readAs .play Play.ofTree? rehearsalText = .ok rehearsal := by decide +kernel

theorem stepForward_of_isOk {p : Performance} (h : (outcomeOf stepForward p).isOk = true) :
    stepForward p = .ok () (stateAfter stepForward p) := by
  unfold outcomeOf at h
  unfold stateAfter
  cases hp : stepForward p with
  | ok _ q => rfl
  | error r q =>
    rw [hp] at h
    cases h

/-- The pause at the end is passed with `next`. -/
theorem scripted_rehearsal :
    Scripted rehearsal false rehearsalStart "state\nJuliet\nnext\n7\nnext\n".toList false := by
  have hstate : Says "state\nJuliet\nnext\n7\nnext\n".toList "state".toList "Juliet\nnext\n7\nnext\n".toList := by
    decide
  have hname : Says "Juliet\nnext\n7\nnext\n".toList (typedName ["Juliet"]) "next\n7\nnext\n".toList := by decide
  have hnext : Says "next\n7\nnext\n".toList "next".toList "7\nnext\n".toList := by decide
  have hnumber : Says "7\nnext\n".toList "7".toList "next\n".toList := by decide
  have hlast : Says "next\n".toList "next".toList [] := by decide
  have hlooks : Looks rehearsal (typedName ["Juliet"]) :=
    .name (q := ⟨⟨13, 23⟩, ["Juliet"]⟩) (List.mem_cons_of_mem _ List.mem_cons_self)
  have hok : ∀ n < 4, (outcomeOf stepForward (rehearsalStart.afterSteps n)).isOk = true := by decide +kernel
  have hstep := fun n hn => stepForward_of_isOk (hok n hn)
  have hover : ∀ n < 4, isOver (rehearsalStart.afterSteps n) = false := by decide +kernel
  have hend : isOver (rehearsalStart.afterSteps 4) = true := by decide +kernel
  have htakes : TakesInput (rehearsalStart.afterSteps 2) := by decide +kernel
  have hread : Says (rehearsalStart.afterSteps 2).streams.stdin "7".toList [] := by decide +kernel
  have hpassed : ¬ TakesInput (rehearsalStart.afterSteps 3) := by decide +kernel
  show Scripted rehearsal false (rehearsalStart.afterSteps 0) _ false
  refine .step (hover 0 (by decide)) (by decide) (hstep 0 (by decide)) (.nothing (by decide)) ?_
  refine .pause (hover 1 (by decide)) (by decide +kernel) (hstep 1 (by decide)) (hover 2 (by decide)) ?_
  refine .look hstate .state (.look hname hlooks ?_)
  refine .next hnext (hstep 2 (by decide)) (.read htakes hread hnumber) ?_
  rw [show isOver (stateAfter stepForward (rehearsalStart.afterSteps 2)) = false from hover 3 (by decide)]
  refine .next hlast (hstep 3 (by decide)) (.nothing hpassed) ?_
  rw [show isOver (stateAfter stepForward (rehearsalStart.afterSteps 3)) = true from hend]
  exact .ended hend

theorem debugging_changes_nothing_rehearsal :
    Scripted rehearsal false rehearsalStart "state\nJuliet\nnext\n7\nnext\n".toList false ∧
      ∃ (n k fuel : Nat) (q d d' : Performance),
        (∃ marks, ReportM.run (pure ()) (n + 1) rehearsalStart = .ok marks q) ∧
        Session.debug fuel rehearsalText "interactive" "verbose" "state\nJuliet\nnext\n7\nnext\n".toList =
          ⟨d'.streams.out, d'.streams.err, .returned⟩ ∧
        (course (turns · .running) k d).destutter (· ≠ ·) = course steps n rehearsalStart ∧
        d'.observed = q.observed := by
  have hopen : Performance.ofText rehearsalText "interactive" "verbose" (Session.streams "7\n".toList none) =
      .ok rehearsalStart := by
    unfold Performance.ofText
    rw [readAs_rehearsalText]
    rfl
  obtain ⟨n, k, fuel, q, d, d', marks, marks', hrun, -, -, hdebug, -, -, hcourse, hsame, -⟩ :=
    debugging_changes_nothing readAs_rehearsalText hopen scripted_rehearsal
  exact ⟨scripted_rehearsal, n, k, fuel, q, d, d', ⟨marks, hrun⟩, hdebug, hcourse, hsame⟩

/-- A play that ends with a pause returns if it is run, and breaks down in the debugger. -/
theorem debugging_can_strand :
    (Session.run 3 "T. Romeo, x. Act I: a. Scene I: b. [Enter Romeo] [A pause]".toList "interactive" "verbose"
        []).ending = .returned ∧
      (Session.debug 3 "T. Romeo, x. Act I: a. Scene I: b. [Enter Romeo] [A pause]".toList "interactive" "verbose"
        "continue\n".toList).ending = .failed (.breakdown .positionOutOfRange) := by
  decide +kernel

end Playhouse
