import Playhouse.Proofs.Stepping
import Playhouse.Proofs.Unmarked

/-!
# Playhouse.Proofs.Transcript — what is printed is what is put out, with remarks in between

Whatever the style and wherever the input comes from, all that a performance prints falls into pieces. Some are
what the play puts out, in its order and as the style shows it. The others are remarks: questions to the user,
lines about what is done, which have no colon, and the headers of the debug style. Each step adds pieces at the
end, also where it fails. Main statement: `recounts_afterSteps`.
-/

namespace Playhouse

/-! ### Pieces -/

/-- The text of what is put out. -/
def Utterance.text : Utterance → String
  | number n => toString n
  | character code => String.singleton (Char.ofNat code.toNat)

/-- The line that tells what is put out. -/
def Utterance.line : Utterance → String
  | number n => "Outputting number: " ++ toString n
  | character code => "Outputting character: " ++ String.ofList (Text.quotedCodes [code.toNat])

/-- What a style shows of what is put out: a line about it, or the thing itself. -/
def OutputStyle.shown (style : OutputStyle) (u : Utterance) : String :=
  if style.narrates then u.line ++ "\n" else u.text

/-- A piece of what is printed: something that the play puts out, or a remark. -/
inductive Piece where
  | output (u : Utterance)
  | remark (text : String)
  deriving DecidableEq, Repr

/-- What the play puts out with the piece. -/
def Piece.output? : Piece → Option Utterance
  | output u => some u
  | remark _ => none

/-- The piece as it is printed. -/
def Piece.text (style : OutputStyle) : Piece → String
  | output u => style.shown u
  | remark text => text

/-- The pieces as they are printed one after the other. The latest comes first in the list. -/
def transcript (style : OutputStyle) : List Piece → String
  | [] => ""
  | x :: xs => transcript style xs ++ x.text style

/-- The question to the user for a number or a character. -/
def Medium.question : Medium → String
  | number => "Taking input number: "
  | character => "Taking input character: "

namespace Performance

/-- What a performance may print besides what the play puts out: questions, if its input comes from the user; lines
without a colon, if its style tells what is done; and in the debug style what stands before an operation of its
script. -/
inductive Remark (p : Performance) : String → Prop
  | question (medium : Medium) : p.desk = .interactive → Remark p medium.question
  | line {text : String} : p.style.narrates = true → Unmarked text → Remark p (text ++ "\n")
  | header {q : Performance} {op : Operation} {text : String} : p.style = .debug →
      q.script.forget = p.script.forget → q.script.operation? q.position = some op →
      PerformanceM.debugText q op = .ok text → Remark p (text ++ "\n")

/-- From `p` to `q` the pieces were printed, latest first, and what the play puts out with them was put out. -/
structure Prints (p q : Performance) (pieces : List Piece) : Prop where
  out : q.streams.out = p.streams.out ++ transcript p.style pieces
  uttered : q.uttered = pieces.filterMap Piece.output? ++ p.uttered
  remarks : ∀ text, Piece.remark text ∈ pieces → p.Remark text

/-- All that was printed from `p` to `q` falls into pieces. Nobody is asked in `q` who was not asked in `p`. -/
structure Recounts (p q : Performance) : Prop where
  style : q.style = p.style
  asks : q.desk = .interactive → p.desk = .interactive
  prints : ∃ pieces, p.Prints q pieces

namespace Recounts

variable {p q r : Performance} {text : String}

theorem refl (p : Performance) : p.Recounts p :=
  ⟨rfl, fun h => h, [], ⟨String.append_empty.symm, rfl, fun _ h => absurd h List.not_mem_nil⟩⟩

/-- Nothing else matters than the style, the desk, and what was printed and put out. -/
theorem congr (h : p.Recounts q) (hstyle : r.style = q.style)
    (hdesk : r.desk = .interactive → q.desk = .interactive) (hout : r.streams.out = q.streams.out)
    (huttered : r.uttered = q.uttered) : p.Recounts r := by
  obtain ⟨pieces, hpieces⟩ := h.prints
  exact ⟨hstyle.trans h.style, fun hr => h.asks (hdesk hr), pieces, hout.trans hpieces.out,
    huttered.trans hpieces.uttered, hpieces.remarks⟩

theorem remark (h : p.Recounts q) (htext : p.Remark text) : p.Recounts (q.printed (q.streams.out ++ text)) := by
  obtain ⟨pieces, hpieces⟩ := h.prints
  refine ⟨h.style, h.asks, .remark text :: pieces, ?_, hpieces.uttered, fun s hs => ?_⟩
  · show q.streams.out ++ text = p.streams.out ++ (transcript p.style pieces ++ text)
    rw [hpieces.out, String.append_assoc]
  · rcases List.mem_cons.mp hs with heq | hs
    · rw [Piece.remark.inj heq]
      exact htext
    · exact hpieces.remarks s hs

theorem put {u : Utterance} (h : p.Recounts q) (htext : text = q.style.shown u) :
    p.Recounts { q.printed (q.streams.out ++ text) with uttered := u :: q.uttered } := by
  obtain ⟨pieces, hpieces⟩ := h.prints
  refine ⟨h.style, h.asks, .output u :: pieces, ?_, ?_, fun s hs => ?_⟩
  · show q.streams.out ++ text = p.streams.out ++ (transcript p.style pieces ++ p.style.shown u)
    rw [hpieces.out, htext, h.style, String.append_assoc]
  · show u :: q.uttered = u :: (pieces.filterMap Piece.output? ++ p.uttered)
    rw [hpieces.uttered]
  · exact hpieces.remarks s ((List.mem_cons.mp hs).resolve_left nofun)

end Recounts

theorem feeding_recounts (p : Performance) : PerformanceM.Feeding p.Recounts where
  read _ h := h.congr rfl (fun hd => hd) rfl rfl
  hold _ h := h.congr rfl (by simp) rfl rfl
  reader _ _ h := h.congr rfl (by simp) rfl rfl

end Performance

namespace PerformanceM

open Performance

variable {p q : Performance} {speaker : String}

/-- Wherever it is started after `p`, the activity adds pieces to what was printed, also if it fails. -/
def Tells {α : Type} (p : Performance) (m : PerformanceM α) : Prop :=
  ∀ q, p.Recounts q → Ends m q (fun _ => p.Recounts) (fun _ => p.Recounts)

section Tells

variable {α β : Type} {m : PerformanceM α} {f : α → PerformanceM β}

theorem tells_pure (a : α) : Tells p (pure a) := fun _ h => ends_pure h

theorem tells_throw (e : Fault) : Tells p (throw e : PerformanceM α) := fun _ h => ends_throw h

theorem tells_get : Tells p (get : PerformanceM Performance) := fun _ h => ends_get h

theorem tells_ofBreakdown (r : Except Breakdown α) : Tells p (ofBreakdown r) :=
  fun _ h => ends_ofBreakdown (fun _ _ => h) fun _ => h

theorem tells_look (g : Stage → Except Fault α) : Tells p (look g) :=
  fun _ h => ends_look (fun _ _ => h) fun _ _ => h

theorem Tells.bind (hm : Tells p m) (hf : ∀ a, Tells p (f a)) : Tells p (m >>= f) :=
  fun q h => (hm q h).bind fun a r hr => hf a r hr

/-! ### Lines and questions -/

theorem tells_narrate {text : String} (htext : Unmarked text) : Tells p (narrate text) := by
  intro q h
  unfold narrate
  apply ends_bind
  apply ends_get
  split
  · next hnarrates =>
    rw [h.style] at hnarrates
    exact ends_modify (h.remark (.line hnarrates htext))
  · exact ends_pure h

/-- The text of a number is its numeral. -/
theorem eq_toString_of_numeral {n : Int} {text : String} (h : Number.numeral n = .ok text) :
    text = toString n := by
  unfold Number.numeral at h
  generalize Number.numeralBound = bound at h
  split at h
  · exact (Except.ok.inj h).symm
  · cases h

theorem ends_numeralText {n : Int} {Q : String → Performance → Prop} {E : Fault → Performance → Prop}
    (hok : Q (toString n) q) (herror : ∀ e, E e q) : Ends (ofBreakdown (Number.numeral n)) q Q E := by
  refine ends_ofBreakdown (fun text htext => ?_) fun _ => herror _
  rw [eq_toString_of_numeral htext]
  exact hok

/-- A line about a number is printed if the style tells it. -/
theorem tells_tell {n : Int} (text : String → String) (htext : Unmarked (text (toString n)))
    {m : PerformanceM Unit} (hm : Tells p m) :
    Tells p (do
      if (← get).style.narrates then printLine (text (← ofBreakdown (Number.numeral n)))
      m) := by
  intro q h
  apply ends_bind
  apply ends_get
  dsimp only
  split
  · next hnarrates =>
    rw [h.style] at hnarrates
    refine ends_bind (ends_numeralText ?_ fun _ => h)
    exact ends_bind (ends_modify (hm _ (h.remark (.line hnarrates htext))))
  · exact hm q h

theorem tells_ask (medium : Medium) (hdesk : p.desk = .interactive) : Tells p (ask medium.question) := by
  intro q h
  unfold ask
  apply ends_bind
  apply ends_modify
  refine (ends_readLine (feeding_recounts p) (h.remark (.question medium hdesk))).bind fun line r hr => ?_
  dsimp only
  split
  · exact ends_bind (ends_throw hr)
  · exact ends_pure hr

/-! ### Input and output -/

/-- A user is asked for input. Otherwise nothing is printed. -/
theorem tells_input (medium : Medium) : Tells p (input medium) := by
  intro q h
  unfold input
  apply ends_bind
  apply ends_get
  split
  · exact (ends_lineNumber (feeding_recounts p) _ h).mono (fun _ _ hr => hr) fun _ _ hr => hr.1
  · exact ends_lineCharacter (feeding_recounts p) _ h
  · next hdesk =>
    refine Tells.bind (tells_ask .number (h.asks hdesk)) (fun line => ?_) q h
    split
    · exact tells_pure _
    · exact tells_throw _
  · next hdesk =>
    refine Tells.bind (tells_ask .character (h.asks hdesk)) (fun line => ?_) q h
    split
    · exact tells_pure _
    · exact tells_pure _
    · exact tells_pure _
  · exact (ends_readerNumber (feeding_recounts p) _ h).mono (fun _ _ hr => hr) fun _ _ hr => hr.1
  · exact ends_readerCharacter (feeding_recounts p) _ h

theorem tells_outputNumber (n : Int) : Tells p (outputNumber n) := by
  intro q h
  unfold outputNumber
  refine ends_bind (ends_numeralText ?_ fun _ => h)
  apply ends_bind
  apply ends_get
  dsimp only
  split
  · next hnarrates =>
    exact ends_bind (ends_modify (ends_modify (h.put (u := .number n) (if_pos hnarrates).symm)))
  · next hnarrates =>
    exact ends_bind (ends_modify (ends_modify (h.put (u := .number n) (if_neg hnarrates).symm)))

theorem tells_outputCharacter (n : Int) : Tells p (outputCharacter n) := by
  intro q h
  have hcode : Ends (characterCode n) q (fun code r => code = n.toNat ∧ p.Recounts r) (fun _ => p.Recounts) := by
    unfold characterCode
    dsimp only
    split
    · exact ends_bind (ends_throw h)
    · split
      · exact ends_bind (ends_throw h)
      · exact ends_pure ⟨rfl, h⟩
  unfold outputCharacter
  refine hcode.bind ?_
  rintro _ r ⟨rfl, hr⟩
  apply ends_bind
  apply ends_get
  dsimp only
  split
  · next hnarrates =>
    exact ends_bind (ends_modify (ends_modify (hr.put (u := .character n) (if_pos hnarrates).symm)))
  · next hnarrates =>
    split
    · exact ends_bind (ends_modify (ends_modify (hr.put (u := .character n) (if_neg hnarrates).symm)))
    · exact ends_bind (ends_throw hr)

/-! ### Actions -/

theorem tells_evaluate {remember : Expression → PerformanceM Unit} {e : Expression} (hrem : Discreet remember) :
    Tells p (evaluate speaker remember e) := by
  intro q h
  unfold evaluate
  apply ends_bind
  apply ends_get
  generalize e.evaluate speaker q.stage = x
  obtain ⟨outcome, e'⟩ := x
  obtain ⟨script, hscript⟩ := hrem e' q
  have hnext : p.Recounts { q with script := script } := h.congr rfl (fun hd => hd) rfl rfl
  apply ends_bind
  refine ends_of_ok hscript ?_
  cases outcome with
  | ok n => exact ends_pure hnext
  | error g => exact ends_throw hnext

theorem tells_changeCharacter (name : String) (g : Character → Except Fault Character) :
    Tells p (changeCharacter name g) := by
  intro q h
  refine (ends_changeCharacter name g).mono ?_ ?_
  · rintro _ r ⟨c, -, rfl⟩
    exact h.congr rfl (fun hd => hd) rfl rfl
  · rintro e r ⟨rfl, -⟩
    exact h

end Tells

theorem unmarked_flagText (flag : Bool) : Unmarked (Stage.flagText flag) := by cases flag <;> decide

theorem unmarked_target (target : Target) : Unmarked target.text := by cases target <;> decide

/-- The one spoken to is told by name, and nobody else is. -/
theorem recounts_performAction {a : Action Expression} {remember : Action Expression → PerformanceM Unit}
    (hrem : Discreet remember) (h : p.Recounts q)
    (hother : ∀ other, q.stage.opposite speaker = .ok other → Unmarked other) :
    Ends (performAction speaker remember a) q (fun _ => p.Recounts) (fun _ => p.Recounts) := by
  have hlook : ∀ {m : String → PerformanceM Unit}, (∀ other, Unmarked other → Tells p (m other)) →
      Ends (look (·.opposite speaker) >>= m) q (fun _ => p.Recounts) (fun _ => p.Recounts) := by
    intro m hm
    exact ends_bind (ends_look (fun other ho => hm other (hother other ho) q h) fun _ _ => h)
  cases a with
  | question comparison words x y =>
    refine Tells.bind (tells_evaluate fun x' => hrem _) (fun ⟨m, x'⟩ => ?_) q h
    refine (tells_evaluate fun y' => hrem _).bind fun ⟨n, y'⟩ => ?_
    refine (tells_narrate (unmarked_append.mpr ⟨by decide, unmarked_flagText _⟩)).bind fun _ r hr => ?_
    exact ends_modify (hr.congr rfl (fun hd => hd) rfl rfl)
  | assignment x =>
    refine hlook fun other hu => (tells_evaluate fun x' => hrem _).bind fun ⟨n, x'⟩ => ?_
    refine (tells_changeCharacter other _).bind fun _ => ?_
    exact tells_tell (fun numeral => other ++ " set to " ++ numeral)
      (by simp only [unmarked_append]; exact ⟨⟨hu, by decide⟩, unmarked_toString n⟩) (tells_pure ())
  | input medium =>
    refine hlook fun other hu => (tells_input medium).bind fun n => ?_
    exact tells_tell (fun numeral => "Setting " ++ other ++ " to input value " ++ numeral)
      (by simp only [unmarked_append]; exact ⟨⟨⟨by decide, hu⟩, by decide⟩, unmarked_toString n⟩)
      (tells_changeCharacter other _)
  | output medium =>
    refine hlook fun other hu => (tells_look _).bind fun c => ?_
    refine (tells_narrate (unmarked_append.mpr ⟨by decide, hu⟩)).bind fun _ => ?_
    cases medium with
    | number => exact tells_outputNumber c.value
    | character => exact tells_outputCharacter c.value
  | push x =>
    refine hlook fun other hu => (tells_evaluate fun x' => hrem _).bind fun ⟨n, x'⟩ => ?_
    refine (tells_changeCharacter other _).bind fun _ => ?_
    exact tells_tell (fun numeral => other ++ " pushed " ++ numeral)
      (by simp only [unmarked_append]; exact ⟨⟨hu, by decide⟩, unmarked_toString n⟩) (tells_pure ())
  | pop recalled =>
    refine hlook fun other hu => (tells_changeCharacter other _).bind fun _ => ?_
    exact tells_narrate (unmarked_append.mpr ⟨by decide, hu⟩)
  | goto target numeral => exact ends_pure h

/-! ### Operations and steps -/

theorem tells_jump {target : Target} {numeral : String} (hnumeral : Unmarked numeral) :
    Tells p (jump target numeral) := by
  have htext : Unmarked ("Jumping to " ++ target.text ++ " " ++ numeral) := by
    simp only [unmarked_append]
    exact ⟨⟨⟨by decide, unmarked_target target⟩, by decide⟩, hnumeral⟩
  refine (tells_narrate htext).bind fun _ q h => ?_
  apply ends_bind
  apply ends_get
  split
  · exact ends_set (h.congr rfl (fun hd => hd) rfl rfl)
  · exact ends_throw h

theorem unmarked_kind (a : Action Expression) : Unmarked a.kind := by cases a <;> rw [Action.kind] <;> decide

theorem unmarked_refusal {condition : Option Condition} {a : Action Expression} (flag : Bool)
    (h : (Deed.speak speaker condition a).Unmarked) : Unmarked (refusal a flag) := by
  have hkind := unmarked_kind a
  unfold refusal
  split
  · simp only [unmarked_append]
    exact ⟨⟨⟨⟨⟨by decide, unmarked_target _⟩, by decide⟩, h⟩, by decide⟩, unmarked_flagText flag⟩
  · simp only [unmarked_append]
    exact ⟨⟨⟨by decide, hkind⟩, by decide⟩, unmarked_flagText flag⟩

theorem recounts_performSentence {span : Span} {condition : Option Condition} {a : Action Expression}
    {remember : Action Expression → PerformanceM Unit} (hrem : Discreet remember) (h : p.Recounts q)
    (hother : ∀ other, q.stage.opposite speaker = .ok other → Unmarked other)
    (hdeed : (Deed.speak speaker condition a).Unmarked) :
    Ends (performSentence span remember speaker condition a) q (fun _ => p.Recounts) (fun _ => p.Recounts) := by
  unfold performSentence
  refine ends_bind (ends_look (fun _ _ => ?_) fun _ _ => h)
  apply ends_bind
  apply ends_get
  dsimp only
  split
  · split
    · exact tells_jump hdeed q h
    · exact ends_locating span (recounts_performAction hrem h hother)
  · exact tells_narrate (unmarked_refusal _ hdeed) q h

theorem recounts_direction {d : Direction} {text : String} (span : Span) (htext : Unmarked text)
    (h : p.Recounts q) :
    Ends (locating span do narrate text; onStage d.perform) q (fun _ => p.Recounts) (fun _ => p.Recounts) := by
  refine ends_locating span (Tells.bind (tells_narrate htext) (fun _ r hr => ends_onStage ?_) q h)
  exact ⟨fun _ => hr.congr rfl (fun hd => hd) rfl rfl, fun _ => hr.congr rfl (fun hd => hd) rfl rfl⟩

theorem recounts_perform {op : Operation} {remember : Action Expression → PerformanceM Unit}
    (hrem : Discreet remember) (h : p.Recounts q)
    (hother : ∀ speaker other, q.stage.opposite speaker = .ok other → Unmarked other) (hdeed : op.deed.Unmarked) :
    Ends (perform remember op) q (fun _ => p.Recounts) (fun _ => p.Recounts) := by
  unfold perform
  cases hop : op.deed with
  | enter names =>
    rw [hop] at hdeed
    exact recounts_direction (d := .enter names) _
      (unmarked_append.mpr ⟨by decide, unmarked_intercalate (by decide) hdeed⟩) h
  | exit name =>
    rw [hop] at hdeed
    exact recounts_direction (d := .exit name) _ (unmarked_append.mpr ⟨by decide, hdeed⟩) h
  | exeunt names =>
    rw [hop] at hdeed
    exact recounts_direction (d := .exeunt names) _
      (unmarked_append.mpr ⟨by decide, unmarked_intercalate (by decide) hdeed⟩) h
  | exeuntAll => exact recounts_direction (d := .exeuntAll) _ (by decide) h
  | breakpoint => exact ends_pure h
  | speak speaker condition a =>
    rw [hop] at hdeed
    exact recounts_performSentence hrem h (hother speaker) hdeed

/-- A step adds pieces to what was printed: in the debug style a header, and then what is told of the operation. -/
theorem recounts_step (h : p.Recounts q) (hscript : q.script.forget = p.script.forget)
    (hother : ∀ speaker other, q.stage.opposite speaker = .ok other → Unmarked other)
    (hdeed : ∀ op, q.script.operation? q.position = some op → op.deed.Unmarked) :
    Ends step q (fun _ => p.Recounts) (fun _ => p.Recounts) := by
  have hrem : Discreet (rememberAt q.position) := fun a r => ⟨r.script.remember q.position a, rfl⟩
  unfold step
  apply ends_bind
  refine ends_nextOperation (fun op hop => ?_) fun _ => h
  have hrest : ∀ r, p.Recounts r → r.stage = q.stage →
      Ends (do perform (rememberAt q.position) op; if (← get).position = q.position then advance) r
        (fun _ => p.Recounts) (fun _ => p.Recounts) := by
    intro r hr hstage
    refine (recounts_perform hrem hr (by rw [hstage]; exact hother) (hdeed op hop)).bind fun _ t ht => ?_
    apply ends_bind
    apply ends_get
    split
    · exact ends_modify (ht.congr rfl (fun hd => hd) rfl rfl)
    · exact ends_pure ht
  split
  · exact ends_modify (h.congr rfl (fun hd => hd) rfl rfl)
  · apply ends_bind
    apply ends_get
    dsimp only
    generalize hheader : debugText q op = header
    split
    · next hdebug =>
      apply ends_bind
      cases header with
      | error b => exact ends_throw h
      | ok text =>
        rw [h.style] at hdebug
        exact ends_pure (ends_bind (ends_modify (hrest _ (h.remark (.header hdebug hscript hop hheader)) rfl)))
    · exact hrest q h rfl

end PerformanceM

/-! ### Runs -/

namespace Performance

variable {source : List Char} {play : Play} {p q : Performance}

theorem unmarked_of_script (hread : readAs .play Play.ofTree? source = .ok play)
    (hq : q.Sound source play) {n : Int} {op : Operation} (hop : q.script.operation? n = some op) :
    op.deed.Unmarked := by
  have hmem : op.forget ∈ play.acts.flatMap Act.operations := by
    rw [show play.acts.flatMap Act.operations = q.script.operations.map Operation.forget from
      (congrArg Script.operations hq.script).symm]
    exact List.mem_map_of_mem (List.mem_of_getElem? (clampIndex_of_at? hop))
  have hdeed := (unmarked_of_play hread).2 _ hmem
  obtain ⟨span, deed⟩ := op
  cases deed with
  | speak speaker condition a => cases a <;> exact hdeed
  | enter names | exit name | exeunt names | exeuntAll | breakpoint => exact hdeed

/-- **What is printed is what is put out, with remarks in between.** Let a performance of a play make any number of
steps, which may fail: all that it prints falls into pieces, whatever its style and its input. -/
theorem recounts_afterSteps (hread : readAs .play Play.ofTree? source = .ok play) (hp : p.Sound source play)
    (hnames : p.stage.names = play.castNames) (n : Nat) : p.Recounts (p.afterSteps n) := by
  suffices h : (p.afterSteps n).Sound source play ∧ (p.afterSteps n).stage.names = play.castNames ∧
      p.Recounts (p.afterSteps n) from h.2.2
  induction n with
  | zero => exact ⟨hp, hnames, .refl p⟩
  | succ n ih =>
    obtain ⟨hsound, hnames, hrecounts⟩ := ih
    have hother : ∀ speaker other, (p.afterSteps n).stage.opposite speaker = .ok other → Unmarked other := by
      intro speaker other hother
      have hmem := hsound.stage.declared other (hsound.stage.opposite_mem hother).1
      rw [hnames] at hmem
      exact (unmarked_of_play hread).1 other hmem
    have hstep := (PerformanceM.ends_step hsound.stage).and
      (PerformanceM.recounts_step hrecounts (hsound.script.trans hp.script.symm) hother
        fun op hop => unmarked_of_script hread hsound hop)
    refine (ReportM.ends_ofScript (I := fun q => q.Sound source play ∧ q.stage.names = play.castNames ∧
      p.Recounts q) (hstep.mono ?_ ?_)).stateAfter
    · rintro _ q ⟨hq, hr⟩
      exact ⟨hsound.stepped hq, hq.stage.names.trans hnames, hr⟩
    · rintro f q ⟨hq, hr⟩
      exact ⟨hsound.performed hq.1, hq.1.stage.names.trans hnames, hr⟩

end Performance

end Playhouse
