import Playhouse.Proofs.Preparation
import Playhouse.Proofs.Recased

/-!
# Playhouse.Proofs.NumeralCase — numerals are compared as they are written

Everything else in a play is read without regard to case, and its numerals are read so too. But they are kept as
they are written and compared as they are kept. So a text and the same text in other letters are opened and run
alike as far as their numerals are told apart alike, and always so if each of the texts writes each numeral in one
way. Main statement: `numerals_compared_as_written`.
-/

namespace Playhouse

open Grammar Performance PerformanceM

/-! ### Numerals that are written in one way -/

/-- The numeral that the operation jumps to, if it is a jump to such a target. -/
def Operation.destination? (target : Target) (op : Operation) : Option String :=
  match op.deed with
  | .speak _ _ (.goto target' numeral) => if target' = target then some numeral else none
  | _ => none

/-- The numerals of the acts, or of all scenes, and of the jumps to them. -/
def Script.numeralsOf (s : Script) (target : Target) : List String :=
  (match target with
    | .act => s.acts.map ActEntry.numeral
    | .scene =>
      s.acts.flatMap fun a => a.scenes.map Prod.fst) ++ s.operations.filterMap (Operation.destination? target)

/-- Words that are the same but for case are the same. -/
def OneWay (ws : List String) : Prop := ∀ v ∈ ws, ∀ w ∈ ws, smallWord v = smallWord w → v = w

instance : DecidablePred OneWay := fun _ => inferInstanceAs (Decidable (∀ v ∈ _, ∀ w ∈ _, _ → _))

/-- The numerals of acts are written in one way throughout, and so are those of scenes. -/
def Script.Uniform (s : Script) : Prop := OneWay (s.numeralsOf .act) ∧ OneWay (s.numeralsOf .scene)

instance : DecidablePred Script.Uniform := fun _ => inferInstanceAs (Decidable (_ ∧ _))

theorem Script.Uniform.oneWay {s : Script} (h : s.Uniform) (target : Target) : OneWay (s.numeralsOf target) := by
  cases target with
  | act => exact h.1
  | scene => exact h.2

theorem OneWay.subset {vs ws : List String} (h : OneWay ws) (hsub : vs ⊆ ws) : OneWay vs :=
  fun v hv w hw => h v (hsub hv) w (hsub hw)

theorem OneWay.nodup_iff {ws : List String} (h : OneWay ws) : (ws.map smallWord).Nodup ↔ ws.Nodup :=
  ⟨List.Nodup.of_map smallWord, List.Nodup.map_on fun v hv w hw => h v hv w hw⟩

theorem lookup_small {xs : List (String × Nat)} {w : String}
    (h : ∀ v ∈ xs.map Prod.fst, smallWord v = smallWord w → v = w) :
    (xs.map fun x => (smallWord x.1, x.2)).lookup (smallWord w) = xs.lookup w := by
  induction xs with
  | nil => rfl
  | cons x xs ih =>
    obtain ⟨hx, hxs⟩ := List.forall_mem_cons.mp h
    have hsame : (smallWord w == smallWord x.1) = (w == x.1) := by
      by_cases hw : w = x.1
      · rw [hw, beq_self_eq_true, beq_self_eq_true]
      · rw [beq_false_of_ne hw, beq_false_of_ne fun he => hw (hx he.symm).symm]
    rw [List.map_cons, List.lookup_cons, List.lookup_cons, hsame, ih hxs]

theorem find?_small {as : List ActEntry} {w : String}
    (h : ∀ v ∈ as.map ActEntry.numeral, smallWord v = smallWord w → v = w) :
    (as.map ActEntry.small).find? (fun a => a.numeral == smallWord w) =
      (as.find? fun a => a.numeral == w).map ActEntry.small := by
  induction as with
  | nil => rfl
  | cons a as ih =>
    obtain ⟨ha, has⟩ := List.forall_mem_cons.mp h
    have hsame : (a.small.numeral == smallWord w) = (a.numeral == w) := by
      by_cases hw : a.numeral = w
      · rw [← hw, beq_self_eq_true]
        exact beq_self_eq_true _
      · rw [beq_false_of_ne hw]
        exact beq_false_of_ne fun he => hw (ha he)
    rw [List.map_cons, List.find?_cons, List.find?_cons, hsame, ih has]
    cases a.numeral == w <;> rfl

/-- In a script that writes numerals in one way, a jump goes where it does in small letters. -/
theorem destination_small {s : Script} {k : Int} {target : Target} {numeral : String}
    (h : OneWay (s.numeralsOf target)) (hnumeral : numeral ∈ s.numeralsOf target) :
    (destination s.small k target (smallWord numeral)).toOption = (destination s k target numeral).toOption := by
  cases target with
  | act =>
    have hfind : s.small.act? (smallWord numeral) = (s.act? numeral).map ActEntry.small :=
      find?_small fun v hv => h v (List.mem_append_left _ hv) numeral hnumeral
    unfold destination
    dsimp only
    rw [hfind]
    cases s.act? numeral <;> rfl
  | scene =>
    unfold destination
    dsimp only
    rw [actAt?_small]
    cases ha : s.actAt? k with
    | none => rfl
    | some a =>
      have hlookup : a.small.scenes.lookup (smallWord numeral) = a.scenes.lookup numeral := by
        refine lookup_small fun v hv => h v (List.mem_append_left _ ?_) numeral hnumeral
        exact List.mem_flatMap.mpr ⟨a, Script.actAt?_mem ha, hv⟩
      dsimp only [Option.map_some]
      rw [hlookup]
      cases a.scenes.lookup numeral <;> rfl

theorem destination?_forget (target : Target) (op : Operation) :
    op.forget.destination? target = op.destination? target := by
  unfold Operation.destination? Operation.forget
  cases op.deed with
  | speak speaker condition a => cases a <;> rfl
  | _ => rfl

/-- The numeral of a jump is one of those of the layout. -/
theorem numeral_mem_of_atJump {p : Performance} {layout : Script} {op : Operation} {target : Target}
    {numeral : String} (hscript : p.script.forget = layout) (h : AtJump p op target numeral) :
    numeral ∈ layout.numeralsOf target := by
  obtain ⟨speaker, condition, hdeed, -⟩ := h.made
  have hop : op ∈ p.script.operations := List.mem_of_getElem? (clampIndex_of_at? h.next)
  have hnumeral : op.forget.destination? target = some numeral := by
    rw [destination?_forget]
    unfold Operation.destination?
    rw [hdeed]
    exact if_pos rfl
  rw [← hscript]
  refine List.mem_append_right _ (List.mem_filterMap.mpr ⟨op.forget, List.mem_map_of_mem hop, hnumeral⟩)

/-- If both scripts write numerals in one way, no jump leads elsewhere. -/
theorem not_leadsElsewhere_of_uniform {layout layout' : Script} {narrates : Bool} {p q : Performance}
    (h : Abreast (Footing.recased layout layout' narrates) p q) (hsmall : layout.small = layout'.small)
    (hlayout : layout.Uniform) (hlayout' : layout'.Uniform) : ¬ LeadsElsewhere p q := by
  rintro ⟨op, op', target, numeral, numeral', hjump, hjump', hne⟩
  have hposition : p.position = q.position := h.place
  have hnumeral : smallWord numeral = smallWord numeral' := by
    obtain ⟨speaker, condition, hdeed, -⟩ := hjump.made
    obtain ⟨speaker', condition', hdeed', -⟩ := hjump'.made
    have hoperation := h.operation_small (congrArg Script.operations hsmall) p.position
    rw [hjump.next, hposition, hjump'.next] at hoperation
    have hdeeds : op.deed.forget.small = op'.deed.forget.small :=
      congrArg Operation.deed (Option.some.inj hoperation)
    rw [hdeed, hdeed'] at hdeeds
    exact (Action.goto.inj (Deed.speak.inj hdeeds).2.2).2
  have hacts : p.script.acts = layout.acts :=
    show p.script.forget.acts = layout.acts from congrArg Script.acts h.script
  have hacts' : q.script.acts = layout'.acts :=
    show q.script.forget.acts = layout'.acts from congrArg Script.acts h.script'
  apply hne
  calc (destination p.script p.position target numeral).toOption
      = (destination layout p.position target numeral).toOption := by rw [destination_congr hacts]
    _ = (destination layout.small p.position target (smallWord numeral)).toOption :=
        (destination_small (hlayout.oneWay target) (numeral_mem_of_atJump h.script hjump)).symm
    _ = (destination layout'.small q.position target (smallWord numeral')).toOption := by
        rw [hsmall, hposition, hnumeral]
    _ = (destination layout' q.position target numeral').toOption :=
        destination_small (hlayout'.oneWay target) (numeral_mem_of_atJump h.script' hjump')
    _ = (destination q.script q.position target numeral').toOption := by rw [destination_congr hacts']

/-- And none ever does. By induction on the steps before. -/
theorem not_leadsElsewhere_afterSteps {source : List Char} {play : Play} {layout layout' : Script}
    {p q : Performance} (hp : p.Reachable source play)
    (h : Abreast (Footing.recased layout layout' p.style.narrates) p q) (hsmall : layout.small = layout'.small)
    (hlayout : layout.Uniform) (hlayout' : layout'.Uniform) (n : Nat) :
    ¬ LeadsElsewhere (p.afterSteps n) (q.afterSteps n) := by
  induction n using Nat.strong_induction_on with
  | _ n ih => exact not_leadsElsewhere_of_uniform (abreast_afterSteps hp h hsmall n ih) hsmall hlayout hlayout'

/-! ### Opening -/

/-- In a play that writes numerals in one way, they differ if they do in small letters. -/
theorem numeralsDiffer_small {source : List Char} {as : List Act} (h : (Script.ofActs source as).Uniform) :
    NumeralsDiffer (as.map Act.small) ↔ NumeralsDiffer as := by
  have hacts : OneWay (as.map fun a => a.number.text) := by
    refine h.1.subset fun v hv => List.mem_append_left _ ?_
    rw [← Script.actEntries_keys as 0] at hv
    exact hv
  have hscenes : ∀ a ∈ as, OneWay (a.scenes.map fun s => s.number.text) := by
    intro a ha
    refine h.2.subset fun v hv => List.mem_append_left _ ?_
    obtain ⟨n, hn⟩ := exists_start_of_mem ha
    obtain ⟨before, after, -, -, hentries⟩ := Script.actEntries_of_start hn
    rw [← Script.sceneEntries_keys a.scenes n] at hv
    refine List.mem_flatMap.mpr ⟨⟨a.number.text, n, Script.sceneEntries n a.scenes⟩, ?_, hv⟩
    show _ ∈ Script.actEntries 0 as
    rw [hentries]
    exact List.mem_append_right _ List.mem_cons_self
  have htexts : (as.map Act.small).map (fun a => a.number.text) =
      (as.map fun a => a.number.text).map smallWord := by
    rw [List.map_map, List.map_map]
    rfl
  have htexts' : ∀ a : Act, a.small.scenes.map (fun s => s.number.text) =
      (a.scenes.map fun s => s.number.text).map smallWord := by
    intro a
    show (a.scenes.map Scene.small).map _ = _
    rw [List.map_map, List.map_map]
    rfl
  unfold NumeralsDiffer
  rw [htexts, hacts.nodup_iff, List.forall_mem_map]
  refine and_congr_right fun _ => forall₂_congr fun a ha => ?_
  rw [htexts', (hscenes a ha).nodup_iff]

/-- A text is opened if the styles are known and nothing in it is repeated. -/
theorem exists_ofText_iff {text : List Char} {play : Play} (hread : readAs .play Play.ofTree? text = .ok play)
    (inputName outputName : String) (streams : Streams) :
    (∃ p, Performance.ofText text inputName outputName streams = .ok p) ↔
      ∃ desk style, InputDesk.ofName inputName streams.reader = .ok desk ∧
        OutputStyle.ofName outputName = .ok style ∧
        NumeralsDiffer play.acts ∧ play.castNames.Nodup := by
  constructor
  · rintro ⟨p, hp⟩
    obtain ⟨desk, style, play', hdesk, hstyle, hread', hopened, -⟩ := opened_of_ofText hp
    obtain rfl : play' = play := Except.ok.inj (hread'.symm.trans hread)
    rcases Performance.ofPlay_cases text play' desk style streams with ⟨hnumerals, hcast, -⟩ | ⟨f, -, hfault⟩
    · exact ⟨desk, style, hdesk, hstyle, hnumerals, hcast⟩
    · rw [hopened] at hfault
      cases hfault
  · rintro ⟨desk, style, hdesk, hstyle, hnumerals, hcast⟩
    have hopened : Performance.ofPlay text play desk style streams =
        .ok ⟨Script.ofActs text play.acts, Stage.ofCast play.castNames, 0, desk, style, streams, []⟩ := by
      unfold Performance.ofPlay
      rw [Script.ofPlay_eq_ok_iff.mpr ⟨hnumerals, rfl⟩, stage_of_nodup hcast]
      rfl
    have htext : Performance.ofText text inputName outputName streams =
        (Performance.ofPlay text play desk style streams).mapError (Report.ofPreparation text) := by
      unfold Performance.ofText
      rw [hdesk, hstyle, hread]
      rfl
    exact ⟨_, htext.trans (congrArg (Except.mapError _) hopened)⟩

/-! ### Texts that differ in case -/

section Texts

variable {text text' : List Char} {play play' : Play} {inputName outputName : String} {streams : Streams}
  {p q : Performance}

/-- The personae keep nothing as it is written. -/
theorem castNames_of_small (hplay : play'.small = play.small) : play'.castNames = play.castNames :=
  show play'.small.castNames = play.small.castNames from congrArg Play.castNames hplay

/-- Both performances begin abreast. -/
theorem abreast_of_ofText (hread : readAs .play Play.ofTree? text = .ok play)
    (hread' : readAs .play Play.ofTree? text' = .ok play') (hplay : play'.small = play.small)
    (hp : Performance.ofText text inputName outputName streams = .ok p)
    (hq : Performance.ofText text' inputName outputName streams = .ok q) :
    p.Reachable text play ∧
      Abreast (Footing.recased (Script.ofActs text play.acts) (Script.ofActs text' play'.acts) p.style.narrates)
        p q := by
  obtain ⟨desk, style, _, hdesk, hstyle, htext, hopened, rfl⟩ := opened_of_ofText hp
  obtain ⟨desk', style', _, hdesk', hstyle', htext', -, rfl⟩ := opened_of_ofText hq
  cases hdesk.symm.trans hdesk'
  cases hstyle.symm.trans hstyle'
  cases htext.symm.trans hread
  cases htext'.symm.trans hread'
  have hcast := castNames_of_small hplay
  refine ⟨.start hopened, ?_⟩
  exact ⟨forget_ofActs text play.acts, forget_ofActs text' play'.acts, Script.faithful_ofActs text play.acts,
    Script.faithful_ofActs text' play'.acts, congrArg Stage.ofCast hcast, rfl, rfl, fun _ => rfl, rfl, rfl, rfl,
    fun _ => ⟨Footing.recased_printed _ _ _ _, rfl⟩⟩

/-- If one of the texts is a play then so is the other, and both are the same in small letters. -/
theorem small_of_readAs (h : SameButCase text text') (hread : readAs .play Play.ofTree? text = .ok play) :
    ∃ play', readAs .play Play.ofTree? text' = .ok play' ∧ play'.small = play.small := by
  have hsmall := readAs_play_small h
  rw [hread] at hsmall
  cases hread' : readAs .play Play.ofTree? text' with
  | error e =>
    rw [hread'] at hsmall
    cases hsmall
  | ok play' =>
    rw [hread'] at hsmall
    exact ⟨play', rfl, (Except.ok.inj hsmall).symm⟩

theorem small_ofActs_eq (h : SameButCase text text') (hplay : play'.small = play.small) :
    (Script.ofActs text play.acts).small = (Script.ofActs text' play'.acts).small := by
  have hacts : play'.acts.map Act.small = play.acts.map Act.small := congrArg Play.acts hplay
  rw [Script.small_ofActs, Script.small_ofActs, h, hacts]

end Texts

/-- **Numerals are compared as they are written.** Let two texts differ in case only. If one is no play then
neither is the other, for the same reason. Otherwise both are the same play in small letters. If one can be opened,
the other can if and only if its own numerals differ as they are written. The performances come with each step to
the same position, stage, input and output, and print the same but for case (in the basic style, just the same),
and each step succeeds or fails in both, with the same report but for case, as long as no jump finds its numeral in
only one of them or elsewhere. If each of the texts writes the numerals of acts in one way, and those of scenes,
none of this can happen: one can be opened if and only if the other can, and they run alike to the end. -/
theorem numerals_compared_as_written {text text' : List Char} (h : text.map Char.toLower = text'.map Char.toLower)
    (inputName outputName : String) (streams : Streams) :
    (∀ e, readAs .play Play.ofTree? text = .error e →
      ∃ e', readAs .play Play.ofTree? text' = .error e' ∧ e'.small = e.small) ∧
    ∀ play, readAs .play Play.ofTree? text = .ok play →
      ∃ play', readAs .play Play.ofTree? text' = .ok play' ∧ play'.small = play.small ∧
        ((∃ p, Performance.ofText text inputName outputName streams = .ok p) →
          ((∃ q, Performance.ofText text' inputName outputName streams = .ok q) ↔ NumeralsDiffer play'.acts)) ∧
        (∀ p q, Performance.ofText text inputName outputName streams = .ok p →
          Performance.ofText text' inputName outputName streams = .ok q →
          ∀ n, (∀ m < n, ¬ LeadsElsewhere (p.afterSteps m) (q.afterSteps m)) → p.RunsAlike q n) ∧
        ((Script.ofActs text play.acts).Uniform → (Script.ofActs text' play'.acts).Uniform →
          ((∃ p, Performance.ofText text inputName outputName streams = .ok p) ↔
            ∃ q, Performance.ofText text' inputName outputName streams = .ok q) ∧
          ∀ p q, Performance.ofText text inputName outputName streams = .ok p →
            Performance.ofText text' inputName outputName streams = .ok q → ∀ n, p.RunsAlike q n) := by
  constructor
  · intro e he
    have hsmall := readAs_play_small h
    rw [he] at hsmall
    cases he' : readAs .play Play.ofTree? text' with
    | ok play' =>
      rw [he'] at hsmall
      cases hsmall
    | error e' =>
      rw [he'] at hsmall
      exact ⟨e', rfl, (Except.error.inj hsmall).symm⟩
  · intro play hread
    obtain ⟨play', hread', hplay⟩ := small_of_readAs h hread
    have hcast := castNames_of_small hplay
    have hacts : play'.acts.map Act.small = play.acts.map Act.small := congrArg Play.acts hplay
    have hscripts := small_ofActs_eq h hplay
    refine ⟨play', hread', hplay, ?_, ?_, ?_⟩
    · rw [exists_ofText_iff hread, exists_ofText_iff hread']
      rintro ⟨desk, style, hdesk, hstyle, -, hnodup⟩
      constructor
      · rintro ⟨-, -, -, -, hnumerals, -⟩
        exact hnumerals
      · exact fun hnumerals => ⟨desk, style, hdesk, hstyle, hnumerals, hcast ▸ hnodup⟩
    · intro p q hp hq n hleads
      obtain ⟨hreach, habreast⟩ := abreast_of_ofText hread hread' hplay hp hq
      exact runsAlike_of_leads hreach habreast hscripts n hleads
    · intro huniform huniform'
      have hnumerals : NumeralsDiffer play.acts ↔ NumeralsDiffer play'.acts := by
        rw [← numeralsDiffer_small huniform, ← numeralsDiffer_small huniform', hacts]
      constructor
      · rw [exists_ofText_iff hread, exists_ofText_iff hread', hnumerals, hcast]
      · intro p q hp hq n
        obtain ⟨hreach, habreast⟩ := abreast_of_ofText hread hread' hplay hp hq
        refine runsAlike_of_leads hreach habreast hscripts n fun m _ => ?_
        exact not_leadsElsewhere_afterSteps hreach habreast hscripts huniform huniform' m

/-! ### A jump in either case -/

/-- Two scenes, with a jump from the first to the second. -/
def proceedingText (first destination second : String) : List Char :=
  ("T. Romeo, x. Act I: a. Scene " ++ first ++ ": b. [Enter Romeo] Romeo: Let us proceed to scene " ++
    destination ++ ". Scene " ++ second ++ ": c. [Exeunt]").toList

theorem sameButCase_proceedingText {first first' destination destination' second second' : String}
    (hfirst : SameButCase first.toList first'.toList)
    (hdestination : SameButCase destination.toList destination'.toList)
    (hsecond : SameButCase second.toList second'.toList) :
    SameButCase (proceedingText first destination second) (proceedingText first' destination' second') := by
  unfold SameButCase at *
  simp only [proceedingText, String.toList_append, List.map_append, hfirst, hdestination, hsecond]

/-- The play in the text about to begin, with no input and with basic output. -/
def proceeding (text : List Char) : Except Report Performance :=
  Performance.ofText text "basic" "basic" ⟨[], none, "", ""⟩

/-- The text can be opened, and writes numerals in one way. -/
def opensInOneWay (text : List Char) : Bool :=
  match proceeding text with
  | .ok p => decide p.script.Uniform
  | .error _ => false

theorem exists_of_opensInOneWay {text : List Char} (h : opensInOneWay text = true) :
    ∃ p play, proceeding text = .ok p ∧ readAs .play Play.ofTree? text = .ok play ∧
      (Script.ofActs text play.acts).Uniform := by
  unfold opensInOneWay at h
  cases hp : proceeding text with
  | ok p =>
    rw [hp] at h
    obtain ⟨_, _, play, _, _, hread, _, rfl⟩ := opened_of_ofText hp
    exact ⟨_, play, rfl, hread, of_decide_eq_true h⟩
  | error e =>
    rw [hp] at h
    cases h

theorem proceeding_opens :
    opensInOneWay (proceedingText "I" "II" "II") = true ∧ opensInOneWay (proceedingText "i" "iI" "iI") = true := by
  decide +kernel

/-- Each numeral is written in one way in each text, and in another way in the other. -/
theorem numerals_compared_as_written_proceeding :
    (proceedingText "I" "II" "II").map Char.toLower = (proceedingText "i" "iI" "iI").map Char.toLower ∧
      ∃ p q, proceeding (proceedingText "I" "II" "II") = .ok p ∧
        proceeding (proceedingText "i" "iI" "iI") = .ok q ∧
        ∀ n, p.RunsAlike q n := by
  have hcase : (proceedingText "I" "II" "II").map Char.toLower = (proceedingText "i" "iI" "iI").map Char.toLower :=
    sameButCase_proceedingText (by decide) (by decide) (by decide)
  obtain ⟨p, play, hp, hread, huniform⟩ := exists_of_opensInOneWay proceeding_opens.1
  obtain ⟨q, play', hq, hread', huniform'⟩ := exists_of_opensInOneWay proceeding_opens.2
  obtain ⟨-, hplays⟩ := numerals_compared_as_written hcase "basic" "basic" ⟨[], none, "", ""⟩
  obtain ⟨_, hread'', -, -, -, hone⟩ := hplays play hread
  cases hread''.symm.trans hread'
  exact ⟨hcase, p, q, hp, hq, (hone huniform huniform').2 p q hp hq⟩

/-- What the second step fails with, if it fails, and the position it comes to. -/
def secondStep (text : List Char) : Option (Option Cause × Int) :=
  match proceeding text with
  | .ok p =>
    match outcomeOf ReportM.stepForward (p.afterSteps 1) with
    | .error (.error cause _ _) => some (some cause, (p.afterSteps 2).position)
    | _ => some (none, (p.afterSteps 2).position)
  | .error _ => none

/-- A jump in small letters does not find a scene in capital letters. And two scenes of the same numeral are told
apart if it is not written in the same way. -/
theorem numerals_told_apart_by_case :
    (SameButCase (proceedingText "I" "II" "II") (proceedingText "I" "ii" "II") ∧
        secondStep (proceedingText "I" "II" "II") = some (none, 2) ∧
        secondStep (proceedingText "I" "ii" "II") = some (some (.noSuchScene "ii"), 1)) ∧
      SameButCase (proceedingText "I" "I" "I") (proceedingText "I" "I" "i") ∧
      secondStep (proceedingText "I" "I" "I") = none ∧
      secondStep (proceedingText "I" "I" "i") = some (none, 0) := by
  refine ⟨⟨sameButCase_proceedingText (by decide) (by decide) (by decide), ?_⟩,
    sameButCase_proceedingText (by decide) (by decide) (by decide), ?_⟩
  · decide +kernel
  · decide +kernel

end Playhouse
