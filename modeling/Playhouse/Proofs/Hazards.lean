import Playhouse.Proofs.Jumps
import Playhouse.Proofs.Limits

/-!
# Playhouse.Proofs.Hazards — what can break an operation down

Besides errors of the play, which are told with their place, an operation can end with a breakdown. Hazards are the
situations in which it does: somebody is named twice in an exeunt, a number is too large to be worked with or to be
written, a code is too large or of no character that can be written, or digits of the input make no numeral. With
basic input and output there are no others. Main statement of this file: `breaks_step`.
-/

namespace Playhouse

open Number Performance

/-! ### Hazards -/

/-- The first of the names that was named before. -/
def FirstNamedTwice (names : List String) (name : String) : Prop :=
  ∃ before after, names = before ++ name :: after ∧ before.Nodup ∧ name ∈ before

/-- All of the names are on stage, but one is gone when its turn to leave comes again. -/
def Stage.FindsGone (s : Stage) (names : List String) (b : Breakdown) : Prop :=
  (∀ name ∈ names, name ∈ s.present) ∧ ∃ name, FirstNamedTwice names name ∧ b = .nobodyToRemove name

/-- There is no text for what is to be put out. -/
def Unutterable : Medium → Int → Breakdown → Prop
  | .number, n, b => numeralBound ≤ n.natAbs ∧ b = .numeralTooLong
  | .character, n, b => ((n < -2 ^ 31 ∨ 2 ^ 31 ≤ n) ∧ b = .codeTooLarge) ∨
      (0xd800 ≤ n ∧ n ≤ 0xdfff ∧ b = .unencodable n.toNat)

/-- The line that input is taken from: what is held of the present line, or else the next line. -/
def Performance.inputLine (p : Performance) (held : List Char) : List Char :=
  if held.isEmpty then (PerformanceM.splitLine p.streams.stdin).1 else held

/-- The digit characters of the number at the beginning of a line. -/
def leadingDigits (line : List Char) : List Char :=
  (if (PerformanceM.sign? line).isSome then line.drop 1 else line).takeWhile Text.isDigitChar

/-- What `speaker`, who is on stage, is about to do breaks down. -/
def Action.Hazard (p : Performance) (speaker : String) : Action Expression → Breakdown → Prop
  | .question _ _ x y, b => x.Overwhelms speaker p.stage b ∨
      (∃ n, (x.evaluate speaker p.stage).1 = .ok n) ∧ y.Overwhelms speaker p.stage b
  | .assignment x, b | .push x, b =>
    (∃ other, p.stage.opposite speaker = .ok other) ∧ x.Overwhelms speaker p.stage b
  | .input .number, b => (∃ other, p.stage.opposite speaker = .ok other) ∧
      ∃ held, p.desk = .basic held ∧ Illegible (leadingDigits (p.inputLine held)) b
  | .output medium, b => ∃ other c, p.stage.opposite speaker = .ok other ∧ p.stage.character other = .ok c ∧
      Unutterable medium c.value b
  | .input .character, _ | .pop _, _ | .goto _ _, _ => False

/-- What is about to be done breaks down. -/
def Deed.Hazard (p : Performance) : Deed → Breakdown → Prop
  | .exeunt names, b => p.stage.FindsGone names b
  | .speak speaker condition a, b =>
    speaker ∈ p.stage.present ∧ PerformanceM.isMet condition p.stage.flag = true ∧ a.Hazard p speaker b
  | .enter _, _ | .exit _, _ | .exeuntAll, _ | .breakpoint, _ => False

/-- The next operation breaks down. -/
def Performance.Hazard (p : Performance) (b : Breakdown) : Prop :=
  ∃ op, p.script.operation? p.position = some op ∧ op.deed.Hazard p b

/-- The fault is a breakdown exactly as `H` says. -/
def BreaksAs (H : Breakdown → Prop) (f : Fault) : Prop := ∀ b, f = .breakdown b ↔ H b

theorem BreaksAs.of_error {H : Breakdown → Prop} {f : Fault} (hf : ∀ b, f ≠ .breakdown b) (h : ∀ b, ¬ H b) :
    BreaksAs H f := fun b => iff_of_false (hf b) (h b)

theorem BreaksAs.locate {H : Breakdown → Prop} {f : Fault} (h : BreaksAs H f) (span : Span) :
    BreaksAs H (f.locate span) := fun b => Fault.locate_eq_breakdown_iff.trans (h b)

theorem FirstNamedTwice.not_nodup {names : List String} {name : String} (h : FirstNamedTwice names name) :
    ¬ names.Nodup := by
  obtain ⟨before, after, rfl, -, hmem⟩ := h
  intro hnodup
  rw [List.nodup_middle, List.nodup_cons] at hnodup
  exact hnodup.1 (List.mem_append_left _ hmem)

/-- If the names before one are all different, then the one before which a name is repeated comes not earlier. -/
theorem FirstNamedTwice.length_le {names before after : List String} {name : String}
    (h : names = before ++ name :: after) (hmem : name ∈ before) {before' after' : List String} {name' : String}
    (h' : names = before' ++ name' :: after') (hnodup : before'.Nodup) : before'.length ≤ before.length := by
  by_contra hlt
  have hnames : before ++ [name] <+: names := ⟨after, by rw [h, List.append_assoc]; rfl⟩
  have hprefix : before ++ [name] <+: before' := by
    refine List.prefix_of_prefix_length_le hnames ⟨name' :: after', h'.symm⟩ ?_
    rw [List.length_append, List.length_singleton]
    omega
  have hsub : (before ++ [name]).Nodup := hnodup.sublist hprefix.sublist
  rw [List.nodup_append] at hsub
  exact hsub.2.2 name hmem name List.mem_cons_self rfl

theorem FirstNamedTwice.unique {names : List String} {name name' : String} (h : FirstNamedTwice names name)
    (h' : FirstNamedTwice names name') : name = name' := by
  obtain ⟨before, after, heq, hnodup, hmem⟩ := h
  obtain ⟨before', after', heq', hnodup', hmem'⟩ := h'
  have hlength : before.length = before'.length :=
    Nat.le_antisymm (length_le heq' hmem' heq hnodup) (length_le heq hmem heq' hnodup')
  have hsplit := List.append_inj (heq.symm.trans heq') hlength
  exact (List.cons.inj hsplit.2).1

/-! ### Directions -/

namespace StageM

variable {s : Stage}

/-- One after the other leaves, until one is named who is gone. `gone` are those who were there and left. -/
theorem ends_removals_until (ns : List String) : ∀ {s : Stage} {gone : List String}, gone.Nodup →
    (∀ n ∈ gone, n ∉ s.present) → (∀ n ∈ ns, n ∈ s.present ∨ n ∈ gone) →
    Ends (ns.forM remove) s (fun _ _ => (gone ++ ns).Nodup)
      (fun f _ => ∃ before name after, f = .breakdown (.nobodyToRemove name) ∧ ns = before ++ name :: after ∧
        (gone ++ before).Nodup ∧ name ∈ gone ++ before) := by
  induction ns with
  | nil =>
    intro s gone hgone _ _
    apply ends_pure
    rw [List.append_nil]
    exact hgone
  | cons n ns ih =>
    intro s gone hgone haway hns
    obtain ⟨hn, hns⟩ := List.forall_mem_cons.mp hns
    show Ends (remove n >>= fun _ => ns.forM remove) s _ _
    apply ends_bind
    by_cases hpresent : n ∈ s.present
    · have hleft : (s.leave n).present = s.present.filter (· ≠ n) := Stage.updateOpposites_present _
      have hnodup : (gone ++ [n]).Nodup := by
        rw [← List.concat_eq_append]
        exact List.Nodup.concat (fun hmem => haway n hmem hpresent) hgone
      refine ends_of_ok (remove_of_mem hpresent) ((ih hnodup ?_ ?_).mono ?_ ?_)
      · intro m hm
        rw [hleft, List.mem_filter]
        rintro ⟨hmp, hmn⟩
        rcases List.mem_append.mp hm with hm | hm
        · exact haway m hm hmp
        · rw [List.mem_singleton.mp hm] at hmn
          simp at hmn
      · intro m hm
        by_cases hmn : m = n
        · exact .inr (List.mem_append_right _ (hmn ▸ List.mem_cons_self))
        · rcases hns m hm with hmp | hmg
          · left
            rw [hleft, List.mem_filter]
            exact ⟨hmp, by simpa using hmn⟩
          · exact .inr (List.mem_append_left _ hmg)
      · intro _ _ h
        rw [List.append_cons]
        exact h
      · rintro f _ ⟨before, name, after, rfl, rfl, hbefore, hname⟩
        refine ⟨n :: before, name, after, rfl, rfl, ?_, ?_⟩
        · rw [List.append_cons]
          exact hbefore
        · rw [List.append_cons]
          exact hname
    · refine ends_of_error (remove_of_not_mem hpresent) ⟨[], n, ns, rfl, rfl, ?_, ?_⟩
      · rw [List.append_nil]
        exact hgone
      · rw [List.append_nil]
        exact hn.resolve_left hpresent

theorem ends_removals_present {ns : List String} (h : ∀ n ∈ ns, n ∈ s.present) :
    Ends (ns.forM remove) s (fun _ _ => ns.Nodup)
      (fun f _ => ∃ name, f = .breakdown (.nobodyToRemove name) ∧ FirstNamedTwice ns name) := by
  refine (ends_removals_until ns List.nodup_nil nofun fun n hn => .inl (h n hn)).mono (fun _ _ hn => hn) ?_
  rintro f _ ⟨before, name, after, rfl, hns, hbefore, hname⟩
  exact ⟨name, rfl, before, after, hns, hbefore, hname⟩

theorem breaks_exeunt (ns : List String) :
    Ends (exeunt ns) s (fun _ _ => ∀ b, ¬ s.FindsGone ns b) (fun f _ => BreaksAs (s.FindsGone ns) f) := by
  unfold exeunt
  apply ends_bind
  refine (ends_checks (fun n s => s.checkPresent n) ns).mono ?_ ?_
  · rintro _ t ⟨rfl, hall⟩
    have hpresent : ∀ n ∈ ns, n ∈ t.present := fun n hn => checkPresent_ok_iff.mp (hall n hn)
    refine (ends_removals_present hpresent).mono ?_ ?_
    · rintro _ _ hnodup b ⟨-, name, hname, -⟩
      exact hname.not_nodup hnodup
    · rintro f _ ⟨name, rfl, hname⟩ b
      constructor
      · intro hb
        cases hb
        exact ⟨hpresent, name, hname, rfl⟩
      · rintro ⟨-, name', hname', rfl⟩
        rw [hname.unique hname']
  · rintro f t ⟨rfl, n, hn, hf⟩
    obtain ⟨cause, rfl⟩ := checkPresent_error hf
    refine BreaksAs.of_error nofun ?_
    rintro b ⟨hall, -⟩
    rw [checkPresent_ok_iff.mpr (hall n hn)] at hf
    cases hf

theorem breaks_exeuntAll (h : s.present.Nodup) : Ends exeuntAll s (fun _ _ => True) (fun _ _ => False) := by
  unfold exeuntAll
  apply ends_bind
  apply ends_get
  refine (ends_removals_present fun n hn => hn).mono (fun _ _ _ => trivial) ?_
  rintro f _ ⟨name, -, hname⟩
  exact hname.not_nodup h

end StageM

/-! ### Actions -/

/-- Input and output are basic. -/
structure Performance.Plain (p : Performance) : Prop where
  style : p.style = .basic
  desk : ∃ held, p.desk = .basic held

namespace PerformanceM

variable {p q : Performance} {speaker : String} {b : Breakdown}

/-- Only the script is changed by what is remembered. -/
def Discreet {α : Type} (remember : α → PerformanceM Unit) : Prop :=
  ∀ a q, ∃ script, remember a q = .ok () { q with script := script }

theorem ends_narrate_plain {Q : Unit → Performance → Prop} {E : Fault → Performance → Prop} (text : String)
    (hstyle : q.style = .basic) (h : Q () q) : Ends (narrate text) q Q E := by
  unfold narrate
  apply ends_bind
  apply ends_get
  rw [hstyle]
  exact ends_pure h

theorem ends_tell_plain {Q : Unit → Performance → Prop} {E : Fault → Performance → Prop}
    {numeral : Except Breakdown String} (text : String → String) (hstyle : q.style = .basic) (h : Q () q) :
    Ends (do if (← get).style.narrates then printLine (text (← ofBreakdown numeral))) q Q E := by
  apply ends_bind
  apply ends_get
  rw [hstyle]
  exact ends_pure h

theorem ends_evaluate_plain {remember : Expression → PerformanceM Unit} {e : Expression}
    (hrem : Discreet remember) :
    Ends (evaluate speaker remember e) q
      (fun x r => (e.evaluate speaker q.stage).1 = .ok x.1 ∧ ∃ script, r = { q with script := script })
      (fun f _ => (e.evaluate speaker q.stage).1 = .error f) := by
  unfold evaluate
  apply ends_bind
  apply ends_get
  generalize e.evaluate speaker q.stage = x
  obtain ⟨outcome, e'⟩ := x
  obtain ⟨script, hscript⟩ := hrem e' q
  dsimp only
  apply ends_bind
  refine ends_of_ok hscript ?_
  cases outcome with
  | ok n => exact ends_pure ⟨rfl, script, rfl⟩
  | error f => exact ends_throw rfl

theorem not_overwhelms_of_ok {stage : Stage} {e : Expression} {n : Int} (hs : speaker ∈ stage.present)
    (h : (e.evaluate speaker stage).1 = .ok n) : ¬ e.Overwhelms speaker stage b := by
  rw [← Expression.evaluate_breakdown_iff hs, h]
  exact nofun

theorem breaksAs_of_error {stage : Stage} {e : Expression} {f : Fault} (hs : speaker ∈ stage.present)
    (h : (e.evaluate speaker stage).1 = .error f) : BreaksAs (e.Overwhelms speaker stage) f := by
  intro b
  rw [← Expression.evaluate_breakdown_iff hs, h, Except.error.injEq]

theorem breaks_question {comparison : Comparison} {words : List String} {x y : Expression}
    {remember : Action Expression → PerformanceM Unit} (hp : p.Plain) (hs : speaker ∈ p.stage.present)
    (hrem : Discreet remember) :
    Ends (performAction speaker remember (.question comparison words x y)) p
      (fun _ q => (∀ b, ¬ (Action.question comparison words x y).Hazard p speaker b) ∧ q.Plain)
      (fun f _ => BreaksAs ((Action.question comparison words x y).Hazard p speaker) f) := by
  unfold performAction
  apply ends_bind
  refine (ends_evaluate_plain fun x' => hrem (.question comparison words x' y)).mono ?_ ?_
  · rintro ⟨m, x'⟩ q ⟨hx, script, rfl⟩
    apply ends_bind
    refine (ends_evaluate_plain fun y' => hrem (.question comparison words x' y')).mono ?_ ?_
    · rintro ⟨n, y'⟩ r ⟨hy, script', rfl⟩
      apply ends_bind
      refine ends_narrate_plain _ ?_ (ends_modify ⟨?_, hp.style, hp.desk⟩)
      · exact hp.style
      rintro b (h | ⟨-, h⟩)
      · exact not_overwhelms_of_ok hs hx h
      · exact not_overwhelms_of_ok hs hy h
    · intro f r hy b
      rw [breaksAs_of_error hs hy b]
      constructor
      · exact fun h => .inr ⟨⟨m, hx⟩, h⟩
      · rintro (h | ⟨-, h⟩)
        · exact absurd h (not_overwhelms_of_ok hs hx)
        · exact h
  · intro f r hx b
    rw [breaksAs_of_error hs hx b]
    constructor
    · exact .inl
    · rintro (h | ⟨⟨n, hn⟩, -⟩)
      · exact h
      · rw [hx] at hn
        cases hn

theorem ends_changeCharacter_plain {H : Breakdown → Prop} {n : String} {f : Character → Except Fault Character}
    (hnone : ∀ b, ¬ H b) (hf : ∀ c b, f c ≠ .error (.breakdown b)) :
    Ends (changeCharacter n f) q (fun _ r => ∃ s, r = { q with stage := s }) (fun e _ => BreaksAs H e) := by
  refine (ends_changeCharacter n f).mono ?_ ?_
  · rintro _ r ⟨c, -, rfl⟩
    exact ⟨_, rfl⟩
  · rintro e r ⟨-, he | ⟨c, he⟩⟩
    · refine BreaksAs.of_error (fun b hb => ?_) hnone
      rw [hb] at he
      exact Stage.character_ne_breakdown he
    · refine BreaksAs.of_error (fun b hb => ?_) hnone
      rw [hb] at he
      exact hf c b he

theorem hazard_needs_opposite {a : Action Expression}
    (ha : ∀ comparison words x y, a ≠ .question comparison words x y) (h : a.Hazard p speaker b) :
    ∃ other, p.stage.opposite speaker = .ok other := by
  cases a with
  | question comparison words x y => exact absurd rfl (ha comparison words x y)
  | assignment x | push x => exact h.1
  | input medium =>
    cases medium with
    | number => exact h.1
    | character => exact h.elim
  | output medium =>
    obtain ⟨other, -, hother, -⟩ := h
    exact ⟨other, hother⟩
  | pop recalled | goto target numeral => exact h.elim

theorem breaks_look_opposite {a : Action Expression} {m : String → PerformanceM Unit}
    (ha : ∀ comparison words x y, a ≠ .question comparison words x y)
    (h : ∀ other, p.stage.opposite speaker = .ok other →
      Ends (m other) p (fun _ q => (∀ b, ¬ a.Hazard p speaker b) ∧ q.Plain)
      (fun f _ => BreaksAs (a.Hazard p speaker) f)) :
    Ends (look (·.opposite speaker) >>= m) p (fun _ q => (∀ b, ¬ a.Hazard p speaker b) ∧ q.Plain)
      (fun f _ => BreaksAs (a.Hazard p speaker) f) := by
  apply ends_bind
  refine ends_look (fun other hother => h other hother) (fun e he => ?_)
  refine BreaksAs.of_error (fun b hb => ?_) fun b hb => ?_
  · rw [hb] at he
    exact Stage.opposite_ne_breakdown he
  · obtain ⟨other, hother⟩ := hazard_needs_opposite ha hb
    rw [he] at hother
    cases hother

/-- What an assignment and a push have in common. -/
theorem breaks_giving {x : Expression} (remember : Expression → PerformanceM Unit)
    (f : Int → Character → Character) (text : String → String → String) (hp : p.Plain)
    (hs : speaker ∈ p.stage.present) (hrem : Discreet remember) :
    Ends (do
        let other ← look (·.opposite speaker)
        let (n, _) ← evaluate speaker remember x
        changeCharacter other fun c => .ok (f n c)
        if (← get).style.narrates then printLine (text other (← ofBreakdown (Number.numeral n)))) p
      (fun _ q => (∀ b, ¬ (Action.assignment x).Hazard p speaker b) ∧ q.Plain)
      (fun f _ => BreaksAs ((Action.assignment x).Hazard p speaker) f) := by
  refine breaks_look_opposite nofun fun other hother => ?_
  apply ends_bind
  refine (ends_evaluate_plain hrem).mono ?_ ?_
  · rintro ⟨n, x'⟩ q ⟨hx, script, rfl⟩
    have hnone : ∀ b, ¬ (Action.assignment x).Hazard p speaker b := fun b h => not_overwhelms_of_ok hs hx h.2
    refine Ends.bind (ends_changeCharacter_plain hnone ?_) ?_
    · exact fun _ _ he => nomatch he
    · rintro _ r ⟨s, rfl⟩
      refine ends_tell_plain _ ?_ ⟨hnone, hp.style, hp.desk⟩
      exact hp.style
  · intro f r hx b
    rw [breaksAs_of_error hs hx b]
    exact ⟨fun h => ⟨⟨other, hother⟩, h⟩, fun h => h.2⟩

theorem illegible_nil : ¬ Illegible [] b := by
  rintro (⟨hlong, -⟩ | ⟨-, hne, -⟩)
  · exact Nat.not_lt_zero _ hlong
  · exact hne rfl

theorem ends_presentLine_plain {held : List Char} {E : Fault → Performance → Prop} (hq : q.desk = .basic held) :
    Ends (presentLine held) q (fun line r => line = q.inputLine held ∧ ∃ held', r.desk = .basic held') E := by
  unfold presentLine inputLine
  split
  · unfold readLine
    apply ends_bind
    refine ends_bind (ends_get (ends_bind (ends_set (ends_pure ?_))))
    exact ends_bind (ends_modify (ends_pure ⟨rfl, _, rfl⟩))
  · exact ends_pure ⟨rfl, held, hq⟩

/-- A number is read from its digits, unless they are illegible. -/
theorem breaks_lineNumber {held : List Char} (hq : q.desk = .basic held) :
    Ends (lineNumber held) q
      (fun _ r => (∀ b, ¬ Illegible (leadingDigits (q.inputLine held)) b) ∧ ∃ held', r.desk = .basic held')
      (fun f _ => BreaksAs (Illegible (leadingDigits (q.inputLine held))) f) := by
  unfold lineNumber
  apply ends_bind
  refine (ends_presentLine_plain (E := fun _ _ => False) hq).mono ?_ (fun _ _ h => h.elim)
  rintro line r ⟨rfl, hdesk⟩
  generalize q.inputLine held = line
  have hdigits : ∀ c ∈ leadingDigits line, Text.isDigitChar c = true := by
    intro c hc
    exact List.all_eq_true.mp List.all_takeWhile c hc
  dsimp only
  rw [show List.takeWhile Text.isDigitChar _ = leadingDigits line from rfl]
  generalize leadingDigits line = digits at hdigits
  cases digits with
  | nil => exact ends_pure ⟨fun _ => illegible_nil, hdesk⟩
  | cons c cs =>
    have hread := fun b => readNumeral_breakdown_iff hdigits (List.cons_ne_nil c cs) (b := b)
    rw [if_neg (by simp)]
    refine ends_bind (ends_modify (ends_bind ?_))
    cases hnumber : readNumeral (c :: cs) with
    | ok n =>
      refine ends_pure (ends_pure ⟨fun b hb => ?_, _, rfl⟩)
      rw [← hread, hnumber] at hb
      cases hb
    | error b' =>
      refine ends_throw fun b => ?_
      rw [← hread, hnumber, Fault.breakdown.injEq, Except.error.injEq]

theorem breaks_reading {held : List Char} (medium : Medium) (hq : q.desk = .basic held) :
    Ends (input medium) q
      (fun _ r => (∀ b, ¬ (medium = .number ∧ Illegible (leadingDigits (q.inputLine held)) b)) ∧
        ∃ held', r.desk = .basic held')
      (fun f _ => BreaksAs (fun b => medium = .number ∧ Illegible (leadingDigits (q.inputLine held)) b) f) := by
  unfold input
  apply ends_bind
  apply ends_get
  rw [hq]
  cases medium with
  | number =>
    refine (breaks_lineNumber hq).mono (fun _ _ h => ⟨fun b hb => h.1 b hb.2, h.2⟩) (fun f _ h b => ?_)
    rw [h b]
    exact ⟨fun hb => ⟨rfl, hb⟩, fun hb => hb.2⟩
  | character =>
    have hnone : ∀ b, ¬ (Medium.character = .number ∧ Illegible (leadingDigits (q.inputLine held)) b) := nofun
    unfold lineCharacter
    apply ends_bind
    refine (ends_presentLine_plain (E := fun _ _ => False) hq).mono ?_ (fun _ _ h => h.elim)
    rintro line r ⟨-, hdesk⟩
    split
    · exact ends_pure ⟨hnone, hdesk⟩
    · exact ends_bind (ends_modify (ends_pure ⟨hnone, _, rfl⟩))

theorem hazard_input_iff {medium : Medium} {other : String} {held : List Char}
    (hother : p.stage.opposite speaker = .ok other) (hheld : p.desk = .basic held) :
    (Action.input medium).Hazard p speaker b ↔
      medium = .number ∧ Illegible (leadingDigits (p.inputLine held)) b := by
  cases medium with
  | number =>
    constructor
    · rintro ⟨-, held', hheld', h⟩
      cases hheld.symm.trans hheld'
      exact ⟨rfl, h⟩
    · exact fun h => ⟨⟨other, hother⟩, held, hheld, h.2⟩
  | character => exact iff_of_false id nofun

theorem breaks_input {remember : Action Expression → PerformanceM Unit} (medium : Medium) (hp : p.Plain) :
    Ends (performAction speaker remember (.input medium)) p
      (fun _ q => (∀ b, ¬ (Action.input medium).Hazard p speaker b) ∧ q.Plain)
      (fun f _ => BreaksAs ((Action.input medium).Hazard p speaker) f) := by
  obtain ⟨held, hheld⟩ := hp.desk
  unfold performAction
  refine breaks_look_opposite nofun fun other hother => ?_
  have hiff : ∀ b, (Action.input medium).Hazard p speaker b ↔
      medium = .number ∧ Illegible (leadingDigits (p.inputLine held)) b := fun b => hazard_input_iff hother hheld
  apply ends_bind
  refine ((ends_input medium (Alike.refl p).fed).and (breaks_reading medium hheld)).mono ?_ ?_
  · rintro n q ⟨hq, hnone, hdesk⟩
    have hnone : ∀ b, ¬ (Action.input medium).Hazard p speaker b := fun b hb => hnone b ((hiff b).mp hb)
    have hstyle : q.style = .basic := hq.style.trans hp.style
    apply ends_bind
    apply ends_get
    rw [hstyle]
    show Ends (changeCharacter other fun c => .ok { c with value := n }) q _ _
    refine Ends.mono (ends_changeCharacter_plain hnone ?_) ?_ (fun _ _ h => h)
    · exact fun _ _ he => nomatch he
    · rintro _ r ⟨s, rfl⟩
      exact ⟨hnone, hstyle, hdesk⟩
  · rintro f q ⟨-, hf⟩ b
    rw [hf b, hiff b]

theorem breaks_outputNumber (n : Int) (hq : q.Plain) :
    Ends (outputNumber n) q (fun _ r => (∀ b, ¬ Unutterable .number n b) ∧ r.Plain)
      (fun f _ => BreaksAs (Unutterable .number n) f) := by
  have hnumeral : ∀ b, numeral n = .error b ↔ Unutterable .number n b := by
    intro b
    unfold numeral
    simp only [Unutterable]
    generalize numeralBound = bound
    by_cases h : n.natAbs < bound
    · rw [if_pos h]
      exact iff_of_false nofun fun hb => Nat.not_le.mpr h hb.1
    · rw [if_neg h, Except.error.injEq]
      exact ⟨fun hb => ⟨Nat.not_lt.mp h, hb.symm⟩, fun hb => hb.2.symm⟩
  unfold outputNumber
  generalize numeral n = text at hnumeral
  apply ends_bind
  cases text with
  | ok text =>
    have hnone : ∀ b, ¬ Unutterable .number n b := fun b hb => nomatch (hnumeral b).mpr hb
    refine ends_pure (ends_bind (ends_get ?_))
    rw [hq.style]
    exact ends_bind (ends_modify (ends_modify ⟨hnone, hq.style, hq.desk⟩))
  | error b' =>
    refine ends_throw fun b => ?_
    rw [← hnumeral, Fault.breakdown.injEq, Except.error.injEq]

theorem breaks_outputCharacter (n : Int) (hq : q.Plain) :
    Ends (outputCharacter n) q (fun _ r => (∀ b, ¬ Unutterable .character n b) ∧ r.Plain)
      (fun f _ => BreaksAs (Unutterable .character n) f) := by
  unfold outputCharacter characterCode
  apply ends_bind
  by_cases hlarge : n < -0x80000000 ∨ 0x80000000 ≤ n
  · rw [if_pos hlarge]
    refine ends_bind (ends_throw fun b => ?_)
    rw [Fault.breakdown.injEq]
    constructor
    · exact fun hb => .inl ⟨by omega, hb.symm⟩
    · rintro (⟨-, hb⟩ | ⟨hlow, hhigh, -⟩)
      · exact hb.symm
      · omega
  · rw [if_neg hlarge]
    by_cases hinvalid : n < 0 ∨ 0x10ffff < n
    · rw [if_pos hinvalid]
      refine ends_bind (ends_throw (BreaksAs.of_error nofun ?_))
      rintro b (⟨hlarge', -⟩ | ⟨hlow, hhigh, -⟩) <;> omega
    · rw [if_neg hinvalid]
      refine ends_pure (ends_bind (ends_get ?_))
      rw [hq.style]
      show Ends (do
        if n.toNat.isValidChar then print (String.singleton (Char.ofNat n.toNat))
        else breakDown (.unencodable n.toNat)
        utter (.character n)) q _ _
      by_cases hvalid : n.toNat.isValidChar
      · rw [if_pos hvalid]
        refine ends_bind (ends_modify (ends_modify ⟨?_, hq.style, hq.desk⟩))
        rintro b (⟨hlarge', -⟩ | ⟨hlow, hhigh, -⟩)
        · omega
        · unfold Nat.isValidChar at hvalid
          omega
      · rw [if_neg hvalid]
        refine ends_bind (ends_throw fun b => ?_)
        rw [Fault.breakdown.injEq]
        unfold Nat.isValidChar at hvalid
        constructor
        · exact fun hb => .inr ⟨by omega, by omega, hb.symm⟩
        · rintro (⟨hlarge', -⟩ | ⟨-, -, hb⟩)
          · exact absurd hlarge' hlarge
          · exact hb.symm

theorem breaks_output (medium : Medium) (n : Int) (hq : q.Plain) :
    Ends (output medium n) q (fun _ r => (∀ b, ¬ Unutterable medium n b) ∧ r.Plain)
      (fun f _ => BreaksAs (Unutterable medium n) f) := by
  cases medium with
  | number => exact breaks_outputNumber n hq
  | character => exact breaks_outputCharacter n hq

/-- An action breaks down exactly at a hazard. -/
theorem breaks_performAction {a : Action Expression} {remember : Action Expression → PerformanceM Unit}
    (hp : p.Plain) (hs : speaker ∈ p.stage.present) (hrem : Discreet remember) :
    Ends (performAction speaker remember a) p (fun _ q => (∀ b, ¬ a.Hazard p speaker b) ∧ q.Plain)
      (fun f _ => BreaksAs (a.Hazard p speaker) f) := by
  cases a with
  | question comparison words x y => exact breaks_question hp hs hrem
  | assignment x =>
    exact breaks_giving (fun x => remember (.assignment x)) (fun n c => { c with value := n })
      (fun other numeral => other ++ " set to " ++ numeral) hp hs fun x => hrem (.assignment x)
  | input medium => exact breaks_input medium hp
  | output medium =>
    unfold performAction
    refine breaks_look_opposite nofun fun other hother => ?_
    apply ends_bind
    refine ends_look (fun c hc => ?_) (fun e he => ?_)
    · have hiff : ∀ b, (Action.output medium).Hazard p speaker b ↔ Unutterable medium c.value b := by
        intro b
        constructor
        · rintro ⟨other', c', hother', hc', hb⟩
          cases hother.symm.trans hother'
          cases hc.symm.trans hc'
          exact hb
        · exact fun hb => ⟨other, c, hother, hc, hb⟩
      apply ends_bind
      refine ends_narrate_plain _ hp.style ((breaks_output medium c.value hp).mono ?_ ?_)
      · exact fun _ q hq => ⟨fun b hb => hq.1 b ((hiff b).mp hb), hq.2⟩
      · exact fun f q hf b => (hf b).trans (hiff b).symm
    · refine BreaksAs.of_error (fun b hb => ?_) ?_
      · rw [hb] at he
        exact Stage.character_ne_breakdown he
      · rintro b ⟨other', c, hother', hc, -⟩
        cases hother.symm.trans hother'
        rw [he] at hc
        cases hc
  | push x =>
    exact breaks_giving (fun x => remember (.push x)) (fun n c => c.push n)
      (fun other numeral => other ++ " pushed " ++ numeral) hp hs fun x => hrem (.push x)
  | pop recalled =>
    unfold performAction
    refine breaks_look_opposite nofun fun other hother => ?_
    refine Ends.bind (ends_changeCharacter_plain (fun b => id) ?_) ?_
    · intro c b hb
      unfold Character.pop at hb
      split at hb <;> cases hb
    · rintro _ r ⟨s, rfl⟩
      refine ends_narrate_plain _ ?_ ⟨fun b => id, hp.style, hp.desk⟩
      exact hp.style
  | goto target numeral => exact ends_pure ⟨fun b => id, hp⟩

/-! ### Steps -/

/-- A jump from an operation of the script leads somewhere, or to an error of the play. -/
theorem destination_ne_breakdown {source : List Char} {play : Play} {op : Operation} {target : Target}
    {numeral : String} (h : p.Sound source play) (hop : p.script.operation? p.position = some op) :
    destination p.script p.position target numeral ≠ .error (.breakdown b) := by
  have hlt := h.lt_length hop
  obtain ⟨k, hk⟩ := Int.eq_ofNat_of_zero_le h.nonneg
  rw [destination_congr (t := Script.ofActs source play.acts) h.acts, hk]
  by_cases hleads : ∃ n, Leads play.acts k target numeral n
  · obtain ⟨n, hn⟩ := hleads
    rw [destination_of_leads h.numerals hn]
    exact nofun
  · rw [destination_of_not_leads (by omega) hleads]
    exact nofun

theorem breaks_performSentence {span : Span} {condition : Option Condition} {a : Action Expression}
    {remember : Action Expression → PerformanceM Unit} (hp : p.Plain) (hrem : Discreet remember)
    (hjump : ∀ target numeral b, destination p.script p.position target numeral ≠ .error (.breakdown b)) :
    Ends (performSentence span remember speaker condition a) p
      (fun _ q => (∀ b, ¬ (Deed.speak speaker condition a).Hazard p b) ∧ q.Plain)
      (fun f _ => BreaksAs ((Deed.speak speaker condition a).Hazard p) f) := by
  unfold performSentence
  apply ends_bind
  refine ends_look (fun _ hpresent => ?_) (fun e he => ?_)
  · have hs : speaker ∈ p.stage.present := checkPresent_ok_iff.mp hpresent
    apply ends_bind
    apply ends_get
    dsimp only
    by_cases hmet : isMet condition p.stage.flag = true
    · rw [if_pos hmet]
      have hiff : ∀ b, (Deed.speak speaker condition a).Hazard p b ↔ a.Hazard p speaker b :=
        fun b => ⟨fun hb => hb.2.2, fun hb => ⟨hs, hmet, hb⟩⟩
      split
      · next target numeral =>
        refine (ends_jump target numeral).mono ?_ ?_
        · rintro _ q ⟨n, r, -, hr, rfl⟩
          refine ⟨fun b hb => (hiff b).mp hb, hr.style.trans hp.style, ?_⟩
          obtain ⟨held, hheld⟩ := hp.desk
          exact ⟨held, hr.desk.trans hheld⟩
        · rintro f q ⟨hf, -⟩
          refine BreaksAs.of_error (fun b hb => ?_) fun b hb => (hiff b).mp hb
          rw [hb] at hf
          exact hjump target numeral b hf
      · apply ends_locating
        refine (breaks_performAction hp hs hrem).mono ?_ ?_
        · exact fun _ q hq => ⟨fun b hb => hq.1 b ((hiff b).mp hb), hq.2⟩
        · exact fun f q hf b => (hf.locate span b).trans (hiff b).symm
    · rw [if_neg hmet]
      exact ends_narrate_plain _ hp.style ⟨fun b hb => hmet hb.2.1, hp⟩
  · obtain ⟨cause, rfl⟩ := checkPresent_error he
    refine BreaksAs.of_error nofun fun b hb => ?_
    rw [checkPresent_ok_iff.mpr hb.1] at he
    cases he

/-- A direction that breaks down as `H` says on the stage does so in a performance. -/
theorem breaks_direction {m : StageM Unit} {H : Breakdown → Prop} (text : String) (span : Span) (hp : p.Plain)
    (h : Ends m p.stage (fun _ _ => ∀ b, ¬ H b) (fun f _ => BreaksAs H f)) :
    Ends (locating span do narrate text; onStage m) p (fun _ q => (∀ b, ¬ H b) ∧ q.Plain)
      (fun f _ => BreaksAs H f) := by
  apply ends_locating
  apply ends_bind
  refine ends_narrate_plain _ hp.style (ends_onStage (h.mono ?_ ?_))
  · exact fun _ s hs => ⟨hs, hp.style, hp.desk⟩
  · exact fun f s hf => hf.locate span

theorem breaks_perform {op : Operation} {remember : Action Expression → PerformanceM Unit} (hp : p.Plain)
    (hs : p.stage.Sound) (hrem : Discreet remember)
    (hjump : ∀ target numeral b, destination p.script p.position target numeral ≠ .error (.breakdown b)) :
    Ends (perform remember op) p (fun _ q => (∀ b, ¬ op.deed.Hazard p b) ∧ q.Plain)
      (fun f _ => BreaksAs (op.deed.Hazard p) f) := by
  unfold perform
  cases op.deed with
  | enter names =>
    refine breaks_direction _ op.span hp ((StageM.ends_enter names).mono (fun _ _ _ b => id) ?_)
    rintro f s ⟨-, cause, rfl⟩
    exact BreaksAs.of_error nofun fun b => id
  | exit name =>
    refine breaks_direction _ op.span hp ((StageM.ends_exit name).mono (fun _ _ _ b => id) ?_)
    rintro f s ⟨-, cause, rfl⟩
    exact BreaksAs.of_error nofun fun b => id
  | exeunt names => exact breaks_direction _ op.span hp (StageM.breaks_exeunt names)
  | exeuntAll =>
    exact breaks_direction _ op.span hp
      ((StageM.breaks_exeuntAll hs.present_nodup).mono (fun _ _ _ b => id) fun _ _ h => h.elim)
  | breakpoint => exact ends_pure ⟨fun b => id, hp⟩
  | speak speaker condition a => exact breaks_performSentence hp hrem hjump

/-- A step breaks down exactly at a hazard. -/
theorem breaks_step {source : List Char} {play : Play} {op : Operation} (h : p.Sound source play) (hp : p.Plain)
    (hop : p.script.operation? p.position = some op) :
    Ends step p (fun _ q => (∀ b, ¬ p.Hazard b) ∧ q.Plain) (fun f _ => BreaksAs p.Hazard f) := by
  have hiff : ∀ b, p.Hazard b ↔ op.deed.Hazard p b := by
    intro b
    constructor
    · rintro ⟨op', hop', hb⟩
      cases hop.symm.trans hop'
      exact hb
    · exact fun hb => ⟨op, hop, hb⟩
  have hrem : Discreet (rememberAt p.position) := fun a q => ⟨q.script.remember p.position a, rfl⟩
  have hperform : Ends (perform (rememberAt p.position) op) p (fun _ q => (∀ b, ¬ op.deed.Hazard p b) ∧ q.Plain)
      (fun f _ => BreaksAs (op.deed.Hazard p) f) :=
    breaks_perform hp h.stage hrem fun _ _ _ => destination_ne_breakdown h hop
  unfold step
  apply ends_bind
  refine ends_nextOperation (fun op' hop' => ?_) (fun hnone => ?_)
  · cases hop.symm.trans hop'
    split
    · next hbreak =>
      refine ends_modify ⟨fun b hb => ?_, hp.style, hp.desk⟩
      have hdeed : op.deed = .breakpoint := by simpa [Operation.isBreakpoint] using hbreak
      rw [hiff, hdeed] at hb
      exact hb
    · apply ends_bind
      apply ends_get
      rw [hp.style]
      show Ends (do perform (rememberAt p.position) op; if (← get).position = p.position then advance) p _ _
      apply ends_bind
      refine hperform.mono (fun _ r hr => ?_) (fun f r hf b => (hf b).trans (hiff b).symm)
      have hnone : ∀ b, ¬ p.Hazard b := fun b hb => hr.1 b ((hiff b).mp hb)
      apply ends_bind
      apply ends_get
      split
      · exact ends_modify ⟨hnone, hr.2.style, hr.2.desk⟩
      · exact ends_pure ⟨hnone, hr.2⟩
  · rw [hop] at hnone
    cases hnone

theorem isOver_of_operation {op : Operation} (hop : p.script.operation? p.position = some op) :
    isOver p = false := by
  unfold Script.operation? Source.at? at hop
  unfold isOver
  rw [decide_eq_false_iff_not]
  intro hover
  rw [if_neg (by omega), List.getElem?_eq_none (by omega)] at hop
  cases hop

theorem nextOperation_of_some {op : Operation} (hop : p.script.operation? p.position = some op) :
    nextOperation p = .ok op p := by
  have hget : (get : PerformanceM Performance) p = .ok p p := rfl
  rw [nextOperation, bind_of_ok hget, hop]
  rfl

theorem nextOperation_of_none (hop : p.script.operation? p.position = none) :
    nextOperation p = .error (.breakdown .positionOutOfRange) p := by
  have hget : (get : PerformanceM Performance) p = .ok p p := rfl
  rw [nextOperation, bind_of_ok hget, hop]
  rfl

theorem operation_of_step (h : step p = .ok () q) : ∃ op, p.script.operation? p.position = some op := by
  cases hop : p.script.operation? p.position with
  | some op => exact ⟨op, rfl⟩
  | none =>
    unfold step at h
    rw [bind_of_error (nextOperation_of_none hop)] at h
    cases h

end PerformanceM

end Playhouse
