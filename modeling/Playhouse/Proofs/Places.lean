import Playhouse.Proofs.Progress
import Playhouse.Proofs.Reachable
import Playhouse.Proofs.Spans

/-!
# Playhouse.Proofs.Places — where faults are shown

A text that cannot be read fails at one of its positions. An expression that cannot be evaluated is at fault where
it is written itself, or one of its parts, or has no place at all. So there is always something to be shown. Main
statements: `exists_unreadableText` and `exists_errorText`.
-/

namespace Playhouse.Grammar

open Source

/-! ### Positions of failures -/

/-- **A text fails at one of its positions.** -/
theorem failure_within {r : Rule} {text : List Char} {e : Failure} (h : parse r text = .error e) :
    e.pos ≤ text.length := by
  have hadmits : Admits .usual (·.Of text) (·.pos ≤ text.length) fun seen => ∀ s ∈ seen, s.pos ≤ text.length := by
    refine ⟨fun hc => hc.skip _, fun hc hn => hc.advance hn, fun hc _ => hc.le, ?_⟩
    rintro e seen he hseen s ⟨⟩
    exact furthest_of (Q := (·.pos ≤ text.length)) he hseen
  have hread : readRule .usual r text = .error e := by
    unfold parse at h
    cases hread : readRule .usual r text with
    | ok t =>
      rw [hread] at h
      cases h
    | error e' =>
      rw [hread] at h
      cases h
      rfl
  exact error_of_readRule hadmits (Cursor.Of.start text) hread

end Playhouse.Grammar

namespace Playhouse

open Grammar Source Number

/-- Every failure to read can be told. -/
theorem exists_unreadableText {r : Rule} {text : List Char} {e : Failure} (h : parse r text = .error e) :
    ∃ told, (Report.unreadable text e).text = .ok told := by
  have hplace : ∃ place, placeOf text e.pos = .ok place := by
    obtain hlt | heq := Nat.lt_or_eq_of_le (failure_within h)
    · obtain ⟨_, _, _, _, _, _, hplace⟩ := placeOf_of_lt hlt
      exact ⟨_, hplace⟩
    · unfold placeOf place?
      rw [if_pos heq]
      exact ⟨_, rfl⟩
  obtain ⟨place, hplace⟩ := hplace
  show ∃ told, Report.unreadableText text e = .ok told
  unfold Report.unreadableText showPosition
  rw [hplace]
  exact ⟨_, rfl⟩

/-- A console line that cannot be read fails to parse. What parses has one of the forms that the console knows. -/
theorem unreadable_of_console {text : List Char} {r : Report}
    (h : readAs .replInput ConsoleLine.ofTree? text = .error r) :
    ∃ e, parse .replInput text = .error e ∧ r = .unreadable text e := by
  unfold readAs at h
  cases hparse : parse .replInput text with
  | error e =>
    rw [hparse] at h
    exact ⟨e, rfl, (Except.error.inj h).symm⟩
  | ok t =>
    obtain ⟨said, hsaid⟩ : ∃ said, ConsoleLine.ofTree? t = some said := (produces_of_parse hparse).formed
    rw [hparse] at h
    simp only [hsaid] at h
    cases h

/-- An error at a place that is written in the text can be told, if the stage can be shown that is told with it. -/
theorem exists_errorText {cause : Cause} {text : List Char} {place : Option Span} {stage : Option Stage}
    (hplace : ∀ s ∈ place, Solid text s) (hstage : ∀ s ∈ stage, ∃ t, s.text = .ok t) :
    ∃ told, (Report.error cause (place.map (text, ·)) stage).text = .ok told := by
  have hlines : ∃ lines, Report.placeLines (place.map (text, ·)) = .ok lines := by
    cases place with
    | none => exact ⟨[], rfl⟩
    | some s =>
      obtain ⟨context, hcontext⟩ := exists_showSpan (hplace s rfl) usualContext
      simp only [Option.map_some, Report.placeLines, hcontext]
      exact ⟨_, rfl⟩
  have hstate : ∃ lines, Report.stageLines stage = .ok lines := by
    cases stage with
    | none => exact ⟨[], rfl⟩
    | some s =>
      obtain ⟨t, ht⟩ := hstage s rfl
      simp only [Report.stageLines, ht]
      exact ⟨_, rfl⟩
  obtain ⟨lines, hlines⟩ := hlines
  obtain ⟨state, hstate⟩ := hstate
  show ∃ told, Report.errorText cause (place.map (text, ·)) stage = .ok told
  unfold Report.errorText
  rw [hlines, hstate]
  exact ⟨_, rfl⟩

/-! ### Places of errors -/

/-- The fault has no place, or one of these. -/
def Fault.PlacedIn (spans : List Span) : Fault → Prop
  | .error _ (some s) => s ∈ spans
  | .error _ none | .breakdown _ => True

namespace Fault.PlacedIn

variable {f : Fault} {spans spans' : List Span}

theorem mono (h : f.PlacedIn spans) (hsub : spans ⊆ spans') : f.PlacedIn spans' := by
  cases f with
  | breakdown b => trivial
  | error cause place =>
    cases place with
    | none => trivial
    | some s => exact hsub h

theorem locate (h : f.PlacedIn spans) {span : Span} (hspan : span ∈ spans) : (f.locate span).PlacedIn spans := by
  cases f with
  | breakdown b => trivial
  | error cause place =>
    cases place with
    | none => exact hspan
    | some s => exact h

end Fault.PlacedIn

theorem Stage.character_error {s : Stage} {n : String} {f : Fault} (h : s.character n = .error f) :
    ∃ cause, f = .error cause none := by
  unfold Stage.character at h
  split at h
  · cases h
  · exact ⟨_, (Except.error.inj h).symm⟩

theorem Stage.opposite_error {s : Stage} {n : String} {f : Fault} (h : s.opposite n = .error f) :
    ∃ cause, f = .error cause none := by
  unfold Stage.opposite at h
  split at h
  · cases h
  · split_ifs at h
    · exact ⟨_, (Except.error.inj h).symm⟩
    · exact ⟨_, (Except.error.inj h).symm⟩
    · exact ⟨_, (Except.error.inj h).symm⟩

namespace Number

variable {f : Fault}

theorem errorAbout_placed {n : Int} {cause : Cause} (h : errorAbout n cause = f) : f.PlacedIn [] := by
  unfold errorAbout at h
  generalize numeral n = text at h
  cases text with
  | ok text =>
    cases h
    trivial
  | error b =>
    cases h
    trivial

theorem nearest_placed {n : Int} (h : nearest n = .error f) : f.PlacedIn [] := by
  unfold nearest at h
  split at h
  · cases h
  · cases h
    trivial

/-- Numbers do not know where they are written. -/
theorem UnaryOperator.apply_placed {op : UnaryOperator} {n : Int} (h : op.apply n = .error f) : f.PlacedIn [] := by
  cases op with
  | factorial =>
    simp only [apply, Number.factorial] at h
    split_ifs at h
    · exact errorAbout_placed (Except.error.inj h)
    · rw [← Except.error.inj h]
      trivial
  | squareRoot =>
    simp only [apply, Number.squareRoot] at h
    split_ifs at h
    · exact errorAbout_placed (Except.error.inj h)
    · split at h
      · cases h
      · rw [← Except.error.inj h]
        trivial
  | cube | square | twice => cases h

theorem BinaryOperator.apply_placed {op : BinaryOperator} {m n : Int} (h : op.apply m n = .error f) :
    f.PlacedIn [] := by
  cases op with
  | quotient =>
    simp only [apply, Number.quotient] at h
    split at h
    · rw [← Except.error.inj h]
      trivial
    · split at h
      · cases h
      · rw [← Except.error.inj h]
        trivial
  | remainder =>
    simp only [apply, Number.remainder] at h
    split at h
    · rw [← Except.error.inj h]
      trivial
    · split at h
      · next hm =>
        rw [← Except.error.inj h]
        exact nearest_placed hm
      · split at h
        · next hn =>
          rw [← Except.error.inj h]
          exact nearest_placed hn
        · cases h
  | difference | product | sum => cases h

end Number

namespace Expression

variable {speaker : String} {stage : Stage} {f : Fault}

theorem placed_of_locate {r : Except Fault Int} {span : Span}
    (hr : ∀ g, r = .error g → ∃ cause, g = .error cause none) (h : Value.locate span r = .error f) :
    f.PlacedIn [span] := by
  cases r with
  | ok n => cases h
  | error g =>
    obtain ⟨cause, rfl⟩ := hr g rfl
    cases h
    exact List.mem_singleton_self span

theorem unplaced_of_value {n : String} {g : Fault} (h : (stage.character n).map Character.value = .error g) :
    ∃ cause, g = .error cause none := by
  cases hc : stage.character n with
  | ok c =>
    rw [hc] at h
    cases h
  | error f =>
    rw [hc] at h
    cases h
    exact Stage.character_error hc

/-- An expression is at fault where it is written, or one of its parts. -/
theorem Evaluates.placed {e e' : Expression} {r : Except Fault Int} (h : e.Evaluates speaker stage r e') :
    ∀ {f : Fault}, r = .error f → f.PlacedIn e.spans := by
  induction h with
  | firstPerson | character => exact fun h => placed_of_locate (fun g hg => unplaced_of_value hg) h
  | secondPerson =>
    refine fun h => placed_of_locate (fun g hg => ?_) h
    cases hother : stage.opposite speaker with
    | error f =>
      rw [hother] at hg
      cases hg
      exact Stage.opposite_error hother
    | ok other =>
      rw [hother] at hg
      exact unplaced_of_value hg
  | recalled | nounPhrase | nothing | unary | binary => exact fun h => by cases h
  | operandFault _ ih =>
    rintro _ ⟨⟩
    exact ((ih rfl).mono (List.subset_cons_self _ _)).locate List.mem_cons_self
  | firstFault _ ih =>
    rintro _ ⟨⟩
    exact ((ih rfl).mono (List.subset_cons_of_subset _ (List.subset_append_left _ _))).locate List.mem_cons_self
  | secondFault _ _ _ ihy =>
    rintro _ ⟨⟩
    exact ((ihy rfl).mono (List.subset_cons_of_subset _ (List.subset_append_right _ _))).locate List.mem_cons_self
  | unaryFault _ happly =>
    rintro _ ⟨⟩
    exact ((UnaryOperator.apply_placed happly).mono (List.nil_subset _)).locate List.mem_cons_self
  | binaryFault _ _ happly =>
    rintro _ ⟨⟩
    exact ((BinaryOperator.apply_placed happly).mono (List.nil_subset _)).locate List.mem_cons_self

theorem placed_of_evaluate {e : Expression} (h : (e.evaluate speaker stage).1 = .error f) :
    f.PlacedIn e.spans := by
  unfold evaluate at h
  split at h
  · next hpresent =>
    cases h
    obtain ⟨cause, rfl⟩ := checkPresent_error hpresent
    trivial
  · exact (evaluates e).placed h

end Expression

end Playhouse
