import Mathlib.Logic.Function.Iterate
import Playhouse.Proofs.Casing
import Playhouse.Proofs.Preparation

/-!
# Playhouse.Proofs.CanonicalNames — the canonical form of a name

Whether a letter of a name becomes a capital depends on what stands before it, but never on its own case or on that
of its neighbours. The small `of` that is put in afterwards differs from the capital one in case only. So the
canonical form of a name in ASCII differs from the name in case only, and names that differ in case only have the
same canonical form. Main statement: `name_canonical`.
-/

namespace Playhouse

open Grammar Text

namespace Name

/-- All characters of the text are ASCII. -/
def Ascii (cs : List Char) : Prop := ∀ c ∈ cs, c.toNat < 128

instance (cs : List Char) : Decidable (Ascii cs) :=
  decidable_of_iff ((cs.all fun c => decide (c.toNat < 128)) = true) (by simp [Ascii])

/-! ### Letters -/

theorem caseBlind_titled : CaseBlind fun c => (isCased c, titleCase c) := caseBlind_of_ascii (by decide +kernel)

theorem toLower_titled {c : Char} (h : c.toNat < 128) :
    c.toLower.toLower = c.toLower ∧ c.toUpper.toLower = c.toLower := by
  have hc :=
    of_ascii (f := fun c => c.toLower.toLower == c.toLower && c.toUpper.toLower == c.toLower) (by decide +kernel) h
  rwa [Bool.and_eq_true, beq_iff_eq, beq_iff_eq] at hc

theorem toNat_toLower_lt {c : Char} : c.toLower.toNat < 128 ↔ c.toNat < 128 := by
  by_cases hc : c.toNat < 128
  · have hlower := of_ascii (f := fun c => c.toLower.toNat < 128) (by decide +kernel) hc
    exact iff_of_true (of_decide_eq_true hlower) hc
  · rw [toLower_of_le (Nat.le_of_not_lt hc)]

theorem ascii_of_sameButCase {cs ds : List Char} (h : SameButCase cs ds) (hds : Ascii ds) : Ascii cs := by
  intro c hc
  have hmem : c.toLower ∈ ds.map Char.toLower := by
    rw [← show cs.map Char.toLower = ds.map Char.toLower from h]
    exact List.mem_map_of_mem hc
  obtain ⟨d, hd, heq⟩ := List.mem_map.mp hmem
  rw [← toNat_toLower_lt, ← heq, toNat_toLower_lt]
  exact hds d hd

theorem lowerWithin_ascii {c : Char} (h : c.toNat < 128) (before after : List Char) :
    lowerWithin before c after = [c.toLower] := by
  unfold lowerWithin lowerCase
  rw [if_neg, if_pos h]
  rintro rfl
  exact absurd h (by decide)

theorem titleCase_ascii {c : Char} (h : c.toNat < 128) : titleCase c = [c.toUpper] := if_pos h

/-! ### Capitals -/

/-- Putting capitals changes nothing but case. -/
theorem sameButCase_titleFrom {cs : List Char} :
    ∀ {before : List Char}, Ascii cs → SameButCase (titleFrom before cs) cs := by
  induction cs with
  | nil => exact fun _ => rfl
  | cons c cs ih =>
    intro before h
    obtain ⟨hc, hcs⟩ := List.forall_mem_cons.mp h
    have hrest : (titleFrom (c :: before) cs).map Char.toLower = cs.map Char.toLower := ih hcs
    obtain ⟨hlower, hupper⟩ := toLower_titled hc
    show (titleFrom before (c :: cs)).map Char.toLower = (c :: cs).map Char.toLower
    rw [titleFrom, lowerWithin_ascii hc, titleCase_ascii hc]
    split
    · rw [List.singleton_append, List.map_cons, List.map_cons, hrest, hlower]
    · rw [List.singleton_append, List.map_cons, List.map_cons, hrest, hupper]

/-- Where the capitals are put does not depend on case. Of what was read before, only the last character counts. -/
theorem titleFrom_of_sameButCase {cs : List Char} :
    ∀ {ds before before' : List Char}, Ascii cs → SameButCase cs ds →
    before.head?.any isCased = before'.head?.any isCased → titleFrom before cs = titleFrom before' ds := by
  induction cs with
  | nil =>
    intro ds before before' _ hsame _
    rw [show ds = [] from List.map_eq_nil_iff.mp (Eq.symm hsame)]
    rfl
  | cons c cs ih =>
    intro ds before before' h hsame hbefore
    have hds := ascii_of_sameButCase (Eq.symm hsame) h
    cases ds with
    | nil => cases hsame
    | cons d ds =>
      obtain ⟨hlower, hsame⟩ := List.cons.inj (hsame : c.toLower :: cs.map _ = d.toLower :: ds.map _)
      obtain ⟨hc, hcs⟩ := List.forall_mem_cons.mp h
      obtain ⟨hd, -⟩ := List.forall_mem_cons.mp hds
      obtain ⟨hcased, htitle⟩ := Prod.mk.inj (caseBlind_titled.eq hlower)
      rw [titleFrom, titleFrom, hbefore, lowerWithin_ascii hc, lowerWithin_ascii hd, hlower, htitle,
        @ih ds (c :: before) (d :: before') hcs hsame (by simpa using hcased)]

/-! ### Small words -/

/-- Replacing a pattern by one that differs from it in case only changes nothing but case. -/
theorem sameButCase_replaceFrom {a : Char} {old new : List Char} (h : SameButCase new (a :: old))
    (cs : List Char) :
    ∀ skip, SameButCase (replaceFrom (a :: old) new skip cs) (cs.drop skip) := by
  induction cs with
  | nil =>
    intro skip
    cases skip <;> rfl
  | cons c cs ih =>
    intro skip
    cases skip with
    | succ skip => exact ih skip
    | zero =>
      rw [replaceFrom, List.drop_zero]
      split
      · next hhere =>
        obtain ⟨more, hmore⟩ := List.isPrefixOf_iff_prefix.mp hhere
        rw [List.cons_append, List.cons.injEq] at hmore
        obtain ⟨rfl, rfl⟩ := hmore
        have hrest : (replaceFrom (a :: old) new old.length (old ++ more)).map Char.toLower =
            more.map Char.toLower := by
          simpa [SameButCase] using ih old.length
        show (new ++ _).map Char.toLower = (a :: old ++ more).map Char.toLower
        rw [List.map_append, List.map_append, h, List.length_cons, Nat.add_sub_cancel, hrest]
      · show _ :: _ = c.toLower :: cs.map Char.toLower
        exact congrArg _ (ih 0)

theorem sameButCase_normalizeChars {cs : List Char} (h : Ascii cs) : SameButCase (normalizeChars cs) cs := by
  have hof : SameButCase " of ".toList (' ' :: "Of ".toList) := rfl
  exact (sameButCase_replaceFrom hof (titleFrom [] cs) 0).trans (sameButCase_titleFrom h)

/-! ### Names -/

theorem normalizeChars_of_sameButCase {cs ds : List Char} (h : Ascii cs) (hsame : SameButCase cs ds) :
    normalizeChars cs = normalizeChars ds := by
  unfold normalizeChars
  rw [titleFrom_of_sameButCase h hsame rfl]

theorem normalize_of_sameButCase {s t : String} (h : Ascii s.toList) (hsame : SameButCase s.toList t.toList) :
    normalize s = normalize t := by
  unfold normalize
  rw [normalizeChars_of_sameButCase h hsame]

theorem normalize_normalize {s : String} (h : Ascii s.toList) : normalize (normalize s) = normalize s := by
  have hsame : SameButCase (normalize s).toList s.toList := by
    rw [normalize, String.toList_ofList]
    exact sameButCase_normalizeChars h
  exact normalize_of_sameButCase (ascii_of_sameButCase hsame h) hsame

/-- However often it is brought into canonical form again, it stays as it is. -/
theorem iterate_normalize {s : String} (h : Ascii s.toList) (n : Nat) :
    normalize^[n] (normalize s) = normalize s :=
  Function.iterate_fixed (normalize_normalize h) n

/-- The words with single spaces between them. -/
theorem toList_intercalate (ws : List String) :
    (" ".intercalate ws).toList = joinWith [' '] (ws.map String.toList) := by
  induction ws with
  | nil => rfl
  | cons w ws ih =>
    cases ws with
    | nil => simp [joinWith]
    | cons v ws =>
      simp only [List.map_cons] at ih
      simp [String.intercalate_cons_cons, joinWith, ih]

theorem ascii_joinWith {ws : List (List Char)} (h : ∀ w ∈ ws, Ascii w) : Ascii (joinWith [' '] ws) := by
  induction ws with
  | nil => exact nofun
  | cons w ws ih =>
    obtain ⟨hw, hws⟩ := List.forall_mem_cons.mp h
    cases ws with
    | nil => exact hw
    | cons v ws =>
      have hspace : Ascii [' '] := by decide +kernel
      exact List.forall_mem_append.mpr ⟨List.forall_mem_append.mpr ⟨hw, hspace⟩, ih hws⟩

end Name

theorem mem_names_of_persona {play : Play} {stage : Stage} {persona : Persona} (h : play.stage = .ok stage)
    (hpersona : persona ∈ play.personae) : Name.normalizeWords persona.name ∈ stage.names := by
  obtain ⟨-, hstage⟩ | ⟨f, -, hstage⟩ := play.stage_cases
  · obtain rfl := Except.ok.inj (h.symm.trans hstage)
    have hnames : (Stage.ofCast play.castNames).names = play.castNames := Stage.names_of_fresh rfl
    rw [hnames]
    exact List.mem_map_of_mem hpersona
  · rw [hstage] at h
    cases h

/-- **Names have a canonical form.** For names in ASCII: the canonical form of a canonical form is itself; names
that differ in the case of letters only have the same one; and that of a list of words is that of the words with
single spaces between them. So let a play declare a persona, and let a line be spoken by the same words, in
whatever case: the name of the speaker in its operations, however often it is brought into canonical form again for
the values they speak of, is the name under which the persona is kept in the cast. -/
theorem name_canonical :
    (∀ s : String, Name.Ascii s.toList → Name.normalize (Name.normalize s) = Name.normalize s) ∧
    (∀ s t : String, Name.Ascii s.toList → Name.Ascii t.toList → SameButCase t.toList s.toList →
      Name.normalize t = Name.normalize s) ∧
    (∀ ws : List String, (∀ w ∈ ws, Name.Ascii w.toList) →
      Name.normalizeWords ws = Name.normalize (String.ofList (joinWith [' '] (ws.map String.toList)))) ∧
    ∀ (play : Play) (stage : Stage) (persona : Persona) (speaker : List String) (span : Span)
      (sentences : List Sentence) (op : Operation), play.stage = .ok stage → persona ∈ play.personae →
        (∀ w ∈ persona.name, Name.Ascii w.toList) →
      SameButCase (joinWith [' '] (speaker.map String.toList)) (joinWith [' '] (persona.name.map String.toList)) →
      op ∈ Operation.ofEvent (.line span speaker sentences) →
      ∃ name condition action, op.deed = .speak name condition action ∧
        ∀ n, Name.normalize^[n] name = Name.normalizeWords persona.name ∧
          Name.normalize^[n] name ∈ stage.names := by
  have hwords : ∀ ws : List String, Name.normalizeWords ws =
      Name.normalize (String.ofList (joinWith [' '] (ws.map String.toList))) := by
    intro ws
    rw [← Name.toList_intercalate, String.ofList_toList, Name.normalizeWords]
  refine ⟨fun s => Name.normalize_normalize, fun s t _ ht hsame => Name.normalize_of_sameButCase ht hsame,
    fun ws _ => hwords ws, ?_⟩
  intro play stage persona speaker span sentences op hstage hpersona hascii hsame hop
  obtain ⟨s, -, rfl⟩ := List.mem_map.mp hop
  refine ⟨_, _, _, rfl, fun n => ?_⟩
  have hjoined : Name.Ascii (joinWith [' '] (persona.name.map String.toList)) := by
    refine Name.ascii_joinWith fun w hw => ?_
    obtain ⟨v, hv, rfl⟩ := List.mem_map.mp hw
    exact hascii v hv
  have hname : Name.normalize^[n] (Name.normalizeWords speaker) = Name.normalizeWords persona.name := by
    have hspeaker : Name.Ascii (String.ofList (joinWith [' '] (speaker.map String.toList))).toList := by
      rw [String.toList_ofList]
      exact Name.ascii_of_sameButCase hsame hjoined
    rw [hwords, hwords, Name.iterate_normalize hspeaker]
    refine Name.normalize_of_sameButCase hspeaker ?_
    rw [String.toList_ofList, String.toList_ofList]
    exact hsame
  rw [hname]
  exact ⟨rfl, mem_names_of_persona hstage hpersona⟩

/-- Small words in a row, of which the second keeps its capital, and a ghost that is called in small letters. -/
theorem name_canonical_ghostly :
    Name.normalize "tHE 2nd o'NEIL OF of the  isle" = "The 2Nd O'Neil of Of The  Isle" ∧
    Name.normalize (Name.normalize "tHE 2nd o'NEIL OF of the  isle") =
      Name.normalize "tHE 2nd o'NEIL OF of the  isle" ∧
    Name.normalize "THE 2ND O'neil of OF THE  ISLE" = Name.normalize "tHE 2nd o'NEIL OF of the  isle" ∧
    Name.normalizeWords ["the", "ghost", "of", "it"] = Name.normalize "the ghost of it" ∧
    ∃ name condition action,
      (Operation.ofSentence (Name.normalizeWords ["the", "GHOST"]) ⟨⟨0, 1⟩, none, .pop ""⟩).deed =
        .speak name condition action ∧
      ∀ n, Name.normalize^[n] name = "The Ghost" ∧
        Name.normalize^[n] name ∈ (Stage.ofCast ["Romeo", "The Ghost"]).names := by
  have hascii : ∀ {ws : List String}, (ws.all fun w => decide (Name.Ascii w.toList)) = true →
      ∀ w ∈ ws, Name.Ascii w.toList := fun h w hw => of_decide_eq_true (List.all_eq_true.mp h w hw)
  obtain ⟨htwice, hcase, hwords, hspeaker⟩ := name_canonical
  refine ⟨by decide +kernel, htwice _ (by decide +kernel), hcase _ _ (by decide +kernel) (by decide +kernel)
    (by decide +kernel), hwords _ (hascii (by decide +kernel)), ?_⟩
  have hghost : Name.normalizeWords ["The", "Ghost"] = "The Ghost" := by decide +kernel
  rw [← hghost]
  refine hspeaker ⟨"T", [⟨⟨0, 1⟩, ["Romeo"]⟩, ⟨⟨1, 2⟩, ["The", "Ghost"]⟩], []⟩ _ ⟨⟨1, 2⟩, ["The", "Ghost"]⟩
    ["the", "GHOST"] ⟨0, 1⟩ [⟨⟨0, 1⟩, none, .pop ""⟩] _ (by decide +kernel) (by decide)
    (hascii (by decide +kernel)) (by decide +kernel) (by decide +kernel)

end Playhouse
