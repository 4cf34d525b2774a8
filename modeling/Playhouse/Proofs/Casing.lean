import Mathlib.Data.List.Forall2
import Playhouse.Proofs.Wording

/-!
# Playhouse.Proofs.Casing — texts that differ in case only

Words are compared without regard to case, and the patterns ask of a letter only what holds of it in either case.
So of two texts that differ at most in the case of letters, every rule reads the same, as far and with the same
tree, or fails for the same reason. The spelling of words is that of the grammar; what was captured from the text
keeps its own case. Main statement: `parse_ignores_case`.
-/

namespace Playhouse.Grammar

open Text

/-! ### Letters -/

/-- The texts differ at most in the case of letters. Letters above 127 have no case here. -/
def SameButCase (cs ds : List Char) : Prop := cs.map Char.toLower = ds.map Char.toLower

instance (cs ds : List Char) : Decidable (SameButCase cs ds) := inferInstanceAs (Decidable (_ = _))

/-- The function does not look at the case of a letter. -/
def CaseBlind {α : Type} (f : Char → α) : Prop := ∀ c, f c.toLower = f c

theorem toLower_of_le {c : Char} (h : 128 ≤ c.toNat) : c.toLower = c := by
  unfold Char.toLower
  rw [dif_neg]
  rintro ⟨-, hle⟩
  have hz : c.val.toNat ≤ 90 := hle
  have hc : c.val.toNat = c.toNat := rfl
  omega

/-- Only the letters below 128 have to be looked at. -/
theorem caseBlind_of_ascii {α : Type} [DecidableEq α] {f : Char → α}
    (h : ((List.range 128).all fun n => f (Char.ofNat n).toLower = f (Char.ofNat n)) = true) : CaseBlind f := by
  intro c
  by_cases hc : c.toNat < 128
  · exact of_decide_eq_true (of_ascii (f := fun c => f c.toLower = f c) h hc)
  · rw [toLower_of_le (Nat.le_of_not_lt hc)]

/-- What is asked of a letter, looked up at once. -/
theorem caseBlind_letter : CaseBlind fun c => (isBlank c, isAlphanumeric c, lowerCase c, c == 'İ' || c == 'ı') :=
  caseBlind_of_ascii (by decide +kernel)

/-- What the patterns ask of the end of a text. -/
theorem caseBlind_stop : CaseBlind fun c => (c != '!' && c != '.', c != '.', c != '\n') :=
  caseBlind_of_ascii (by decide +kernel)

theorem CaseBlind.eq {α : Type} {f : Char → α} (hf : CaseBlind f) {c d : Char} (h : c.toLower = d.toLower) :
    f c = f d := by
  rw [← hf c, h, hf d]

theorem CaseBlind.map {α β : Type} {f : Char → α} (hf : CaseBlind f) (g : α → β) : CaseBlind fun c => g (f c) :=
  fun c => congrArg g (hf c)

theorem caseBlind_isBlank : CaseBlind isBlank := CaseBlind.map caseBlind_letter (·.1)

theorem caseBlind_isAlphanumeric : CaseBlind isAlphanumeric := CaseBlind.map caseBlind_letter (·.2.1)

theorem caseBlind_lowerCase : CaseBlind lowerCase := CaseBlind.map caseBlind_letter (·.2.2.1)

theorem caseBlind_sameLetter (t : Char) : CaseBlind (sameLetter t) := by
  intro c
  simp only [sameLetter, caseBlind_lowerCase c]

/-- Dotted and dotless `i` lie above 127. -/
theorem caseBlind_isNumeralLetter (t : Char) : CaseBlind (isNumeralLetter t) := by
  intro c
  have hdots : (c.toLower == 'İ' || c.toLower == 'ı') = (c == 'İ' || c == 'ı') :=
    CaseBlind.map caseBlind_letter (·.2.2.2) c
  unfold isNumeralLetter
  rw [caseBlind_sameLetter t c, hdots]

theorem caseBlind_beforeStop : CaseBlind fun c => c != '!' && c != '.' := CaseBlind.map caseBlind_stop (·.1)

theorem caseBlind_notStop : CaseBlind fun c => c != '.' := CaseBlind.map caseBlind_stop (·.2.1)

theorem caseBlind_inLine : CaseBlind fun c => c != '\n' := CaseBlind.map caseBlind_stop (·.2.2)

theorem toLower_of_isBlank {c : Char} (h : isBlank c = true) : c.toLower = c := by
  by_cases hne : c.toLower = c
  · exact hne
  · have hblank := isBlank_eq_false_of (f := fun c => c.toLower != c) (by decide +kernel) (by simpa using hne)
    rw [h] at hblank
    cases hblank

/-! ### Texts -/

section Texts

variable {f : Char → Bool}

theorem takeWhile_toLower (hf : CaseBlind f) (cs : List Char) :
    (cs.map Char.toLower).takeWhile f = (cs.takeWhile f).map Char.toLower := by
  rw [List.takeWhile_map, show f ∘ Char.toLower = f from funext hf]

theorem dropWhile_toLower (hf : CaseBlind f) (cs : List Char) :
    (cs.map Char.toLower).dropWhile f = (cs.dropWhile f).map Char.toLower := by
  rw [List.dropWhile_map, show f ∘ Char.toLower = f from funext hf]

theorem beginsWith_toLower (ts : List Char) : ∀ cs, beginsWith ts (cs.map Char.toLower) = beginsWith ts cs := by
  induction ts with
  | nil => intro cs; cases cs <;> rfl
  | cons t ts ih =>
    intro cs
    cases cs with
    | nil => rfl
    | cons c cs => simp only [List.map_cons, beginsWith, caseBlind_sameLetter t c, ih cs]

theorem countLetter_toLower (l : Char) (limit : Nat) :
    ∀ cs, countLetter l limit (cs.map Char.toLower) = countLetter l limit cs := by
  induction limit with
  | zero => intro cs; cases cs <;> rfl
  | succ limit ih =>
    intro cs
    cases cs with
    | nil => rfl
    | cons c cs => simp only [List.map_cons, countLetter, caseBlind_isNumeralLetter l c, ih cs]

theorem placeLength_toLower (one five ten : Char) (cs : List Char) :
    placeLength one five ten (cs.map Char.toLower) = placeLength one five ten cs := by
  have hcount : countLetter five 1 (cs.map Char.toLower) +
      countLetter one 3 ((cs.map Char.toLower).drop (countLetter five 1 (cs.map Char.toLower))) =
      countLetter five 1 cs + countLetter one 3 (cs.drop (countLetter five 1 cs)) := by
    rw [countLetter_toLower, ← List.map_drop, countLetter_toLower]
  match cs with
  | [] => exact hcount
  | [a] => exact hcount
  | a :: b :: rest =>
    simp only [List.map_cons] at hcount ⊢
    simp only [placeLength, caseBlind_isNumeralLetter one a, caseBlind_isNumeralLetter ten b,
      caseBlind_isNumeralLetter five b, hcount]

theorem numeralLength_toLower (cs : List Char) : numeralLength (cs.map Char.toLower) = numeralLength cs := by
  simp only [numeralLength, countLetter_toLower, ← List.map_drop, placeLength_toLower]

theorem Pattern.length?_toLower (p : Pattern) (cs : List Char) :
    p.length? (cs.map Char.toLower) = p.length? cs := by
  cases p with
  | numeral => exact congrArg some (numeralLength_toLower cs)
  | blanks => simp only [Pattern.length?, takeWhile_toLower caseBlind_isBlank, List.length_map]
  | untilStop => simp only [Pattern.length?, takeWhile_toLower caseBlind_beforeStop, List.length_map]
  | throughStop =>
    simp only [Pattern.length?, takeWhile_toLower caseBlind_inLine, ← List.map_reverse,
      dropWhile_toLower caseBlind_notStop, List.isEmpty_map, List.length_map]

variable {cs ds : List Char}

theorem SameButCase.length (h : SameButCase cs ds) : cs.length = ds.length := by
  simpa using congrArg List.length h

theorem SameButCase.take (h : SameButCase cs ds) (n : Nat) : SameButCase (cs.take n) (ds.take n) := by
  simpa [SameButCase, List.map_take] using congrArg (List.take n) h

theorem SameButCase.drop (h : SameButCase cs ds) (n : Nat) : SameButCase (cs.drop n) (ds.drop n) := by
  simpa [SameButCase, List.map_drop] using congrArg (List.drop n) h

/-- What does not depend on case is the same of both texts. -/
theorem SameButCase.congr {α : Type} {g : List Char → α} (h : SameButCase cs ds)
    (hg : ∀ cs, g (cs.map Char.toLower) = g cs) : g cs = g ds := by
  rw [← hg cs, ← hg ds]
  exact congrArg g h

theorem SameButCase.beginsWith (h : SameButCase cs ds) (ts : List Char) :
    Grammar.beginsWith ts cs = Grammar.beginsWith ts ds := h.congr (beginsWith_toLower ts)

theorem SameButCase.isCutOff (h : SameButCase cs ds) (lx : Lexis) (ts : List Char) :
    Grammar.isCutOff lx ts cs = Grammar.isCutOff lx ts ds := by
  have hhead : ∀ cs : List Char, (cs.map Char.toLower).head?.any isAlphanumeric = cs.head?.any isAlphanumeric := by
    intro cs
    cases cs with
    | nil => rfl
    | cons c cs => exact caseBlind_isAlphanumeric c
  have hany : cs.head?.any isAlphanumeric = ds.head?.any isAlphanumeric :=
    h.congr (g := fun cs => cs.head?.any isAlphanumeric) hhead
  unfold Grammar.isCutOff
  rw [hany]

/-- Blanks have no case. -/
theorem SameButCase.blanks (h : SameButCase cs ds) : cs.takeWhile isBlank = ds.takeWhile isBlank := by
  have hblanks : ∀ cs : List Char, (cs.takeWhile isBlank).map Char.toLower = cs.takeWhile isBlank := by
    intro cs
    have hsame : ∀ c ∈ cs.takeWhile isBlank, c.toLower = id c := fun c hc =>
      toLower_of_isBlank (List.all_eq_true.mp List.all_takeWhile c hc)
    rw [List.map_congr_left hsame, List.map_id]
  refine h.congr fun cs => ?_
  rw [takeWhile_toLower caseBlind_isBlank, hblanks]

end Texts

/-! ### Trees -/

/-- The word in small letters. -/
def smallWord (w : String) : String := String.ofList (w.toList.map Char.toLower)

/-- The field holds a text as it was captured: a title, a name, a recollection or a numeral. -/
def Rule.capturesIn : Rule → Field → Bool
  | play, .title | act, .name | scene, .name | pop, .recallString | romanNumeral, .value => true
  | _, _ => false

/-- The whole of what the rule reads is a text as it was captured. -/
def Rule.captures : Rule → Bool
  | textBeforePunctuation => true
  | _ => false

mutual

/-- The tree with captured texts in small letters. Whether a leaf was captured depends on the field it is in;
`captured` is what is known of the tree itself. -/
def Tree.small (captured : Bool) : Tree → Tree
  | .absent => .absent
  | .word w => .word (if captured then smallWord w else w)
  | .list ts => .list (smallAll captured ts)
  | .node r span fields => .node r span (smallFields r fields)

def Tree.smallAll (captured : Bool) : List Tree → List Tree
  | [] => []
  | t :: ts => t.small captured :: smallAll captured ts

def Tree.smallFields (r : Rule) : List (Field × Tree) → List (Field × Tree)
  | [] => []
  | (f, t) :: fields => (f, t.small (r.capturesIn f)) :: smallFields r fields

end

/-- A field with captured texts in small letters. -/
def smallField (r : Rule) (x : Field × Tree) : Field × Tree := (x.1, x.2.small (r.capturesIn x.1))

theorem smallAll_eq (b : Bool) (ts : List Tree) : Tree.smallAll b ts = ts.map (Tree.small b) := by
  induction ts with
  | nil => rfl
  | cons t ts ih => simp only [Tree.smallAll, List.map_cons, ih]

theorem smallFields_eq (r : Rule) (fields : List (Field × Tree)) :
    Tree.smallFields r fields = fields.map (smallField r) := by
  induction fields with
  | nil => rfl
  | cons x fields ih => simp only [Tree.smallFields, List.map_cons, ih, smallField]

theorem small_list (b : Bool) (ts : List Tree) : (Tree.list ts).small b = .list (ts.map (Tree.small b)) := by
  rw [Tree.small, smallAll_eq]

theorem small_node (b : Bool) (r : Rule) (span : Span) (fields : List (Field × Tree)) :
    (Tree.node r span fields).small b = .node r span (fields.map (smallField r)) := by
  rw [Tree.small, smallFields_eq]

theorem small_merge (b : Bool) (ts : List Tree) :
    (Tree.merge ts).small b = Tree.merge (ts.map (Tree.small b)) := by
  match ts with
  | [] => rfl
  | [t] => rfl
  | t :: u :: ts => exact small_list b (t :: u :: ts)

theorem lookup_smallField (r : Rule) (f : Field) (fields : List (Field × Tree)) :
    (fields.map (smallField r)).lookup f = (fields.lookup f).map (Tree.small (r.capturesIn f)) := by
  induction fields with
  | nil => rfl
  | cons x fields ih =>
    rw [List.map_cons, List.lookup_cons, List.lookup_cons]
    by_cases hf : f = x.1
    · subst hf
      simp [smallField]
    · have hne : (f == x.1) = false := beq_false_of_ne hf
      simp [smallField, hne, ih]

/-! ### Which texts are captured -/

/-- No captured text is among the trees that the phrase gives in order. Blanks have no case. -/
def Phrase.isPlain : Phrase → Bool
  | empty | token _ | endOfText | notAhead _ => true
  | pattern p => p == .blanks
  | call r => !r.captures
  | seq p q | alt p q => p.isPlain && q.isPlain
  | expect _ p | opt p | many p | many1 p | label _ p | gather p => p.isPlain

/-- In the fields that the phrase gives to a rule, captured texts are where the rule has them, and none are
collected. -/
def Phrase.isOrderly (r : Rule) : Phrase → Bool
  | empty | token _ | endOfText | pattern _ | call _ => true
  | seq p q | alt p q => p.isOrderly r && q.isOrderly r
  | expect _ p | opt p | many p | many1 p | notAhead p => p.isOrderly r
  | label f p => (p.isPlain || r.capturesIn f) && p.isOrderly r
  | gather p => p.isPlain && p.isOrderly r

/-- Captured texts are where the rules have them, and the trees of a rule without fields hold none, unless the rule
captures the whole of what it reads. -/
theorem bodies_checked : (Rule.all.all fun r => r.body.isOrderly r &&
    (!r.fields.isEmpty || r.captures || r.body.isPlain)) = true := by decide +kernel

theorem isOrderly_body (r : Rule) : r.body.isOrderly r = true := by
  have hall := List.all_eq_true.mp bodies_checked r r.mem_all
  exact (Bool.and_eq_true_iff.mp hall).1

theorem isPlain_body (r : Rule) (hfields : r.fields = []) (hcaptures : r.captures = false) :
    r.body.isPlain = true := by
  have hall := List.all_eq_true.mp bodies_checked r r.mem_all
  simpa [hfields, hcaptures] using (Bool.and_eq_true_iff.mp hall).2

/-- Both yields are the same but for the case of captured texts. -/
structure Yield.SameButCase (r : Rule) (plain : Bool) (y z : Yield) : Prop where
  items : ∀ b, (plain = false → b = true) → y.items.map (Tree.small b) = z.items.map (Tree.small b)
  fields : y.fields.map (smallField r) = z.fields.map (smallField r)
  gathered : ∀ b, y.gathered.map (Tree.small b) = z.gathered.map (Tree.small b)

namespace Yield.SameButCase

variable {r : Rule} {plain plain' : Bool} {y y' z z' : Yield}

theorem refl (r : Rule) (plain : Bool) (y : Yield) : y.SameButCase r plain y := ⟨fun _ _ => rfl, rfl, fun _ => rfl⟩

theorem one {t u : Tree} (h : ∀ b, (plain = false → b = true) → t.small b = u.small b) :
    (Yield.one t).SameButCase r plain (Yield.one u) :=
  ⟨fun b hb => congrArg (· :: []) (h b hb), rfl, fun _ => rfl⟩

theorem append (h : y.SameButCase r plain z) (h' : y'.SameButCase r plain' z') :
    (y.append y').SameButCase r (plain && plain') (z.append z') := by
  refine ⟨fun b hb => ?_, ?_, fun b => ?_⟩
  · simp only [Yield.append, List.map_append]
    rw [h.items b fun hp => hb (by simp [hp]), h'.items b fun hp => hb (by simp [hp])]
  · simp only [Yield.append, List.map_append, h.fields, h'.fields]
  · simp only [Yield.append, List.map_append, h.gathered b, h'.gathered b]

/-- A phrase with captured texts may be one of several. -/
theorem weaken (h : y.SameButCase r plain z) (hle : plain' = true → plain = true) : y.SameButCase r plain' z := by
  refine ⟨fun b hb => h.items b fun hp => hb ?_, h.fields, h.gathered⟩
  cases plain' with
  | false => rfl
  | true => rw [hle rfl] at hp; cases hp

theorem tree (h : y.SameButCase r plain z) (b : Bool) (hb : plain = false → b = true) :
    y.tree.small b = z.tree.small b := by
  unfold Yield.tree
  rw [small_merge, small_merge, h.items b hb]

theorem repeated {ys zs : List Yield} (h : List.Forall₂ (Yield.SameButCase r plain) ys zs) :
    (Yield.repeated ys).SameButCase r plain (Yield.repeated zs) := by
  have hparts :
      (∀ b, (plain = false → b = true) → (ys.map Yield.tree).map (Tree.small b) =
        (zs.map Yield.tree).map (Tree.small b)) ∧
      (ys.flatMap Yield.fields).map (smallField r) = (zs.flatMap Yield.fields).map (smallField r) ∧
      ∀ b, (ys.flatMap Yield.gathered).map (Tree.small b) = (zs.flatMap Yield.gathered).map (Tree.small b) := by
    induction h with
    | nil => exact ⟨fun _ _ => rfl, rfl, fun _ => rfl⟩
    | cons hyz _ ih =>
      obtain ⟨htrees, hfields, hgathered⟩ := ih
      refine ⟨fun b hb => ?_, ?_, fun b => ?_⟩
      · simp only [List.map_cons, hyz.tree b hb, htrees b hb]
      · simp only [List.flatMap_cons, List.map_append, hyz.fields, hfields]
      · simp only [List.flatMap_cons, List.map_append, hyz.gathered b, hgathered b]
  refine ⟨fun b hb => ?_, hparts.2.1, hparts.2.2⟩
  simp only [Yield.repeated, List.map_cons, List.map_nil, small_list, hparts.1 b hb]

theorem ruleTree (h : y.SameButCase r plain z) (hplain : r.fields = [] → r.captures = false → plain = true)
    (span : Span) (b : Bool) (hb : r.captures = true → b = true) :
    (y.ruleTree r span).small b = (z.ruleTree r span).small b := by
  have hempty : y.gathered.isEmpty = z.gathered.isEmpty := by
    rw [← List.isEmpty_map (f := Tree.small b), h.gathered b, List.isEmpty_map]
  have hlookup : ∀ f, ((y.fields.lookup f).getD .absent).small (r.capturesIn f) =
      ((z.fields.lookup f).getD .absent).small (r.capturesIn f) := by
    intro f
    have hmap := congrArg (List.lookup f) h.fields
    rw [lookup_smallField, lookup_smallField] at hmap
    cases hy : y.fields.lookup f <;> cases hz : z.fields.lookup f <;> simp_all
  unfold Yield.ruleTree
  split
  · next hfields =>
    rw [hempty]
    split
    · apply h.tree b
      intro hp
      by_cases hc : r.captures = true
      · exact hb hc
      · rw [hplain hfields (Bool.eq_false_iff.mpr hc)] at hp
        cases hp
    · rw [small_list, small_list, h.gathered b]
  · simp only [small_node, List.map_map]
    congr 1
    exact List.map_congr_left fun f _ => congrArg (f, ·) (hlookup f)

end Yield.SameButCase

/-! ### Reading -/

/-- Both cursors have come as far, in texts that are the same but for case. -/
structure Cursor.SameButCase (c d : Cursor) : Prop where
  pos : c.pos = d.pos
  rest : Grammar.SameButCase c.rest d.rest

theorem Cursor.SameButCase.advance {c d : Cursor} (h : c.SameButCase d) (n : Nat) :
    (c.advance n).SameButCase (d.advance n) :=
  ⟨congrArg (· + n) h.pos, h.rest.drop n⟩

theorem Cursor.SameButCase.skip {lx : Lexis} {c d : Cursor} (h : c.SameButCase d) (hlx : CaseBlind lx.isSkipped) :
    (c.skip lx).SameButCase (d.skip lx) := by
  have hlength : (c.rest.takeWhile lx.isSkipped).length = (d.rest.takeWhile lx.isSkipped).length := by
    refine h.rest.congr (g := fun cs => (cs.takeWhile lx.isSkipped).length) fun cs => ?_
    rw [takeWhile_toLower hlx, List.length_map]
  unfold Cursor.skip
  rw [hlength]
  exact h.advance _

/-- Both readings fail for the same reason, or both succeed with results as `R` says and have come as far. -/
inductive Reading.SameButCase {α β : Type} (R : α → β → Prop) : Reading α → Reading β → Prop
  | done {a : α} {b : β} {c d : Cursor} (seen : Option Failure) : R a b → c.SameButCase d →
      SameButCase R (.done a c seen) (.done b d seen)
  | failed (e : Failure) (seen : Option Failure) : SameButCase R (.failed e seen) (.failed e seen)

namespace Reading.SameButCase

variable {α β α' β' : Type} {R : α → β → Prop} {S : α' → β' → Prop} {x : Reading α} {y : Reading β}

theorem andThen {f : α → Reader α'} {g : β → Reader β'} (h : x.SameButCase R y)
    (hfg : ∀ a b c d seen, R a b → c.SameButCase d → (f a c seen).SameButCase S (g b d seen)) :
    (x.andThen f).SameButCase S (y.andThen g) := by
  cases h with
  | done seen hR hc => exact hfg _ _ _ _ seen hR hc
  | failed e seen => exact .failed e seen

theorem orElse {f : Option Failure → Reading α} {g : Option Failure → Reading β} (h : x.SameButCase R y)
    (hfg : ∀ seen, (f seen).SameButCase R (g seen)) : (x.orElse f).SameButCase R (y.orElse g) := by
  cases h with
  | done seen hR hc => exact .done seen hR hc
  | failed e seen => exact hfg seen

theorem imp {S : α → β → Prop} (h : x.SameButCase R y) (hRS : ∀ a b, R a b → S a b) : x.SameButCase S y := by
  cases h with
  | done seen hR hc => exact .done seen (hRS _ _ hR) hc
  | failed e seen => exact .failed e seen

end Reading.SameButCase

section Reading

variable {lx : Lexis} {stack : List Rule} {r : Rule} {plain : Bool}

theorem sameButCase_readMany {p : Reader Yield}
    (hp : ∀ {c d} seen, c.SameButCase d → (p c seen).SameButCase (Yield.SameButCase r plain) (p d seen))
    (limit : Nat) :
    ∀ {c d} seen, c.SameButCase d → (readMany p stack limit c seen).SameButCase
      (List.Forall₂ (Yield.SameButCase r plain)) (readMany p stack limit d seen) := by
  induction limit with
  | zero => exact fun seen h => .done seen .nil h
  | succ limit ih =>
    intro c d seen h
    have hfirst := hp seen h
    unfold readMany
    generalize p c seen = x at hfirst ⊢
    generalize p d seen = y at hfirst ⊢
    cases hfirst with
    | failed e seen' => exact .done seen' .nil h
    | @done u v c' d' seen' huv hc =>
      dsimp only
      rw [← h.pos, ← hc.pos]
      split
      · exact .failed _ seen'
      · have hrest := ih seen' hc
        generalize readMany p stack limit c' seen' = x at hrest ⊢
        generalize readMany p stack limit d' seen' = y at hrest ⊢
        cases hrest with
        | failed e seen'' => exact .failed e seen''
        | done seen'' hus hc' => exact .done seen'' (.cons huv hus) hc'

/-- A phrase of a rule reads both texts alike, if the rules that it calls do. By induction on the phrase. -/
theorem sameButCase_phrase {call : List Rule → Rule → Reader Tree} (hlx : CaseBlind lx.isSkipped)
    (hcall : ∀ stack r {c d} seen, c.SameButCase d → (call stack r c seen).SameButCase
      (fun t u => ∀ b, (r.captures = true → b = true) → t.small b = u.small b) (call stack r d seen))
      (p : Phrase) :
    p.isOrderly r = true → ∀ {c d} seen, c.SameButCase d →
      (p.read lx call stack c seen).SameButCase (Yield.SameButCase r p.isPlain) (p.read lx call stack d seen) := by
  induction p with
  | empty => exact fun _ _ _ seen h => .done seen (.refl r _ _) h
  | token letters =>
    intro _ c d seen h
    have hskip := h.skip hlx
    have hdrop := hskip.rest.drop letters.length
    rw [read_token, read_token, ← hskip.pos, hskip.rest.beginsWith, hdrop.isCutOff]
    split
    · exact .done seen (.refl r _ _) ⟨rfl, hdrop⟩
    · exact .failed _ seen
  | pattern p =>
    intro _ c d seen h
    have hlength : p.length? c.rest = p.length? d.rest := h.rest.congr p.length?_toLower
    rw [read_pattern, read_pattern, hlength, ← h.pos]
    cases hn : p.length? d.rest with
    | none => exact .failed _ seen
    | some n =>
      refine .done seen (.one fun b hb => ?_) (h.advance n)
      by_cases hblanks : p = .blanks
      · subst hblanks
        have hlength' : (c.rest.takeWhile isBlank).length = n := Option.some.inj (hlength.trans hn)
        have hlength'' : (d.rest.takeWhile isBlank).length = n := Option.some.inj hn
        have hsame : c.rest.take n = d.rest.take n := calc
          c.rest.take n = c.rest.takeWhile isBlank := by
            rw [← hlength', ← List.prefix_iff_eq_take.mp (List.takeWhile_prefix isBlank)]
          _ = d.rest.takeWhile isBlank := h.rest.blanks
          _ = d.rest.take n := by
            rw [← hlength'', ← List.prefix_iff_eq_take.mp (List.takeWhile_prefix isBlank)]
        rw [hsame]
      · have hb : b = true := hb (by simpa [Phrase.isPlain] using hblanks)
        simp only [hb, Tree.small, smallWord, String.toList_ofList, if_true]
        rw [show (c.rest.take n).map Char.toLower = _ from h.rest.take n]
  | endOfText =>
    intro _ c d seen h
    have hskip := h.skip hlx
    have hempty : (c.skip lx).rest.isEmpty = (d.skip lx).rest.isEmpty :=
      hskip.rest.congr fun cs => List.isEmpty_map
    rw [read_endOfText, read_endOfText, hempty, ← hskip.pos]
    split
    · exact .done seen (.refl r _ _) hskip
    · exact .failed _ seen
  | call r' =>
    intro _ c d seen h
    rw [read_call, read_call]
    refine (hcall stack r' seen h).andThen fun t u c' d' seen' htu hc =>
      .done seen' (.one fun b hb => htu b fun hr => ?_) hc
    exact hb (by simp [Phrase.isPlain, hr])
  | seq p q ihp ihq =>
    intro horderly c d seen h
    obtain ⟨hp, hq⟩ := Bool.and_eq_true_iff.mp horderly
    rw [read_seq, read_seq]
    refine (ihp hp seen h).andThen fun y z c' d' seen' hyz hc => ?_
    exact (ihq hq seen' hc).andThen fun y' z' c'' d'' seen'' hyz' hc' => .done seen'' (hyz.append hyz') hc'
  | alt p q ihp ihq =>
    intro horderly c d seen h
    obtain ⟨hp, hq⟩ := Bool.and_eq_true_iff.mp horderly
    rw [read_alt, read_alt]
    refine ((ihp hp seen h).imp fun y z hyz => hyz.weaken ?_).orElse fun seen' =>
      (ihq hq seen' h).imp fun y z hyz => hyz.weaken ?_
    · exact fun hplain => (Bool.and_eq_true_iff.mp hplain).1
    · exact fun hplain => (Bool.and_eq_true_iff.mp hplain).2
  | expect expected p ih =>
    intro horderly c d seen h
    rw [read_expect, read_expect, ← h.pos]
    exact (ih horderly seen h).orElse fun seen' => .failed _ seen'
  | opt p ih =>
    intro horderly c d seen h
    rw [read_opt, read_opt]
    exact (ih horderly seen h).orElse fun seen' => .done seen' (.refl r _ _) h
  | many p ih =>
    intro horderly c d seen h
    rw [read_many, read_many, h.rest.length]
    refine (sameButCase_readMany (ih horderly) _ seen h).andThen fun ys zs c' d' seen' hyz hc => ?_
    exact .done seen' (.repeated hyz) hc
  | many1 p ih =>
    intro horderly c d seen h
    rw [read_many1, read_many1]
    refine (ih horderly seen h).andThen fun y z c' d' seen' hyz hc => ?_
    rw [hc.rest.length]
    refine (sameButCase_readMany (ih horderly) _ seen' hc).andThen fun ys zs c'' d'' seen'' hyzs hc' => ?_
    exact .done seen'' (.repeated (.cons hyz hyzs)) hc'
  | notAhead p ih =>
    intro horderly c d seen h
    have hahead := ih horderly seen h
    rw [read_notAhead, read_notAhead, ← h.pos]
    generalize p.read lx call stack c seen = x at hahead ⊢
    generalize p.read lx call stack d seen = y at hahead ⊢
    cases hahead with
    | done seen' _ _ => exact .failed _ seen'
    | failed e seen' => exact .done seen' (.refl r _ _) h
  | label f p ih =>
    intro horderly c d seen h
    obtain ⟨hf, hp⟩ := Bool.and_eq_true_iff.mp horderly
    rw [read_label, read_label]
    refine (ih hp seen h).andThen fun y z c' d' seen' hyz hc => .done seen' ⟨hyz.items, ?_, hyz.gathered⟩ hc
    have htree : y.tree.small (r.capturesIn f) = z.tree.small (r.capturesIn f) :=
      hyz.tree _ fun hplain => by simpa [hplain] using hf
    simp only [List.map_append, hyz.fields, List.map_cons, List.map_nil, smallField, htree]
  | gather p ih =>
    intro horderly c d seen h
    obtain ⟨hf, hp⟩ := Bool.and_eq_true_iff.mp horderly
    rw [read_gather, read_gather]
    refine (ih hp seen h).andThen fun y z c' d' seen' hyz hc => .done seen' ⟨hyz.items, hyz.fields, fun b => ?_⟩ hc
    have htree : y.tree.small b = z.tree.small b := hyz.tree b fun hplain => by simp [hplain] at hf
    simp only [List.map_append, hyz.gathered b, List.map_cons, List.map_nil, htree]

/-- A rule reads both texts alike. By induction on how deeply rules may be nested. -/
theorem sameButCase_rule (hlx : CaseBlind lx.isSkipped) (depth : Nat) : ∀ stack r {c d} seen, c.SameButCase d →
    (Rule.read lx depth stack r c seen).SameButCase
      (fun t u => ∀ b, (r.captures = true → b = true) → t.small b = u.small b)
        (Rule.read lx depth stack r d seen) := by
  induction depth with
  | zero =>
    intro stack r c d seen h
    unfold Rule.read
    rw [h.pos]
    exact .failed _ seen
  | succ depth ih =>
    intro stack r c d seen h
    have hbody : (r.body.read lx (Rule.read lx depth) (r :: stack) (c.skip lx) seen).SameButCase
        (Yield.SameButCase r r.body.isPlain) (r.body.read lx (Rule.read lx depth) (r :: stack) (d.skip lx) seen) :=
      sameButCase_phrase hlx ih r.body (isOrderly_body r) seen (h.skip hlx)
    rw [Rule.read, Rule.read]
    generalize r.body.read lx (Rule.read lx depth) (r :: stack) (c.skip lx) seen = x at hbody ⊢
    generalize r.body.read lx (Rule.read lx depth) (r :: stack) (d.skip lx) seen = y at hbody ⊢
    cases hbody with
    | done seen' hyz hc =>
      refine .done seen' (fun b hb => ?_) hc
      rw [← h.pos, ← hc.pos]
      exact hyz.ruleTree (isPlain_body r) _ b hb
    | failed e seen' => exact .failed e _

end Reading

/-- From the beginning of both texts a rule reads alike. -/
theorem sameButCase_start (r : Rule) {text text' : List Char} (h : SameButCase text text') :
    (r.read .usual (callDepth text) [] (Cursor.start text) none).SameButCase
      (fun t u => ∀ b, (r.captures = true → b = true) → t.small b = u.small b)
      (r.read .usual (callDepth text') [] (Cursor.start text') none) := by
  have hblind : CaseBlind Lexis.usual.isSkipped := caseBlind_isBlank
  rw [show callDepth text' = callDepth text by unfold callDepth; rw [h.length]]
  exact sameButCase_rule hblind (callDepth text) [] r none ⟨rfl, h⟩

/-- **Parsing ignores letter case.** Let two texts differ at most in the case of letters. Each rule fails on both,
for the same reason and at the same position in the same rules. Or it reads as many characters of both, and gives
trees that are the same once captured texts are put in small letters: the same rules, fields, spans and words. -/
theorem parse_ignores_case (r : Rule) {text text' : List Char}
    (h : text.map Char.toLower = text'.map Char.toLower) :
    (∃ e, readRule .usual r text = .error e ∧ readRule .usual r text' = .error e) ∨
      ∃ t t' c c', readRule .usual r text = .ok (t, c) ∧ readRule .usual r text' = .ok (t', c') ∧ c.pos = c'.pos ∧
        t.small r.captures = t'.small r.captures := by
  have hread := sameButCase_start r h
  unfold readRule
  generalize r.read .usual (callDepth text) [] (Cursor.start text) none = x at hread ⊢
  generalize r.read .usual (callDepth text') [] (Cursor.start text') none = y at hread ⊢
  cases hread with
  | failed e seen => exact .inl ⟨furthest seen e, rfl, rfl⟩
  | done seen htrees hc => exact .inr ⟨_, _, _, _, rfl, rfl, hc.pos, htrees _ id⟩

/-- The same jump, with its words and its numeral in either case. -/
theorem parse_ignores_case_jump :
    "Let us return to Scene iV!".toList.map Char.toLower = "LET US RETURN to scene Iv!".toList.map Char.toLower ∧
      ∃ t t' c c', readRule .usual .goto "Let us return to Scene iV!".toList = .ok (t, c) ∧
        readRule .usual .goto "LET US RETURN to scene Iv!".toList = .ok (t', c') ∧ c.pos = c'.pos ∧
        t.small false = t'.small false := by
  have hcase : "Let us return to Scene iV!".toList.map Char.toLower =
      "LET US RETURN to scene Iv!".toList.map Char.toLower := by decide
  have hreads : (readRule .usual .goto "Let us return to Scene iV!".toList).isOk = true := by decide +kernel
  obtain ⟨e, he, -⟩ | hboth := parse_ignores_case .goto hcase
  · rw [he] at hreads
    cases hreads
  · exact ⟨hcase, hboth⟩

end Playhouse.Grammar
