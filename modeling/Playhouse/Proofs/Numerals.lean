import Playhouse.Grammar.Reading

/-!
# Playhouse.Proofs.Numerals — a numeral is captured whole

`IsNumeral` says which texts are numerals: up to four times *M*, then hundreds, tens and ones, each place written
with the letters for one, five and ten. Where a blank follows, `numeralLength` is the length of the numeral.
-/

namespace Playhouse.Grammar

open Text

/-! ### Numerals -/

/-- The letters of numerals. -/
def numeralLetters : List Char := ['M', 'D', 'C', 'L', 'X', 'V', 'I']

/-- At most `limit` times the same letter. -/
def Repeats (letter : Char) (limit : Nat) (s : List Char) : Prop :=
  s.length ≤ limit ∧ ∀ c ∈ s, isNumeralLetter letter c = true

/-- One decimal place, written with the letters for one, five and ten. -/
inductive IsPlace (one five ten : Char) : List Char → Prop
  | less {a b : Char} (ha : isNumeralLetter one a = true)
      (hb : isNumeralLetter ten b = true ∨ isNumeralLetter five b = true) : IsPlace one five ten [a, b]
  | sum {fives ones : List Char} (hf : Repeats five 1 fives) (ho : Repeats one 3 ones) :
      IsPlace one five ten (fives ++ ones)

/-- A Roman numeral below 5000, possibly empty. -/
def IsNumeral (s : List Char) : Prop :=
  ∃ m c x i, Repeats 'M' 4 m ∧ IsPlace 'C' 'D' 'M' c ∧ IsPlace 'X' 'L' 'C' x ∧ IsPlace 'I' 'V' 'X' i ∧
    s = m ++ (c ++ (x ++ i))

/-! ### Letters -/

section Letters

variable {l k c : Char}

theorem numeralLetter_cases (h : isNumeralLetter l c = true) :
    lowerCase l = lowerCase c ∨ l = 'I' ∧ (c = 'İ' ∨ c = 'ı') := by
  simpa [isNumeralLetter, sameLetter] using h

-- The checks below go through lists, since a statement about all characters would be decided for each of them.

/-- Different letters differ in any case, and none of them is a dotted or dotless `i`. -/
theorem lowerCase_letters : (numeralLetters.all fun l =>
    (numeralLetters.all fun k => lowerCase l != lowerCase k || l == k) &&
      lowerCase l != lowerCase 'İ' && lowerCase l != lowerCase 'ı') = true := by decide +kernel

/-- No character counts as two letters. -/
theorem numeralLetter_unique (hl : l ∈ numeralLetters) (hk : k ∈ numeralLetters) (h : isNumeralLetter l c = true)
    (h' : isNumeralLetter k c = true) : l = k := by
  have hletters := lowerCase_letters
  simp only [List.all_eq_true, Bool.and_eq_true, Bool.or_eq_true, bne_iff_ne, beq_iff_eq] at hletters
  have hdotted : ∀ l ∈ numeralLetters, c = 'İ' ∨ c = 'ı' → lowerCase l ≠ lowerCase c := by
    rintro l hl (rfl | rfl)
    · exact (hletters l hl).1.2
    · exact (hletters l hl).2
  obtain h | ⟨rfl, hc⟩ := numeralLetter_cases h
  · obtain h' | ⟨rfl, hc⟩ := numeralLetter_cases h'
    · exact ((hletters l hl).1.1 k hk).resolve_left fun hne => hne (h.trans h'.symm)
    · exact absurd h (hdotted l hl hc)
  · obtain h' | ⟨rfl, -⟩ := numeralLetter_cases h'
    · exact absurd h' (hdotted k hk hc)
    · rfl

theorem not_blank_of_numeralLetter (hl : l ∈ numeralLetters) (h : isNumeralLetter l c = true) :
    isBlank c = false :=
  isBlank_eq_false_of (f := fun c => numeralLetters.any fun l => isNumeralLetter l c) (by decide +kernel)
    (List.any_eq_true.mpr ⟨l, hl, h⟩)

end Letters

/-! ### Counting letters -/

/-- The text does not begin with the letter. -/
def Lacks (l : Char) (text : List Char) : Prop := ∀ c ∈ text.head?, isNumeralLetter l c = false

section Counting

variable {l k one five ten : Char} {limit : Nat} {s rest : List Char}

theorem countLetter_of_lacks (h : Lacks l rest) (limit : Nat) : countLetter l limit rest = 0 := by
  cases limit with
  | zero => cases rest <;> rfl
  | succ limit =>
    cases rest with
    | nil => rfl
    | cons c rest => rw [countLetter, h c rfl, if_neg (by decide)]

theorem countLetter_append (h : Repeats l limit s) (hrest : Lacks l rest) :
    countLetter l limit (s ++ rest) = s.length := by
  induction s generalizing limit with
  | nil => exact countLetter_of_lacks hrest limit
  | cons c s ih =>
    obtain ⟨hlength, hall⟩ := h
    cases limit with
    | zero => cases hlength
    | succ limit =>
      have hs : Repeats l limit s :=
        ⟨Nat.le_of_succ_le_succ hlength, fun d hd => hall d (List.mem_cons_of_mem c hd)⟩
      rw [List.cons_append, countLetter, if_pos (hall c List.mem_cons_self), ih hs, List.length_cons]

theorem lacks_of_letter {c : Char} (hl : l ∈ numeralLetters) (hk : k ∈ numeralLetters) (hne : l ≠ k)
    (h : isNumeralLetter k c = true) : isNumeralLetter l c = false :=
  Bool.eq_false_iff.mpr fun h' => hne (numeralLetter_unique hl hk h' h)

theorem lacks_of_repeats (hl : l ∈ numeralLetters) (hk : k ∈ numeralLetters) (hne : l ≠ k) (h : Repeats k limit s)
    (hrest : Lacks l rest) : Lacks l (s ++ rest) := by
  cases s with
  | nil => exact hrest
  | cons c s =>
    rintro _ ⟨⟩
    exact lacks_of_letter hl hk hne (h.2 c List.mem_cons_self)

theorem lacks_of_place (hl : l ∈ numeralLetters) (hone : one ∈ numeralLetters) (hfive : five ∈ numeralLetters)
    (hne : l ≠ one ∧ l ≠ five) (h : IsPlace one five ten s) (hrest : Lacks l rest) : Lacks l (s ++ rest) := by
  cases h with
  | less ha hb =>
    rintro _ ⟨⟩
    exact lacks_of_letter hl hone hne.1 ha
  | sum hf ho =>
    rw [List.append_assoc]
    exact lacks_of_repeats hl hfive hne.2 hf (lacks_of_repeats hl hone hne.1 ho hrest)

/-- Where no place of two letters begins with the letter for one, letters are counted. -/
theorem placeLength_of_counts (h : ∀ a b t, s = a :: b :: t → isNumeralLetter one a = true →
      isNumeralLetter ten b = false ∧ isNumeralLetter five b = false) :
    placeLength one five ten s = countLetter five 1 s + countLetter one 3 (s.drop (countLetter five 1 s)) := by
  unfold placeLength
  split
  · next a b t =>
    refine if_neg fun hc => ?_
    obtain ⟨ha, hb⟩ := Bool.and_eq_true_iff.mp hc
    obtain ⟨hten, hfive⟩ := h a b t rfl ha
    rw [hten, hfive] at hb
    cases hb
  · rfl

/-- A place is captured whole, where what follows does not begin with one of its letters. -/
theorem placeLength_append (hletters : [one, five, ten] ⊆ numeralLetters) (hdistinct : five ≠ one ∧ ten ≠ one)
    (h : IsPlace one five ten s) (hrest : ∀ l ∈ [one, five, ten], Lacks l rest) :
    placeLength one five ten (s ++ rest) = s.length := by
  have hone : one ∈ numeralLetters := hletters (by simp)
  have hfive : five ∈ numeralLetters := hletters (by simp)
  have hten : ten ∈ numeralLetters := hletters (by simp)
  cases h with
  | @less a b ha hb =>
    refine if_pos ?_
    rw [ha, Bool.true_and, Bool.or_eq_true]
    exact hb
  | @sum fives ones hf ho =>
    have honerest : Lacks one rest := hrest one (by simp)
    have hfiverest : Lacks five (ones ++ rest) := lacks_of_repeats hfive hone hdistinct.1 ho (hrest five (by simp))
    rw [List.append_assoc, placeLength_of_counts, countLetter_append hf hfiverest, List.drop_left,
      countLetter_append ho honerest, List.length_append]
    intro a b t ht ha
    cases fives with
    | cons f fives =>
      obtain ⟨rfl, -⟩ := List.cons_eq_cons.mp ht
      rw [lacks_of_letter hone hfive hdistinct.1.symm (hf.2 f List.mem_cons_self)] at ha
      cases ha
    | nil =>
      cases ones with
      | nil =>
        have hlacks := honerest a (by rw [show rest = a :: b :: t from ht]; rfl)
        rw [ha] at hlacks
        cases hlacks
      | cons o ones =>
        obtain ⟨rfl, hcons⟩ := List.cons_eq_cons.mp (show o :: (ones ++ rest) = a :: b :: t from ht)
        have hones : Repeats one 3 ones :=
          ⟨Nat.le_of_succ_le ho.1, fun d hd => ho.2 d (List.mem_cons_of_mem o hd)⟩
        have hb : b ∈ (ones ++ rest).head? := by rw [hcons]; rfl
        exact ⟨lacks_of_repeats hten hone hdistinct.2 hones (hrest ten (by simp)) b hb,
          lacks_of_repeats hfive hone hdistinct.1 hones (hrest five (by simp)) b hb⟩

end Counting

/-! ### Whole numerals -/

theorem lacks_blank {l : Char} (hl : l ∈ numeralLetters) (rest : List Char) : Lacks l (' ' :: rest) := by
  rintro _ ⟨⟩
  refine Bool.eq_false_iff.mpr fun h => ?_
  cases not_blank_of_numeralLetter hl h

/-- After a place there are the letters of lower places, or what follows the numeral. -/
theorem lacks_after_place {one five ten : Char} {s rest : List Char} (ls : List Char)
    (hls : ∀ l ∈ ls, l ∈ numeralLetters ∧ l ≠ one ∧ l ≠ five) (hletters : [one, five] ⊆ numeralLetters)
    (h : IsPlace one five ten s) (hrest : ∀ l ∈ ls, Lacks l rest) : ∀ l ∈ ls, Lacks l (s ++ rest) := by
  intro l hl
  obtain ⟨hmem, hne⟩ := hls l hl
  exact lacks_of_place hmem (hletters (by simp)) (hletters (by simp)) hne h (hrest l hl)

/-- A numeral that no letter of numerals follows is captured whole. -/
theorem numeralLength_append {s rest : List Char} (h : IsNumeral s) (hrest : ∀ l ∈ numeralLetters, Lacks l rest) :
    numeralLength (s ++ rest) = s.length := by
  obtain ⟨m, c, x, i, hm, hc, hx, hi, rfl⟩ := h
  have hones : ∀ l ∈ numeralLetters.take 5, Lacks l (i ++ rest) :=
    lacks_after_place _ (by simp [numeralLetters]) (by simp [numeralLetters]) hi fun l hl =>
      hrest l (List.mem_of_mem_take hl)
  have htens : ∀ l ∈ numeralLetters.take 3, Lacks l (x ++ (i ++ rest)) :=
    lacks_after_place _ (by simp [numeralLetters]) (by simp [numeralLetters]) hx
      fun l hl => hones l (List.mem_of_mem_take (i := 3) hl)
  have hhundreds : ∀ l ∈ numeralLetters.take 1, Lacks l (c ++ (x ++ (i ++ rest))) :=
    lacks_after_place _ (by simp [numeralLetters]) (by simp [numeralLetters]) hc
      fun l hl => htens l (List.mem_of_mem_take (i := 1) hl)
  have hplace_c := placeLength_append (by simp [numeralLetters]) (by simp) hc fun l hl =>
    htens l ((by simp [numeralLetters] : ['C', 'D', 'M'] ⊆ numeralLetters.take 3) hl)
  have hplace_x := placeLength_append (by simp [numeralLetters]) (by simp) hx fun l hl =>
    hones l ((by simp [numeralLetters] : ['X', 'L', 'C'] ⊆ numeralLetters.take 5) hl)
  have hplace_i := placeLength_append (by simp [numeralLetters]) (by simp) hi fun l hl =>
    hrest l ((by simp [numeralLetters] : ['I', 'V', 'X'] ⊆ numeralLetters) hl)
  have htext : m ++ (c ++ (x ++ i)) ++ rest = m ++ (c ++ (x ++ (i ++ rest))) := by
    simp only [List.append_assoc]
  rw [htext, numeralLength]
  simp only [countLetter_append hm (hhundreds 'M' List.mem_cons_self), ← List.drop_drop, List.drop_left,
    hplace_c, hplace_x, hplace_i, List.length_append]
  omega

/-- A place is written with its letters. -/
theorem letter_of_place {one five ten : Char} {s : List Char} (h : IsPlace one five ten s) {a : Char}
    (ha : a ∈ s) :
    ∃ l ∈ [one, five, ten], isNumeralLetter l a = true := by
  cases h with
  | @less b d hb hd =>
    obtain rfl | rfl : a = b ∨ a = d := by simpa using ha
    · exact ⟨one, by simp, hb⟩
    · obtain hd | hd := hd
      · exact ⟨ten, by simp, hd⟩
      · exact ⟨five, by simp, hd⟩
  | sum hf ho =>
    obtain ha | ha := List.mem_append.mp ha
    · exact ⟨five, by simp, hf.2 a ha⟩
    · exact ⟨one, by simp, ho.2 a ha⟩

/-- A numeral is written with the letters of numerals. -/
theorem letter_of_numeral {s : List Char} (h : IsNumeral s) {a : Char} (ha : a ∈ s) :
    ∃ l ∈ numeralLetters, isNumeralLetter l a = true := by
  obtain ⟨m, c, x, i, hm, hc, hx, hi, rfl⟩ := h
  have hsub : ∀ {ls : List Char}, ls ⊆ numeralLetters → (∃ l ∈ ls, isNumeralLetter l a = true) →
      ∃ l ∈ numeralLetters, isNumeralLetter l a = true := fun hls ⟨l, hl, h⟩ => ⟨l, hls hl, h⟩
  simp only [List.mem_append] at ha
  obtain ha | ha | ha | ha := ha
  · exact ⟨'M', by simp [numeralLetters], hm.2 a ha⟩
  · exact hsub (by simp [numeralLetters]) (letter_of_place hc ha)
  · exact hsub (by simp [numeralLetters]) (letter_of_place hx ha)
  · exact hsub (by simp [numeralLetters]) (letter_of_place hi ha)

/-- There is no blank in a numeral. -/
theorem not_blank_of_numeral {s : List Char} (h : IsNumeral s) {a : Char} (ha : a ∈ s) : isBlank a = false := by
  obtain ⟨l, hl, hletter⟩ := letter_of_numeral h ha
  exact not_blank_of_numeralLetter hl hletter

/-! ### What is captured -/

theorem repeats_take {l : Char} (limit : Nat) :
    ∀ cs : List Char, Repeats l limit (cs.take (countLetter l limit cs)) := by
  induction limit with
  | zero => exact fun cs => ⟨by simp [countLetter], by simp [countLetter]⟩
  | succ limit ih =>
    intro cs
    cases cs with
    | nil => exact ⟨by simp, by simp⟩
    | cons c cs =>
      rw [countLetter]
      split
      · next hc =>
        obtain ⟨hlength, hall⟩ := ih cs
        rw [List.take_succ_cons]
        exact ⟨Nat.succ_le_succ hlength, List.forall_mem_cons.mpr ⟨hc, hall⟩⟩
      · exact ⟨by simp, by simp⟩

theorem isPlace_take {one five ten : Char} (cs : List Char) :
    IsPlace one five ten (cs.take (placeLength one five ten cs)) := by
  have hcounts : IsPlace one five ten
      (cs.take (countLetter five 1 cs + countLetter one 3 (cs.drop (countLetter five 1 cs)))) := by
    rw [List.take_add]
    exact .sum (repeats_take 1 cs) (repeats_take 3 _)
  unfold placeLength
  split
  · split
    · next h =>
      obtain ⟨ha, hb⟩ := Bool.and_eq_true_iff.mp h
      exact .less ha (Bool.or_eq_true_iff.mp hb)
    · exact hcounts
  · exact hcounts

/-- What is captured as a numeral is one. -/
theorem isNumeral_take (cs : List Char) : IsNumeral (cs.take (numeralLength cs)) := by
  unfold numeralLength
  rw [List.take_add, List.take_add, List.take_add, List.append_assoc, List.append_assoc]
  exact ⟨_, _, _, _, repeats_take 4 cs, isPlace_take _, isPlace_take _, isPlace_take _, rfl⟩

end Playhouse.Grammar
