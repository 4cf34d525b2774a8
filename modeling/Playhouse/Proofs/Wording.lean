import Playhouse.Proofs.ReadEquations

/-!
# Playhouse.Proofs.Wording — reading words that stand apart

Texts whose words stand apart by single blanks, and what becomes of them. `Reads` says that a phrase can be read
there and where it ends, `Refuses` that it cannot be read; there is a rule for each form of phrases. A choice takes
the first that can be read, so whatever stands before that has to be refused: most of the time the first word
already tells (`refuses_of_opening`). Nothing here is about single words of the language.
-/

namespace Playhouse.Grammar

open Text

/-! ### Texts -/

/-- The words, each with a blank after it, and then `tail`. -/
def spelled : List String → List Char → List Char
  | [], tail => tail
  | w :: ws, tail => w.toList ++ ' ' :: spelled ws tail

theorem spelled_append (ws vs : List String) (tail : List Char) :
    spelled (ws ++ vs) tail = spelled ws (spelled vs tail) := by
  induction ws with
  | nil => rfl
  | cons w ws ih =>
    show w.toList ++ ' ' :: spelled (ws ++ vs) tail = w.toList ++ ' ' :: spelled ws (spelled vs tail)
    rw [ih]

/-- The words with a blank between them, and then `more`. -/
def joined : List String → List Char → List Char
  | [], more => more
  | [w], more => w.toList ++ more
  | w :: v :: ws, more => w.toList ++ ' ' :: joined (v :: ws) more

theorem spelled_eq_joined {ws : List String} (h : ws ≠ []) (tail : List Char) :
    spelled ws tail = joined ws (' ' :: tail) := by
  induction ws with
  | nil => exact absurd rfl h
  | cons w ws ih =>
    cases ws with
    | nil => rfl
    | cons v ws =>
      show w.toList ++ ' ' :: spelled (v :: ws) tail = w.toList ++ ' ' :: joined (v :: ws) (' ' :: tail)
      rw [ih (List.cons_ne_nil v ws)]

theorem length_le_spelled (ws : List String) (tail : List Char) :
    ws.length + tail.length ≤ (spelled ws tail).length := by
  induction ws with
  | nil => simp [spelled]
  | cons w ws ih =>
    simp only [spelled, List.length_append, List.length_cons]
    omega

/-- There is no blank at the beginning. -/
def Flush (text : List Char) : Prop := text.dropWhile isBlank = text

theorem Flush.append {text more : List Char} (htext : Flush text) (hmore : Flush more) : Flush (text ++ more) := by
  cases text with
  | nil => exact hmore
  | cons c cs =>
    cases hblank : isBlank c with
    | false => exact List.dropWhile_cons_of_neg (by rw [hblank]; decide)
    | true =>
      have hlonger : cs.dropWhile isBlank = c :: cs := (List.dropWhile_cons_of_pos hblank).symm.trans htext
      have hlength := (List.dropWhile_sublist (l := cs) isBlank).length_le
      rw [hlonger, List.length_cons] at hlength
      omega

/-- What may follow a word: nothing, a blank, or the end of the line. -/
def Apart (more : List Char) : Prop := more = [] ∨ ∃ c rest, (c = ' ' ∨ c = '\n') ∧ more = c :: rest

/-- A word to be written apart: there are characters in it, and all of them are printed ones below 128. -/
def isProper (w : List Char) : Bool := !w.isEmpty && w.all fun c => 32 < c.toNat && c.toNat < 128

theorem ascii_of_proper {w : List Char} (h : isProper w = true) {c : Char} (hc : c ∈ w) :
    c.toNat < 128 ∧ isBlank c = false := by
  simp only [isProper, Bool.and_eq_true, List.all_eq_true, decide_eq_true_eq] at h
  obtain ⟨hlow, hhigh⟩ := h.2 c hc
  refine ⟨hhigh, Bool.eq_false_iff.mpr fun hblank => ?_⟩
  obtain ⟨r, hr, hrange⟩ := inRanges_eq_true_iff.mp hblank
  have htable : r.2 ≤ 32 ∨ 128 ≤ r.1 := by
    have hall : ∀ r ∈ blankRanges, r.2 ≤ 32 ∨ 128 ≤ r.1 := by decide
    exact hall r hr
  omega

theorem flush_of_proper {w : List Char} (h : isProper w = true) (more : List Char) : Flush (w ++ more) := by
  cases w with
  | nil => cases h
  | cons c cs => exact List.dropWhile_cons_of_neg (by rw [(ascii_of_proper h List.mem_cons_self).2]; decide)

theorem flush_spelled {w : String} (h : isProper w.toList = true) (ws : List String) (tail : List Char) :
    Flush (spelled (w :: ws) tail) := flush_of_proper h _

/-- Once blanks are skipped, the text is what is left to read. -/
def Cursor.At (c : Cursor) (text : List Char) : Prop := (c.skip .usual).rest = text

theorem skip_rest (c : Cursor) : (c.skip .usual).rest = c.rest.dropWhile isBlank := by
  have happend := List.takeWhile_append_dropWhile (p := isBlank) (l := c.rest)
  calc c.rest.drop (c.rest.takeWhile isBlank).length
      = (c.rest.takeWhile isBlank ++ c.rest.dropWhile isBlank).drop (c.rest.takeWhile isBlank).length := by
        rw [happend]
    _ = c.rest.dropWhile isBlank := List.drop_left

theorem skip_of_flush {c : Cursor} (h : Flush c.rest) : c.skip .usual = c := by
  have hnone : c.rest.takeWhile isBlank = [] := by
    have happend := List.takeWhile_append_dropWhile (p := isBlank) (l := c.rest)
    rw [h] at happend
    exact List.append_left_eq_self.mp happend
  show c.advance (c.rest.takeWhile isBlank).length = c
  rw [hnone]
  rfl

theorem flush_dropWhile (text : List Char) : Flush (text.dropWhile isBlank) := by
  unfold Flush
  induction text with
  | nil => rfl
  | cons c cs ih =>
    cases hc : isBlank c with
    | true =>
      rw [List.dropWhile_cons_of_pos hc]
      exact ih
    | false =>
      rw [List.dropWhile_cons_of_neg (by rw [hc]; decide), List.dropWhile_cons_of_neg (by rw [hc]; decide)]

theorem skip_skip (c : Cursor) : (c.skip .usual).skip .usual = c.skip .usual := by
  apply skip_of_flush
  rw [skip_rest]
  exact flush_dropWhile _

theorem Cursor.At.skip {c : Cursor} {text : List Char} (h : c.At text) : (c.skip .usual).At text := by
  unfold Cursor.At
  rw [skip_skip]
  exact h

theorem at_of_rest {c : Cursor} {more text : List Char} (h : c.rest = more) (ht : more.dropWhile isBlank = text) :
    c.At text := by
  unfold Cursor.At
  rw [skip_rest, h, ht]

theorem pos_le_skip (c : Cursor) : c.pos ≤ (c.skip .usual).pos := Nat.le_add_right _ _

/-! ### Words -/

/-- The letters can be read at the beginning of a word that stands apart. -/
def fits (letters w : List Char) : Bool :=
  beginsWith letters w && !(letters.all isAlphanumeric && (w.drop letters.length).head?.any isAlphanumeric)

theorem sameLetter_ascii {a b : Char} (ha : a.toNat < 128) (hb : b.toNat < 128) :
    sameLetter a b = true ↔ a.toLower = b.toLower := by
  simp [sameLetter, lowerCase, ha, hb]

/-- What holds of the first 128 code points holds of every ASCII character. -/
theorem of_ascii {f : Char → Bool} (h : ((List.range 128).all fun n => f (Char.ofNat n)) = true) {c : Char}
    (hc : c.toNat < 128) : f c = true := by
  have hn := List.all_eq_true.mp h c.toNat (List.mem_range.mpr hc)
  rwa [Char.ofNat_toNat] at hn

theorem isAlphanum_toLower {c : Char} (hc : c.toNat < 128) : c.toLower.isAlphanum = isAlphanumeric c := by
  have h := of_ascii (f := fun c => c.toLower.isAlphanum == isAlphanumeric c) (by decide +kernel) hc
  exact beq_iff_eq.mp h

theorem isBlank_toLower {c : Char} (hc : c.toNat < 128) : isBlank c.toLower = isBlank c := by
  have h := of_ascii (f := fun c => isBlank c.toLower == isBlank c) (by decide +kernel) hc
  exact beq_iff_eq.mp h

theorem sameLetter_blank {a b : Char} (ha : a.toNat < 128) (hblank : isBlank a = false) (hb : b = ' ' ∨ b = '\n') :
    sameLetter a b = false := by
  have hb' : b.toNat < 128 ∧ isBlank b = true := by
    obtain rfl | rfl := hb <;> decide
  rw [Bool.eq_false_iff, Ne, sameLetter_ascii ha hb'.1]
  intro hlower
  rw [← isBlank_toLower ha, hlower, isBlank_toLower hb'.1, hb'.2] at hblank
  cases hblank

/-- A word `t` does not go on into what `more` begins with. -/
def Closes (t more : List Char) : Prop :=
  ∀ b ∈ more.head?, isAlphanumeric b = false ∧ ∀ a ∈ t, sameLetter a b = false

theorem Apart.closes {t more : List Char} (hm : Apart more) (ht : isProper t = true) : Closes t more := by
  intro b hb
  obtain rfl | ⟨c, rest, hc, rfl⟩ := hm
  · cases hb
  · obtain rfl : c = b := Option.some.inj hb
    refine ⟨by obtain rfl | rfl := hc <;> decide, fun a ha => ?_⟩
    exact sameLetter_blank (ascii_of_proper ht ha).1 (ascii_of_proper ht ha).2 hc

theorem beginsWith_append {t more : List Char} (hm : Closes t more) :
    ∀ w, beginsWith t (w ++ more) = beginsWith t w := by
  induction t with
  | nil => intro w; cases w <;> cases more <;> rfl
  | cons a t ih =>
    have ih := ih fun b hb => ⟨(hm b hb).1, fun c hc => (hm b hb).2 c (List.mem_cons_of_mem a hc)⟩
    intro w
    cases w with
    | cons b w =>
      show (sameLetter a b && beginsWith t (w ++ more)) = (sameLetter a b && beginsWith t w)
      rw [ih]
    | nil =>
      cases more with
      | nil => rfl
      | cons b rest =>
        show (sameLetter a b && beginsWith t rest) = false
        rw [(hm b rfl).2 a List.mem_cons_self, Bool.false_and]

theorem length_le_of_beginsWith {t w : List Char} (h : beginsWith t w = true) : t.length ≤ w.length := by
  induction t generalizing w with
  | nil => exact Nat.zero_le _
  | cons a t ih =>
    cases w with
    | nil => cases h
    | cons b w => exact Nat.succ_le_succ (ih (Bool.and_eq_true_iff.mp h).2)

theorem countLetter_le (l : Char) (limit : Nat) : ∀ cs : List Char, countLetter l limit cs ≤ cs.length := by
  induction limit with
  | zero =>
    intro cs
    unfold countLetter
    exact Nat.zero_le _
  | succ limit ih =>
    intro cs
    cases cs with
    | nil => exact Nat.le_refl _
    | cons c cs =>
      unfold countLetter
      have hcs := ih cs
      rw [List.length_cons]
      split <;> omega

theorem placeLength_le (one five ten : Char) (cs : List Char) : placeLength one five ten cs ≤ cs.length := by
  have hfive := countLetter_le five 1 cs
  have hone := countLetter_le one 3 (cs.drop (countLetter five 1 cs))
  rw [List.length_drop] at hone
  unfold placeLength
  split
  · split
    · simp only [List.length_cons]
      omega
    · omega
  · omega

/-- A pattern captures no more than there is. -/
theorem Pattern.length?_le {p : Pattern} {cs : List Char} {n : Nat} (h : p.length? cs = some n) :
    n ≤ cs.length := by
  cases p with
  | numeral =>
    obtain rfl := Option.some.inj h
    have hm := countLetter_le 'M' 4 cs
    unfold numeralLength
    generalize countLetter 'M' 4 cs = m at hm ⊢
    have hc := placeLength_le 'C' 'D' 'M' (cs.drop m)
    dsimp only
    generalize placeLength 'C' 'D' 'M' (cs.drop m) = a at hc ⊢
    have hx := placeLength_le 'X' 'L' 'C' (cs.drop (m + a))
    generalize placeLength 'X' 'L' 'C' (cs.drop (m + a)) = b at hx ⊢
    have hi := placeLength_le 'I' 'V' 'X' (cs.drop (m + a + b))
    simp only [List.length_drop] at hc hx hi
    omega
  | blanks =>
    obtain rfl := Option.some.inj h
    exact (List.takeWhile_prefix _).length_le
  | untilStop =>
    obtain rfl := Option.some.inj h
    exact (List.takeWhile_prefix _).length_le
  | throughStop =>
    unfold Pattern.length? at h
    dsimp only at h
    split at h
    · cases h
    · obtain rfl := Option.some.inj h
      have hdrop := (List.dropWhile_suffix (l := (cs.takeWhile (· != '\n')).reverse) (· != '.')).length_le
      have htake := (List.takeWhile_prefix (l := cs) (· != '\n')).length_le
      rw [List.length_reverse] at hdrop
      omega

theorem beginsWith_self (w more : List Char) : beginsWith w (w ++ more) = true := by
  induction w with
  | nil => cases more <;> rfl
  | cons c w ih => simp [beginsWith, sameLetter, ih]

theorem fits_self (w : List Char) : fits w w = true := by
  have hself := beginsWith_self w []
  rw [List.append_nil] at hself
  simp [fits, hself]

/-- What is asked of the text when a word is read is asked of the next word alone. -/
theorem fits_iff_read {t w more : List Char} (hm : Closes t more) :
    (beginsWith t (w ++ more) && !isCutOff .usual t ((w ++ more).drop t.length)) = fits t w := by
  rw [beginsWith_append hm, fits]
  cases hb : beginsWith t w with
  | false => rfl
  | true =>
    rw [List.drop_append_of_le_length (length_le_of_beginsWith hb)]
    show (true && !(true && t.all isAlphanumeric && (w.drop t.length ++ more).head?.any isAlphanumeric)) = _
    rw [Bool.true_and (t.all isAlphanumeric)]
    cases w.drop t.length with
    | cons c cs => rfl
    | nil =>
      cases more with
      | nil => rfl
      | cons b rest => simp [(hm b rfl).1]

/-! ### Telling words apart

Words are compared up to case, and a word of letters and digits ends where they end. So what a word begins with, in
small letters, decides which others can be taken for it. Whole lists of words are compared through the numbers of
these beginnings, as sets of bits: that no two meet is one conjunction of numbers.
-/

/-- The letters and digits at the beginning of a word, in small letters. -/
def stem (w : List Char) : List Char := (w.map Char.toLower).takeWhile Char.isAlphanum

theorem stem_eq_of_fits {t w : List Char} (ht : ∀ c ∈ t, c.toNat < 128) (hw : ∀ c ∈ w, c.toNat < 128)
    (h : fits t w = true) : stem t = stem w := by
  induction t generalizing w with
  | nil =>
    cases w with
    | nil => rfl
    | cons b w =>
      have hb : isAlphanumeric b = false := by simpa [fits, beginsWith] using h
      rw [← isAlphanum_toLower (hw b List.mem_cons_self)] at hb
      simp [stem, hb]
  | cons a t ih =>
    cases w with
    | nil => cases h
    | cons b w =>
      have ha := ht a List.mem_cons_self
      have hsame : a.toLower = b.toLower := by
        rw [← sameLetter_ascii ha (hw b List.mem_cons_self)]
        simp only [fits, beginsWith, Bool.and_eq_true] at h
        exact h.1.1
      cases hal : isAlphanumeric a with
      | false =>
        rw [← isAlphanum_toLower ha] at hal
        simp [stem, ← hsame, hal]
      | true =>
        have hrest : fits t w = true := by
          simp only [fits, beginsWith, List.all_cons, hal, Bool.true_and, List.length_cons, List.drop_succ_cons,
            Bool.and_eq_true] at h ⊢
          exact ⟨h.1.2, h.2⟩
        have hstem :=
          ih (fun c hc => ht c (List.mem_cons_of_mem a hc)) (fun c hc => hw c (List.mem_cons_of_mem b hc)) hrest
        rw [← isAlphanum_toLower ha] at hal
        unfold stem at hstem ⊢
        rw [List.map_cons, List.map_cons, ← hsame, List.takeWhile_cons_of_pos hal,
          List.takeWhile_cons_of_pos hal, hstem]

/-- The number that stands for a word among the bits. No two beginnings of words of the language that have to be
told apart have the same remainder. -/
def mark (w : List Char) : Nat := (stem w).foldl (fun n c => 256 * n + c.toNat) 0 % 11531

/-- The marks of words, as bits. -/
def marks (ws : List (List Char)) : Nat := ws.foldr (fun w n => 1 <<< mark w ||| n) 0

/-- None of the letters `ts` can be read at any of the words `ws`. -/
def areApart (ts ws : List (List Char)) : Bool := ts.all isProper && marks ts &&& marks ws == 0

theorem testBit_marks {ws : List (List Char)} {w : List Char} (h : w ∈ ws) :
    (marks ws).testBit (mark w) = true := by
  induction ws with
  | nil => cases h
  | cons v ws ih =>
    show (1 <<< mark v ||| marks ws).testBit (mark w) = true
    rw [Nat.testBit_or, Bool.or_eq_true, Nat.one_shiftLeft]
    obtain rfl | h := List.mem_cons.mp h
    · exact .inl Nat.testBit_two_pow_self
    · exact .inr (ih h)

theorem mark_eq_of_fits {t w : List Char} (ht : isProper t = true) (hw : isProper w = true) (h : fits t w = true) :
    mark t = mark w := by
  unfold mark
  rw [stem_eq_of_fits (fun c hc => (ascii_of_proper ht hc).1) (fun c hc => (ascii_of_proper hw hc).1) h]

theorem fits_of_areApart {ts ws : List (List Char)} (h : areApart ts ws = true) {t w : List Char} (ht : t ∈ ts)
    (hw : w ∈ ws) (hproper : isProper w = true) : isProper t = true ∧ fits t w = false := by
  simp only [areApart, Bool.and_eq_true, List.all_eq_true, beq_iff_eq] at h
  obtain ⟨hts, hmeet⟩ := h
  refine ⟨hts t ht, Bool.eq_false_iff.mpr fun hfits => ?_⟩
  have hbit := congrArg (Nat.testBit · (mark w)) hmeet
  simp only [Nat.testBit_and, Nat.zero_testBit] at hbit
  rw [testBit_marks hw, Bool.and_true, ← mark_eq_of_fits (hts t ht) hproper hfits, testBit_marks ht] at hbit
  cases hbit

/-! ### Reading and refusing -/

/-- Reading went from where `text` is ahead to where `rest` is ahead. -/
structure Cursor.Moves (c c' : Cursor) (text rest : List Char) : Prop where
  ahead : c'.At rest
  le : c.pos ≤ c'.pos
  lt : rest.length < text.length → c.pos < c'.pos

theorem Cursor.Moves.trans {a b c : Cursor} {text mid rest : List Char} (h : a.Moves b text mid)
    (k : b.Moves c mid rest) :
    a.Moves c text rest where
  ahead := k.ahead
  le := Nat.le_trans h.le k.le
  lt hlt := by
    by_cases hmid : mid.length < text.length
    · exact Nat.lt_of_lt_of_le (h.lt hmid) k.le
    · exact Nat.lt_of_le_of_lt h.le (k.lt (by omega))

theorem Cursor.At.moves {c : Cursor} {text : List Char} (h : c.At text) : c.Moves c text text :=
  ⟨h, Nat.le_refl _, fun hlt => absurd hlt (Nat.lt_irrefl _)⟩

theorem Cursor.Moves.of_skip {c c' : Cursor} {text rest : List Char} (h : (c.skip .usual).Moves c' text rest) :
    c.Moves c' text rest :=
  ⟨h.ahead, Nat.le_trans (pos_le_skip c) h.le, fun hlt => Nat.lt_of_le_of_lt (pos_le_skip c) (h.lt hlt)⟩

namespace Phrase

/-- Where `text` is ahead, the phrase can be read up to where `rest` is ahead, if at least `N` rules can be nested.
What it gives is as `P` says. -/
def Reads (N : Nat) (p : Phrase) (text rest : List Char) (P : Yield → Prop) : Prop :=
  ∀ n, N ≤ n → ∀ stack c seen, c.At text →
    ∃ y c' s, p.read .usual (Rule.read .usual n) stack c seen = .done y c' s ∧ c.Moves c' text rest ∧ P y

/-- Where `text` is ahead and the phrase can be read, something as `E` says is ahead after it. -/
def LeadsTo (N : Nat) (p : Phrase) (text : List Char) (E : List Char → Prop) : Prop :=
  ∀ n, N ≤ n → ∀ stack c seen, c.At text → ∀ {y c' s},
    p.read .usual (Rule.read .usual n) stack c seen = .done y c' s → ∃ rest, E rest ∧ c'.At rest

/-- Where `text` is ahead, the phrase cannot be read. -/
def Refuses (N : Nat) (p : Phrase) (text : List Char) : Prop := p.LeadsTo N text fun _ => False

section Combining

variable {N M : Nat} {p q : Phrase} {r : Rule} {text mid rest : List Char} {P Q : Yield → Prop}
    {E F : List Char → Prop}

theorem Reads.mono (h : p.Reads N text rest P) (hN : N ≤ M) : p.Reads M text rest P :=
  fun n hn => h n (Nat.le_trans hN hn)

theorem LeadsTo.mono (h : p.LeadsTo N text E) (hN : N ≤ M) : p.LeadsTo M text E :=
  fun n hn => h n (Nat.le_trans hN hn)

theorem Refuses.mono (h : p.Refuses N text) (hN : N ≤ M) : p.Refuses M text := LeadsTo.mono h hN

theorem Reads.imp (h : p.Reads N text rest P) (himp : ∀ y, P y → Q y) : p.Reads N text rest Q := by
  intro n hn stack c seen hc
  obtain ⟨y, c', s, hr, hm, hy⟩ := h n hn stack c seen hc
  exact ⟨y, c', s, hr, hm, himp y hy⟩

theorem LeadsTo.imp (h : p.LeadsTo N text E) (himp : ∀ t, E t → F t) : p.LeadsTo N text F := by
  intro n hn stack c seen hc y c' s hr
  obtain ⟨t, ht, hat⟩ := h n hn stack c seen hc hr
  exact ⟨t, himp t ht, hat⟩

theorem Refuses.leadsTo (h : p.Refuses N text) : p.LeadsTo N text E := LeadsTo.imp h fun _ => False.elim

theorem Reads.leadsTo (h : p.Reads N text rest P) : p.LeadsTo N text (· = rest) := by
  intro n hn stack c seen hc y c' s hr
  obtain ⟨y', c₁, s₁, hr', hm, _⟩ := h n hn stack c seen hc
  cases hr.symm.trans hr'
  exact ⟨rest, rfl, hm.ahead⟩

theorem Refuses.failed (h : p.Refuses N text) {n : Nat} (hn : N ≤ n) (stack : List Rule) {c : Cursor}
    (seen : Option Failure) (hc : c.At text) :
    ∃ e s, p.read .usual (Rule.read .usual n) stack c seen = .failed e s := by
  cases hr : p.read .usual (Rule.read .usual n) stack c seen with
  | failed e s => exact ⟨e, s, rfl⟩
  | done y c' s =>
    obtain ⟨_, hf, _⟩ := h n hn stack c seen hc hr
    exact hf.elim

theorem reads_seq (hp : p.Reads N text mid P) (hq : q.Reads N mid rest Q) :
    (seq p q).Reads N text rest fun y => ∃ u v, P u ∧ Q v ∧ y = u.append v := by
  intro n hn stack c seen hc
  obtain ⟨u, c₁, s₁, hr, hm, hu⟩ := hp n hn stack c seen hc
  obtain ⟨v, c₂, s₂, hk, hm', hv⟩ := hq n hn stack c₁ s₁ hm.ahead
  refine ⟨u.append v, c₂, s₂, ?_, hm.trans hm', u, v, hu, hv, rfl⟩
  rw [read_seq, hr, Reading.andThen, hk, Reading.andThen]

theorem leadsTo_seq (hp : p.LeadsTo N text E) (hq : ∀ t, E t → q.LeadsTo N t F) : (seq p q).LeadsTo N text F := by
  intro n hn stack c seen hc y c' s h
  obtain ⟨u, c₁, s₁, hr, h⟩ := done_of_andThen (read_seq.symm.trans h)
  obtain ⟨v, c₂, s₂, hk, ⟨⟩⟩ := done_of_andThen h
  obtain ⟨t, ht, hat⟩ := hp n hn stack c seen hc hr
  exact hq t ht n hn stack c₁ s₁ hat hk

theorem refuses_seq (hp : p.Refuses N text) : (seq p q).Refuses N text := leadsTo_seq hp fun _ => False.elim

theorem refuses_seq_right (hp : p.Reads N text mid P) (hq : q.Refuses N mid) : (seq p q).Refuses N text :=
  leadsTo_seq hp.leadsTo fun _ ht => ht ▸ hq

theorem reads_alt_left (hp : p.Reads N text rest P) : (alt p q).Reads N text rest P := by
  intro n hn stack c seen hc
  obtain ⟨u, c', s, hr, hm, hu⟩ := hp n hn stack c seen hc
  exact ⟨u, c', s, by rw [read_alt, hr, Reading.orElse], hm, hu⟩

theorem reads_alt_right (hp : p.Refuses N text) (hq : q.Reads N text rest P) : (alt p q).Reads N text rest P := by
  intro n hn stack c seen hc
  obtain ⟨e, s, hr⟩ := hp.failed hn stack seen hc
  rw [read_alt, hr]
  exact hq n hn stack c s hc

theorem leadsTo_alt (hp : p.LeadsTo N text E) (hq : q.LeadsTo N text E) : (alt p q).LeadsTo N text E := by
  intro n hn stack c seen hc y c' s h
  obtain hr | ⟨s₁, hk⟩ := done_of_orElse (read_alt.symm.trans h)
  · exact hp n hn stack c seen hc hr
  · exact hq n hn stack c s₁ hc hk

theorem reads_expect {expected : List Expected} (hp : p.Reads N text rest P) :
    (expect expected p).Reads N text rest P := by
  intro n hn stack c seen hc
  obtain ⟨u, c', s, hr, hm, hu⟩ := hp n hn stack c seen hc
  exact ⟨u, c', s, by rw [read_expect, hr, Reading.orElse], hm, hu⟩

theorem leadsTo_expect {expected : List Expected} (hp : p.LeadsTo N text E) :
    (expect expected p).LeadsTo N text E := by
  intro n hn stack c seen hc y c' s h
  obtain hr | ⟨s₁, ⟨⟩⟩ := done_of_orElse (read_expect.symm.trans h)
  exact hp n hn stack c seen hc hr

theorem reads_opt (hp : p.Reads N text rest P) : (opt p).Reads N text rest P := by
  intro n hn stack c seen hc
  obtain ⟨u, c', s, hr, hm, hu⟩ := hp n hn stack c seen hc
  exact ⟨u, c', s, by rw [read_opt, hr, Reading.orElse], hm, hu⟩

theorem reads_opt_none (hp : p.Refuses N text) : (opt p).Reads N text text (· = .none) := by
  intro n hn stack c seen hc
  obtain ⟨e, s, hr⟩ := hp.failed hn stack seen hc
  exact ⟨.none, c, s, by rw [read_opt, hr, Reading.orElse], hc.moves, rfl⟩

theorem leadsTo_opt (hp : p.LeadsTo N text E) (ht : E text) : (opt p).LeadsTo N text E := by
  intro n hn stack c seen hc y c' s h
  obtain hr | ⟨s₁, ⟨⟩⟩ := done_of_orElse (read_opt.symm.trans h)
  · exact hp n hn stack c seen hc hr
  · exact ⟨text, ht, hc⟩

theorem reads_label {f : Field} (hp : p.Reads N text rest P) :
    (label f p).Reads N text rest fun y => ∃ u, P u ∧ y = ⟨u.items, u.fields ++ [(f, u.tree)], u.gathered⟩ := by
  intro n hn stack c seen hc
  obtain ⟨u, c', s, hr, hm, hu⟩ := hp n hn stack c seen hc
  exact ⟨_, c', s, by rw [read_label, hr, Reading.andThen], hm, u, hu, rfl⟩

theorem reads_gather (hp : p.Reads N text rest P) :
    (gather p).Reads N text rest fun y => ∃ u, P u ∧ y = ⟨u.items, u.fields, u.gathered ++ [u.tree]⟩ := by
  intro n hn stack c seen hc
  obtain ⟨u, c', s, hr, hm, hu⟩ := hp n hn stack c seen hc
  exact ⟨_, c', s, by rw [read_gather, hr, Reading.andThen], hm, u, hu, rfl⟩

theorem leadsTo_gather (hp : p.LeadsTo N text E) : (gather p).LeadsTo N text E := by
  intro n hn stack c seen hc y c' s h
  obtain ⟨u, c₁, s₁, hr, ⟨⟩⟩ := done_of_andThen (read_gather.symm.trans h)
  exact hp n hn stack c seen hc hr

theorem reads_blanks : (pattern .blanks).Reads N text text fun y => ∃ w, y = .one (.word w) := by
  intro n hn stack c seen hc
  exact ⟨_, c.skip .usual, seen, rfl, ⟨hc.skip, pos_le_skip c, fun hlt => absurd hlt (Nat.lt_irrefl _)⟩, _, rfl⟩

theorem leadsTo_label {f : Field} (hp : p.LeadsTo N text E) : (label f p).LeadsTo N text E := by
  intro n hn stack c seen hc y c' s h
  obtain ⟨u, c₁, s₁, hr, ⟨⟩⟩ := done_of_andThen (read_label.symm.trans h)
  exact hp n hn stack c seen hc hr

theorem reads_call (hbody : r.body = p) (h : p.Reads N text rest P) :
    (call r).Reads (N + 1) text rest fun y => ∃ u span, P u ∧ y = .one (u.ruleTree r span) := by
  intro n hn stack c seen hc
  rw [← hbody] at h
  obtain ⟨m, rfl⟩ : ∃ m, n = m + 1 := ⟨n - 1, by omega⟩
  obtain ⟨u, c', s, hr, hm, hu⟩ := h m (by omega) (r :: stack) (c.skip .usual) seen hc.skip
  exact ⟨_, c',
    s, by rw [read_call, rule_read_of_done hr, Reading.andThen], hm.of_skip, u, ⟨c.pos, c'.pos⟩, hu, rfl⟩

theorem leadsTo_call (hbody : r.body = p) (h : p.LeadsTo (N - 1) text E) : (call r).LeadsTo N text E := by
  intro n hn stack c seen hc y c' s hr
  rw [← hbody] at h
  obtain ⟨t, c₁, s₁, hk, ⟨⟩⟩ := done_of_andThen (read_call.symm.trans hr)
  cases n with
  | zero => cases hk
  | succ m =>
    obtain ⟨u, hb, -⟩ := done_of_rule_read hk
    exact h m (by omega) (r :: stack) (c.skip .usual) seen hc.skip hb

end Combining

/-! ### Choices and sequences -/

section Lists

variable {N : Nat} {text rest : List Char} {P : Yield → Prop} {E : List Char → Prop}

theorem leadsTo_firstOf {ps : List Phrase} (h : ∀ p ∈ ps, p.LeadsTo N text E) : (firstOf ps).LeadsTo N text E := by
  induction ps with
  | nil =>
    rintro n hn stack c seen hc y c' s ⟨⟩
  | cons p ps ih =>
    have hp := h p List.mem_cons_self
    cases ps with
    | nil => exact hp
    | cons q ps => exact leadsTo_alt hp (ih fun p' hp' => h p' (List.mem_cons_of_mem p hp'))

/-- Of several phrases, the first that is not refused is read. -/
theorem reads_firstOf {before : List Phrase} (hbefore : ∀ q ∈ before, q.Refuses N text) {p : Phrase}
    (hp : p.Reads N text rest P) (after : List Phrase) : (firstOf (before ++ p :: after)).Reads N text rest P := by
  induction before with
  | nil =>
    cases after with
    | nil => exact hp
    | cons q qs => exact reads_alt_left hp
  | cons q qs ih =>
    have hq := hbefore q List.mem_cons_self
    have ih := ih fun q' hq' => hbefore q' (List.mem_cons_of_mem q hq')
    cases hqs : qs ++ p :: after with
    | nil => simp at hqs
    | cons q' qs' =>
      rw [hqs] at ih
      rw [List.cons_append, hqs]
      exact reads_alt_right hq ih

theorem reads_oneOf {options : List Phrase} (before after : List Phrase) {p : Phrase} {expected : List Expected}
    (hoptions : options = before ++ p :: after) (hbefore : ∀ q ∈ before, q.Refuses N text)
    (hp : p.Reads N text rest P) :
    (oneOf options expected).Reads N text rest P := by
  rw [hoptions]
  exact reads_expect (reads_firstOf hbefore hp after)

theorem reads_firstOption {p : Phrase} {after : List Phrase} {expected : List Expected}
    (hp : p.Reads N text rest P) :
    (oneOf (p :: after) expected).Reads N text rest P := reads_oneOf [] after rfl (List.forall_mem_nil _) hp

theorem reads_secondOption {p q : Phrase} {after : List Phrase} {expected : List Expected} (hq : q.Refuses N text)
    (hp : p.Reads N text rest P) : (oneOf (q :: p :: after) expected).Reads N text rest P :=
  reads_oneOf [q] after rfl (List.forall_mem_singleton.mpr hq) hp

theorem leadsTo_oneOf {options : List Phrase} {expected : List Expected} (h : ∀ p ∈ options, p.LeadsTo N text E) :
    (oneOf options expected).LeadsTo N text E := leadsTo_expect (leadsTo_firstOf h)

end Lists

/-! ### Words in texts -/

section Words

variable {N : Nat} {t w more : List Char} {tail : List Char}

theorem reads_letters {text : List Char} (hne : t ≠ [])
    (h : (beginsWith t text && !isCutOff .usual t (text.drop t.length)) = true) :
    (token t).Reads N text ((text.drop t.length).dropWhile isBlank) (· = .one (.word (String.ofList t))) := by
  intro n hn stack c seen hc
  have hrest : (c.skip .usual).rest = text := hc
  have hlt : c.pos < (c.skip .usual).pos + t.length := by
    have hpos : 0 < t.length := List.length_pos_iff.mpr hne
    have hle := pos_le_skip c
    omega
  refine ⟨_, ⟨(c.skip .usual).pos + t.length, text.drop t.length⟩, seen, ?_,
    ⟨?_, Nat.le_of_lt hlt, fun _ => hlt⟩, rfl⟩
  · rw [read_token, hrest, h, if_pos rfl]
  · exact at_of_rest rfl rfl

theorem reads_token (ht : isProper t = true) (hm : Closes t more) (hfits : fits t w = true)
    (hlen : t.length = w.length) :
    (token t).Reads N (w ++ more) (more.dropWhile isBlank) (· = .one (.word (String.ofList t))) := by
  have hne : t ≠ [] := by
    rintro rfl
    cases ht
  have hread := reads_letters (N := N) hne ((fits_iff_read hm).trans hfits)
  rwa [show (w ++ more).drop t.length = more by rw [hlen, List.drop_left]] at hread

/-- What is no word of letters and digits may be followed by anything. -/
theorem reads_sign {w : String} (hw : w.toList.all isAlphanumeric = false) (more : List Char) :
    (word w).Reads N (w.toList ++ more) (more.dropWhile isBlank) (· = .one (.word w)) := by
  have hne : w.toList ≠ [] := by
    intro hnil
    rw [hnil] at hw
    cases hw
  have hall : (beginsWith w.toList (w.toList ++ more) &&
      !isCutOff .usual w.toList ((w.toList ++ more).drop w.toList.length)) = true := by
    simp [beginsWith_self, isCutOff, hw]
  have hread := reads_letters (N := N) hne hall
  rwa [List.drop_left, String.ofList_toList] at hread

theorem refuses_token (hm : Closes t more) (h : fits t w = false) : (token t).Refuses N (w ++ more) := by
  intro n hn stack c seen hc y c' s hr
  have hrest : (c.skip .usual).rest = w ++ more := hc
  rw [read_token, hrest, fits_iff_read hm, h, if_neg (by decide)] at hr
  cases hr

/-- The first character already tells. -/
theorem refuses_initial {a b : Char} (h : sameLetter a b = false) : (token (a :: t)).Refuses N (b :: more) := by
  intro n hn stack c seen hc y c' s hr
  have hrest : (c.skip .usual).rest = b :: more := hc
  rw [read_token, hrest, beginsWith, h, Bool.false_and, Bool.false_and, if_neg (by decide)] at hr
  cases hr

theorem refuses_token_nil (ht : isProper t = true) : (token t).Refuses N [] := by
  cases t with
  | nil => cases ht
  | cons a t =>
    intro n hn stack c seen hc y c' s hr
    have hrest : (c.skip .usual).rest = [] := hc
    rw [read_token, hrest, beginsWith, Bool.false_and, if_neg (by decide)] at hr
    cases hr

/-- The words can be written apart. -/
def AreProper (ws : List String) : Prop := ∀ w ∈ ws, isProper w.toList = true

theorem AreProper.cons {w : String} {ws : List String} (hw : isProper w.toList = true) (hws : AreProper ws) :
    AreProper (w :: ws) := by
  intro v hv
  obtain rfl | hv := List.mem_cons.mp hv
  · exact hw
  · exact hws v hv

theorem AreProper.append {ws vs : List String} (hws : AreProper ws) (hvs : AreProper vs) :
    AreProper (ws ++ vs) := by
  intro w hw
  obtain hw | hw := List.mem_append.mp hw
  · exact hws w hw
  · exact hvs w hw

theorem apart_blank (rest : List Char) : Apart (' ' :: rest) := .inr ⟨' ', rest, .inl rfl, rfl⟩

/-- None of the words goes on into what `more` begins with. -/
def ClosesEach (ws : List String) (more : List Char) : Prop := ∀ w ∈ ws, Closes w.toList more

theorem AreProper.closesEach {ws : List String} (hws : AreProper ws) (hm : Apart more) : ClosesEach ws more :=
  fun w hw => hm.closes (hws w hw)

theorem flush_spelled_of_proper {ws : List String} (hws : AreProper ws) (htail : Flush tail) :
    Flush (spelled ws tail) := by
  cases ws with
  | nil => exact htail
  | cons w ws => exact flush_spelled (hws w List.mem_cons_self) ws tail

theorem dropWhile_blank (htail : Flush tail) : (' ' :: tail).dropWhile isBlank = tail := htail

theorem reads_word {w : String} (hw : isProper w.toList = true) (htail : Flush tail) :
    (word w).Reads N (spelled [w] tail) tail (· = .one (.word w)) := by
  have h := reads_token (N := N) hw ((apart_blank tail).closes hw) (fits_self w.toList) rfl
  rwa [String.ofList_toList, dropWhile_blank htail] at h

theorem flush_joined {ws : List String} (hne : ws ≠ []) (hws : AreProper ws) (more : List Char) :
    Flush (joined ws more) := by
  cases ws with
  | nil => exact absurd rfl hne
  | cons w ws => cases ws <;> exact flush_of_proper (hws w List.mem_cons_self) _

theorem reads_joined {ws : List String} (hne : ws ≠ []) (hws : AreProper ws) (hm : ClosesEach ws more) :
    (words ws).Reads N (joined ws more) (more.dropWhile isBlank) (· = ⟨ws.map .word, [], []⟩) := by
  induction ws with
  | nil => exact absurd rfl hne
  | cons w ws ih =>
    have hw := hws w List.mem_cons_self
    have hrest : AreProper ws := fun v hv => hws v (List.mem_cons_of_mem w hv)
    have hcloses : ClosesEach ws more := fun v hv => hm v (List.mem_cons_of_mem w hv)
    cases ws with
    | nil =>
      have h := reads_token (N := N) hw (hm w List.mem_cons_self) (fits_self w.toList) rfl
      rwa [String.ofList_toList] at h
    | cons v ws =>
      have hflush := flush_joined (List.cons_ne_nil v ws) hrest more
      refine (reads_seq (reads_word hw hflush) (ih (List.cons_ne_nil v ws) hrest hcloses)).imp ?_
      rintro y ⟨u, z, rfl, rfl, rfl⟩
      rfl

theorem reads_words {ws : List String} (hne : ws ≠ []) (hws : AreProper ws) (htail : Flush tail) :
    (words ws).Reads N (spelled ws tail) tail (· = ⟨ws.map .word, [], []⟩) := by
  have h := reads_joined (N := N) hne hws (hws.closesEach (apart_blank tail))
  rwa [dropWhile_blank htail, ← spelled_eq_joined hne] at h

/-- The words `ts` cannot be read where the words `ws` are written. -/
def refusesWords : List String → List String → Bool
  | t :: ts, w :: ws => !fits t.toList w.toList || (t.toList.length == w.toList.length && refusesWords ts ws)
  | _, _ => false

theorem refuses_joined {ts ws : List String} (h : refusesWords ts ws = true) (hts : AreProper ts)
    (hws : AreProper ws) (hm : ClosesEach ts more) : (words ts).Refuses N (joined ws more) := by
  induction ts generalizing ws with
  | nil => cases h
  | cons t ts ih =>
    cases ws with
    | nil => cases h
    | cons w ws =>
      have ht := hts t List.mem_cons_self
      have hts : AreProper ts := fun v hv => hts v (List.mem_cons_of_mem t hv)
      have hws : AreProper ws := fun v hv => hws v (List.mem_cons_of_mem w hv)
      have hcloses : ClosesEach ts more := fun v hv => hm v (List.mem_cons_of_mem t hv)
      cases hfits : fits t.toList w.toList with
      | false =>
        have htoken : (word t).Refuses N (joined (w :: ws) more) := by
          cases ws with
          | nil => exact refuses_token (hm t List.mem_cons_self) hfits
          | cons v ws => exact refuses_token ((apart_blank _).closes ht) hfits
        cases ts with
        | nil => exact htoken
        | cons t' ts => exact refuses_seq htoken
      | true =>
        simp only [refusesWords, hfits, Bool.not_true, Bool.false_or, Bool.and_eq_true, beq_iff_eq] at h
        cases ts with
        | nil => cases h.2
        | cons t' ts =>
          cases ws with
          | nil => cases h.2
          | cons v ws =>
            have hflush := flush_joined (List.cons_ne_nil v ws) hws more
            have hread := reads_token (N := N) ht ((apart_blank (joined (v :: ws) more)).closes ht) hfits h.1
            rw [dropWhile_blank hflush] at hread
            exact refuses_seq_right hread (ih h.2 hts hws hcloses)

theorem refuses_words {ts ws : List String} (h : refusesWords ts ws = true) (hts : AreProper ts)
    (hws : AreProper ws) :
    (words ts).Refuses N (spelled ws tail) := by
  have hne : ws ≠ [] := by
    rintro rfl
    cases ts <;> cases h
  rw [spelled_eq_joined hne]
  exact refuses_joined h hts hws (hts.closesEach (apart_blank tail))

/-- What an entry of a word list begins with. -/
def firstWord (entry : List String) : List Char := (entry.headD "").toList

/-- No entry can be taken for one that comes later. -/
def isOrdered : List (List String) → Bool
  | [] => true
  | e :: es =>
    (!(marks (es.map firstWord)).testBit (mark (firstWord e)) || es.all (refusesWords e)) && isOrdered es

/-- A word list as it should be. -/
def isLexical (entries : List (List String)) : Bool :=
  entries.all (fun e => !e.isEmpty && e.all fun w => isProper w.toList) && isOrdered entries

theorem proper_of_lexical {entries : List (List String)} (h : isLexical entries = true) {e : List String}
    (he : e ∈ entries) :
    e ≠ [] ∧ AreProper e := by
  simp only [isLexical, Bool.and_eq_true, List.all_eq_true, Bool.not_eq_true', List.isEmpty_eq_false_iff] at h
  exact h.1 e he

theorem refusesWords_of_mark {e e' : List String} (he : e ≠ [] ∧ AreProper e) (he' : e' ≠ [] ∧ AreProper e')
    (h : mark (firstWord e) ≠ mark (firstWord e')) : refusesWords e e' = true := by
  obtain ⟨hne, hproper⟩ := he
  obtain ⟨hne', hproper'⟩ := he'
  cases e with
  | nil => exact absurd rfl hne
  | cons t ts =>
    cases e' with
    | nil => exact absurd rfl hne'
    | cons w ws =>
      have hfits : fits t.toList w.toList = false := Bool.eq_false_iff.mpr fun hfits =>
        h (mark_eq_of_fits (hproper t List.mem_cons_self) (hproper' w List.mem_cons_self) hfits)
      simp [refusesWords, hfits]

theorem refusesWords_of_lexical {before after : List (List String)} {e : List String}
    (h : isLexical (before ++ e :: after) = true) {b : List String} (hb : b ∈ before) :
    refusesWords b e = true := by
  have hproper := fun {e'} => proper_of_lexical h (e := e')
  have hordered : isOrdered (before ++ e :: after) = true := (Bool.and_eq_true_iff.mp h).2
  clear h
  induction before with
  | nil => cases hb
  | cons d ds ih =>
    have he : e ∈ ds ++ e :: after := List.mem_append_right ds List.mem_cons_self
    simp only [List.cons_append, isOrdered, Bool.and_eq_true, Bool.or_eq_true, Bool.not_eq_true',
      List.all_eq_true] at hordered
    obtain rfl | hb := List.mem_cons.mp hb
    · obtain hmark | hall := hordered.1
      · refine refusesWords_of_mark (hproper List.mem_cons_self)
          (hproper (List.mem_cons_of_mem b he)) fun heq => ?_
        rw [heq, testBit_marks (List.mem_map_of_mem he)] at hmark
        cases hmark
      · exact hall e he
    · exact ih hb (fun hmem => hproper (List.mem_cons_of_mem d hmem)) hordered.2

/-- No entry is read where a later one is written. -/
theorem refuses_earlier {before after : List (List String)} {e : List String}
    (h : isLexical (before ++ e :: after) = true) {b : List String} (hb : b ∈ before)
    (hm : AreProper b → ClosesEach b more) : (words b).Refuses N (joined e more) := by
  have hbp := (proper_of_lexical h (List.mem_append_left (e :: after) hb)).2
  have hep := (proper_of_lexical h (List.mem_append_right before List.mem_cons_self)).2
  exact refuses_joined (refusesWords_of_lexical h hb) hbp hep (hm hbp)

/-- Each entry of a word list is read as itself. -/
theorem reads_entry_joined {entries : List (List String)} {expected : List Expected} (h : isLexical entries = true)
    {e : List String} (he : e ∈ entries) (hm : ∀ b ∈ entries, AreProper b → ClosesEach b more) :
    (oneOf (entries.map words) expected).Reads N (joined e more) (more.dropWhile isBlank)
      (· = ⟨e.map .word, [], []⟩) := by
  obtain ⟨before, after, rfl⟩ := List.append_of_mem he
  obtain ⟨hne, hproper⟩ := proper_of_lexical h he
  refine reads_oneOf (before.map words) (after.map words) (by simp) ?_ (reads_joined hne hproper (hm e he hproper))
  intro q hq
  obtain ⟨b, hb, rfl⟩ := List.mem_map.mp hq
  exact refuses_earlier h hb (hm b (List.mem_append_left _ hb))

theorem reads_entry {entries : List (List String)} {expected : List Expected} (h : isLexical entries = true)
    {e : List String} (he : e ∈ entries) (htail : Flush tail) :
    (oneOf (entries.map words) expected).Reads N (spelled e tail) tail (· = ⟨e.map .word, [], []⟩) := by
  rw [spelled_eq_joined (proper_of_lexical h he).1]
  have hread : (oneOf (entries.map words) expected).Reads N (joined e (' ' :: tail)) _ _ :=
    reads_entry_joined h he fun _ _ hb => hb.closesEach (apart_blank tail)
  rwa [dropWhile_blank htail] at hread

end Words

/-! ### Captured texts -/

section Captured

variable {r : Rule} {text rest : List Char} {n : Nat}

theorem moves_advance {c : Cursor} (hc : c.rest = text) (hflush : Flush text) (n : Nat) :
    c.Moves (c.advance n) text ((text.drop n).dropWhile isBlank) where
  ahead := at_of_rest (congrArg (List.drop n) hc) rfl
  le := Nat.le_add_right _ _
  lt hlt := by
    cases n with
    | zero => exact absurd hlt (by rw [List.drop_zero, hflush]; exact Nat.lt_irrefl _)
    | succ n => exact Nat.lt_add_of_pos_right (Nat.succ_pos n)

/-- A rule that captures the first `n` characters of what is ahead of it. -/
theorem reads_captured {p : Phrase} {y : Yield} (hbody : r.body = p) (hflush : Flush text)
    (hp : ∀ call stack c seen, c.rest = text → p.read .usual call stack c seen = .done y (c.advance n) seen) :
    (call r).Reads 1 text ((text.drop n).dropWhile isBlank) fun z => ∃ span, z = .one (y.ruleTree r span) := by
  intro depth hdepth stack c seen hc
  obtain ⟨m, rfl⟩ : ∃ m, depth = m + 1 := ⟨depth - 1, by omega⟩
  have hrest : (c.skip .usual).rest = text := hc
  have hread := hp (Rule.read .usual m) (r :: stack) (c.skip .usual) seen hrest
  rw [← hbody] at hread
  exact ⟨_, _, seen, by rw [read_call, rule_read_of_done hread, Reading.andThen],
    (moves_advance hrest hflush n).of_skip, ⟨c.pos, _⟩, rfl⟩

end Captured

/-! ### Repetitions -/

section Repetitions

variable {N : Nat} {p : Phrase} {rest : List Char}

/-- A phrase reads a text item by item: `text as` is what is left when `as` are the items still to come, and `Q` is
what is known of the items read and what they give, put together from the last to the first. -/
def ReadsItems {α : Type} (N : Nat) (p : Phrase) (text : List α → List Char) (Q : List α → List Yield → Prop)
    (items : List α) : Prop :=
  ∀ a as, a :: as <:+ items → (text as).length < (text (a :: as)).length ∧
    p.Reads N (text (a :: as)) (text as) fun y => ∀ ys, Q as ys → Q (a :: as) (y :: ys)

section Items

variable {α : Type} {text : List α → List Char} {Q : List α → List Yield → Prop} {items : List α}

theorem ReadsItems.tail {a : α} (h : p.ReadsItems N text Q (a :: items)) : p.ReadsItems N text Q items :=
  fun b as hb => h b as (hb.trans (List.suffix_cons a items))

theorem ReadsItems.length_le (h : p.ReadsItems N text Q items) : items.length ≤ (text items).length := by
  induction items with
  | nil => exact Nat.zero_le _
  | cons a as ih =>
    have hlt := (h a as List.suffix_rfl).1
    have hle := ih h.tail
    rw [List.length_cons]
    omega

theorem readMany_items {n : Nat} (hn : N ≤ n) (stack : List Rule) (hend : p.Refuses N (text [])) (hnil : Q [] [])
    (hitems : p.ReadsItems N text Q items) {limit : Nat} (hlimit : items.length < limit) {c : Cursor}
    (hc : c.At (text items)) (seen : Option Failure) :
    ∃ ys c' s, readMany (p.read .usual (Rule.read .usual n) stack) stack limit c seen = .done ys c' s ∧
      c.Moves c' (text items) (text []) ∧ Q items ys := by
  obtain ⟨limit, rfl⟩ : ∃ l, limit = l + 1 := ⟨limit - 1, by omega⟩
  induction items generalizing limit c seen with
  | nil =>
    obtain ⟨e, s, hr⟩ := hend.failed hn stack seen hc
    exact ⟨[], c, s, by simp only [readMany, hr], hc.moves, hnil⟩
  | cons a as ih =>
    obtain ⟨hshorter, hreads⟩ := hitems a as List.suffix_rfl
    obtain ⟨y, c₁, s₁, hr, hm, hy⟩ := hreads n hn stack c seen hc
    rw [List.length_cons] at hlimit
    obtain ⟨limit, rfl⟩ : ∃ l, limit = l + 1 := ⟨limit - 1, by omega⟩
    obtain ⟨ys, c₂, s₂, hk, hm', hys⟩ := ih hitems.tail hm.ahead s₁ limit (by omega)
    have hmoved : c₁.pos ≠ c.pos := Nat.ne_of_gt (hm.lt hshorter)
    exact ⟨y :: ys, c₂, s₂, by rw [readMany, hr]; simp only [if_neg hmoved, hk], hm.trans hm', hy ys hys⟩

theorem At.length_le {c : Cursor} {text : List Char} (h : c.At text) : text.length ≤ c.rest.length := by
  have hrest := skip_rest c
  rw [h] at hrest
  rw [hrest]
  exact (List.dropWhile_sublist _).length_le

/-- A repetition reads all the items and stops where the phrase is refused. -/
theorem reads_many_items (hitems : p.ReadsItems N text Q items) (hend : p.Refuses N (text [])) (hnil : Q [] []) :
    (many p).Reads N (text items) (text []) fun y => ∃ ys, Q items ys ∧ y = .repeated ys := by
  intro n hn stack c seen hc
  have hlimit : items.length < c.rest.length + 1 := by
    have hle := hitems.length_le
    have hrest := At.length_le hc
    omega
  obtain ⟨ys, c', s, hr, hm, hys⟩ := readMany_items hn stack hend hnil hitems hlimit hc seen
  exact ⟨_, c', s, by rw [read_many, hr, Reading.andThen], hm, ys, hys, rfl⟩

end Items

/-- A repetition that is made once. -/
theorem reads_many_once {text : List Char} {P : Yield → Prop} (hp : p.Reads N text rest P)
    (hlt : rest.length < text.length) (hend : p.Refuses N rest) :
    (many p).Reads N text rest fun y => ∃ u, P u ∧ y = .repeated [u] := by
  have hitems : p.ReadsItems N (fun items : List Unit => if items.isEmpty then rest else text)
      (fun items ys => if items.isEmpty then ys = [] else ∃ u, P u ∧ ys = [u]) [()] := by
    intro a as has
    obtain rfl : as = [] := by simpa using has.length_le
    refine ⟨hlt, hp.imp ?_⟩
    rintro y hy ys rfl
    exact ⟨y, hy, rfl⟩
  refine (reads_many_items hitems hend rfl).imp ?_
  rintro y ⟨ys, ⟨u, hu, rfl⟩, rfl⟩
  exact ⟨u, hu, rfl⟩

/-- The parts of a text that a phrase reads one after the other. -/
def ReadsEach (N : Nat) (p : Phrase) (parts : List (List String)) (give : List String → Yield) : Prop :=
  ∀ part ∈ parts, part ≠ [] ∧ AreProper part ∧ ∀ tail, Flush tail →
    p.Reads N (spelled part tail) tail (· = give part)

/-- A repetition reads all the parts and stops where the phrase is refused. -/
theorem reads_many {give : List String → Yield} {parts : List (List String)} (hparts : p.ReadsEach N parts give)
    (hend : p.Refuses N rest) (hrest : Flush rest) :
    (many p).Reads N (spelled parts.flatten rest) rest (· = .repeated (parts.map give)) := by
  have hitems : p.ReadsItems N (fun parts => spelled parts.flatten rest)
      (fun parts ys => ys = parts.map give) parts := by
    intro part rem hrem
    obtain ⟨hne, hproper, hreads⟩ := hparts part (hrem.mem List.mem_cons_self)
    have hflush : Flush (spelled rem.flatten rest) := by
      refine flush_spelled_of_proper (fun w hw => ?_) hrest
      obtain ⟨q, hq, hwq⟩ := List.mem_flatten.mp hw
      exact (hparts q (hrem.mem (List.mem_cons_of_mem part hq))).2.1 w hwq
    have hpos : 0 < part.length := List.length_pos_iff.mpr hne
    have hlonger := length_le_spelled part (spelled rem.flatten rest)
    dsimp only
    rw [List.flatten_cons, spelled_append]
    refine ⟨by omega, (hreads _ hflush).imp ?_⟩
    rintro y rfl ys rfl
    rfl
  refine (reads_many_items hitems hend rfl).imp ?_
  rintro y ⟨ys, rfl, rfl⟩
  rfl

theorem leadsTo_many {text : List Char} (hp : p.LeadsTo N text (· = text)) :
    (many p).LeadsTo N text (· = text) := by
  intro n hn stack c seen hc y c' s hr
  have hmany : ∀ limit c seen, c.At text → ∀ {ys c' s},
      readMany (p.read .usual (Rule.read .usual n) stack) stack limit c seen = .done ys c' s → c'.At text := by
    intro limit
    induction limit with
    | zero =>
      rintro c seen hc ys c' s ⟨⟩
      exact hc
    | succ limit ih =>
      intro c seen hc ys c' s hr
      simp only [readMany] at hr
      split at hr
      · cases hr
        exact hc
      next z c₁ s₁ hk =>
        obtain ⟨_, rfl, hc₁⟩ := hp n hn stack c seen hc hk
        split at hr
        · cases hr
        · split at hr
          next zs c₂ s₂ hl =>
            cases hr
            exact ih c₁ s₁ hc₁ hl
          · cases hr
  obtain ⟨ys, c₁, s₁, hk, ⟨⟩⟩ := done_of_andThen (read_many.symm.trans hr)
  exact ⟨text, rfl, hmany _ c seen hc hk⟩

end Repetitions

/-! ### What a phrase begins with -/

/-- The words that a phrase may begin with. If it is optional, it can also be read without any of them, and then
nothing is read at all. -/
structure Opening where
  words : List (List Char)
  isOptional : Bool

/-- What a phrase begins with, given what rules begin with. It is not known where a captured text comes first. -/
def opening (rule : Rule → Option Opening) : Phrase → Option Opening
  | empty => some ⟨[], true⟩
  | token letters => some ⟨[letters], false⟩
  | call r => rule r
  | seq p q =>
    (p.opening rule).bind fun o =>
      if o.isOptional then (q.opening rule).map fun o' => ⟨o.words ++ o'.words, o'.isOptional⟩ else some o
  | alt p q =>
    (p.opening rule).bind fun o => (q.opening rule).map fun o' =>
      ⟨o.words ++ o'.words, o.isOptional || o'.isOptional⟩
  | opt p | many p => (p.opening rule).map fun o => ⟨o.words, true⟩
  | expect _ p | label _ p => p.opening rule
  | pattern _ | endOfText | many1 _ | notAhead _ | gather _ => none

/-- None of the words can be read at the word `w`. -/
def Opening.Misses (o : Opening) (w : List Char) : Prop := ∀ t ∈ o.words, isProper t = true ∧ fits t w = false

/-- Where none of the words that a phrase may begin with comes next, nothing of it is read. -/
theorem leadsTo_of_opening {rule : Rule → Option Opening} {w more : List Char} (hm : Apart more)
    (hrule : ∀ r o, rule r = some o → o.Misses w →
      (call r).LeadsTo 0 (w ++ more) fun rest => o.isOptional = true ∧ rest = w ++ more)
    (p : Phrase) : ∀ {o : Opening}, p.opening rule = some o → o.Misses w →
      p.LeadsTo 0 (w ++ more) fun rest => o.isOptional = true ∧ rest = w ++ more := by
  induction p with
  | empty =>
    rintro _ ⟨⟩ _ n hn stack c seen hc y c' s hr
    cases hr
    exact ⟨_, ⟨rfl, rfl⟩, hc⟩
  | token letters =>
    rintro _ ⟨⟩ hmiss
    obtain ⟨hproper, hfits⟩ := hmiss letters List.mem_cons_self
    exact (refuses_token (hm.closes hproper) hfits).leadsTo
  | call r => exact hrule r _
  | seq p q ihp ihq =>
    intro o ho hmiss
    obtain ⟨o₁, ho₁, ho⟩ := Option.bind_eq_some_iff.mp ho
    split at ho
    · obtain ⟨o₂, ho₂, rfl⟩ := Option.map_eq_some_iff.mp ho
      have hp := ihp ho₁ fun t ht => hmiss t (List.mem_append_left _ ht)
      have hq := ihq ho₂ fun t ht => hmiss t (List.mem_append_right _ ht)
      exact leadsTo_seq hp fun t ht => ht.2 ▸ hq
    next hopt =>
      cases ho
      exact leadsTo_seq (ihp ho₁ hmiss) fun t ht => absurd ht.1 hopt
  | alt p q ihp ihq =>
    intro o ho hmiss
    obtain ⟨o₁, ho₁, ho⟩ := Option.bind_eq_some_iff.mp ho
    obtain ⟨o₂, ho₂, rfl⟩ := Option.map_eq_some_iff.mp ho
    have hp := ihp ho₁ fun t ht => hmiss t (List.mem_append_left _ ht)
    have hq := ihq ho₂ fun t ht => hmiss t (List.mem_append_right _ ht)
    refine leadsTo_alt (hp.imp fun t ht => ⟨?_, ht.2⟩) (hq.imp fun t ht => ⟨?_, ht.2⟩)
    · rw [ht.1]; rfl
    · rw [ht.1]; exact Bool.or_true _
  | expect expected p ih =>
    intro o ho hmiss
    exact leadsTo_expect (ih ho hmiss)
  | opt p ih =>
    intro o ho hmiss
    obtain ⟨o₁, ho₁, rfl⟩ := Option.map_eq_some_iff.mp ho
    exact leadsTo_opt ((ih ho₁ hmiss).imp fun t ht => ⟨rfl, ht.2⟩) ⟨rfl, rfl⟩
  | many p ih =>
    intro o ho hmiss
    obtain ⟨o₁, ho₁, rfl⟩ := Option.map_eq_some_iff.mp ho
    exact (leadsTo_many ((ih ho₁ hmiss).imp fun t ht => ht.2)).imp fun t ht => ⟨rfl, ht⟩
  | label f p ih =>
    intro o ho hmiss
    exact leadsTo_label (ih ho hmiss)
  | pattern _ | endOfText | many1 _ _ | notAhead _ _ | gather _ _ => rintro _ ⟨⟩

/-- What a rule begins with, if it can be told from a few rules nested in it. -/
def ruleOpening : Nat → Rule → Option Opening
  | 0, _ => none
  | depth + 1, r => r.body.opening (ruleOpening depth)

theorem leadsTo_of_ruleOpening {w more : List Char} (hm : Apart more) (depth : Nat) (r : Rule) (o : Opening)
    (ho : ruleOpening depth r = some o) (hmiss : o.Misses w) :
    (call r).LeadsTo 0 (w ++ more) fun rest => o.isOptional = true ∧ rest = w ++ more := by
  induction depth generalizing r o with
  | zero => cases ho
  | succ depth ih => exact leadsTo_call rfl (leadsTo_of_opening hm ih r.body ho hmiss)

/-- The phrase does not begin with any of the words. -/
def isShut (p : Phrase) (ws : List (List Char)) : Bool :=
  match p.opening (ruleOpening 5) with
  | some o => !o.isOptional && areApart o.words ws
  | none => false

/-- A phrase is refused at once where none of the words it may begin with comes next. -/
theorem refuses_of_isShut {N : Nat} {p : Phrase} {ws : List (List Char)} (h : p.isShut ws = true) {w : List Char}
    (hw : w ∈ ws) (hproper : isProper w = true) {more : List Char} (hm : Apart more) :
    p.Refuses N (w ++ more) := by
  unfold isShut at h
  split at h
  next o ho =>
    simp only [Bool.and_eq_true, Bool.not_eq_true'] at h
    have hleads :=
      leadsTo_of_opening hm (leadsTo_of_ruleOpening hm 5) p ho fun t ht => fits_of_areApart h.2 ht hw hproper
    refine (hleads.imp fun rest hrest => ?_).mono (Nat.zero_le N)
    rw [h.1] at hrest
    cases hrest.1
  · cases h

end Phrase

/-! ### Rules -/

section Rules

open Phrase

variable {N M : Nat} {r q : Rule} {rs : List Rule} {expected : List Expected} {text rest : List Char}
    {P Q : Tree → Prop}
  {E : List Char → Prop}

/-- The rule can be read, and its tree is as `P` says. -/
def Rule.Reads (N : Nat) (r : Rule) (text rest : List Char) (P : Tree → Prop) : Prop :=
  (call r).Reads N text rest fun y => ∃ t, P t ∧ y = .one t

theorem Rule.Reads.mono (h : r.Reads N text rest P) (hN : N ≤ M) : r.Reads M text rest P := Phrase.Reads.mono h hN

theorem Rule.Reads.imp (h : r.Reads N text rest P) (himp : ∀ t, P t → Q t) : r.Reads N text rest Q := by
  refine Phrase.Reads.imp h ?_
  rintro y ⟨t, ht, hy⟩
  exact ⟨t, himp t ht, hy⟩

theorem leadsTo_rules (h : ∀ q ∈ rs, (call q).LeadsTo N text E) :
    (oneOf (rs.map call) expected).LeadsTo N text E := by
  refine leadsTo_oneOf fun p hp => ?_
  obtain ⟨q, hq, rfl⟩ := List.mem_map.mp hp
  exact h q hq

theorem reads_rules (before after : List Rule) (hrs : rs = before ++ q :: after)
    (hbefore : ∀ b ∈ before, (call b).Refuses N text) (hq : q.Reads N text rest P) :
    (oneOf (rs.map call) expected).Reads N text rest fun y => ∃ t, P t ∧ y = .one t := by
  refine reads_oneOf (before.map call) (after.map call) (by simp [hrs]) (fun p hp => ?_) hq
  obtain ⟨b, hb, rfl⟩ := List.mem_map.mp hp
  exact hbefore b hb

theorem reads_firstRule (hq : q.Reads N text rest P) :
    (oneOf ((q :: rs).map call) expected).Reads N text rest fun y => ∃ t, P t ∧ y = .one t := reads_firstOption hq

theorem reads_secondRule {b : Rule} (hb : (call b).Refuses N text) (hq : q.Reads N text rest P) :
    (oneOf ((b :: q :: rs).map call) expected).Reads N text rest fun y => ∃ t, P t ∧ y = .one t :=
  reads_secondOption hb hq

/-- A rule that is a choice of rules hands on the tree of the one that is read. -/
theorem reads_of_choice (hbody : r.body = oneOf (rs.map call) expected) (hfields : r.fields = [])
    (before after : List Rule) (hrs : rs = before ++ q :: after) (hbefore : ∀ b ∈ before, (call b).Refuses N text)
    (hq : q.Reads N text rest P) :
    r.Reads (N + 1) text rest P := by
  refine (reads_call hbody (reads_rules before after hrs hbefore hq)).imp ?_
  rintro y ⟨u, span, ⟨t, ht, rfl⟩, rfl⟩
  refine ⟨t, ht, ?_⟩
  rw [Yield.ruleTree, hfields]
  rfl

theorem reads_of_firstChoice (hbody : r.body = oneOf ((q :: rs).map call) expected) (hfields : r.fields = [])
    (hq : q.Reads N text rest P) : r.Reads (N + 1) text rest P :=
  reads_of_choice hbody hfields [] rs rfl (List.forall_mem_nil _) hq

theorem reads_of_secondChoice {b : Rule} (hbody : r.body = oneOf ((b :: q :: rs).map call) expected)
    (hfields : r.fields = []) (hb : (call b).Refuses N text) (hq : q.Reads N text rest P) :
    r.Reads (N + 1) text rest P :=
  reads_of_choice hbody hfields [b] rs rfl (List.forall_mem_singleton.mpr hb) hq

theorem leadsTo_of_choice (hbody : r.body = oneOf (rs.map call) expected)
    (h : ∀ q ∈ rs, (call q).LeadsTo (N - 1) text E) :
    (call r).LeadsTo N text E := leadsTo_call hbody (leadsTo_rules h)

/-! ### Whole texts -/

theorem at_start (hflush : Flush text) : (Cursor.start text).At text := at_of_rest rfl hflush

/-- A text that is read by a rule, once blanks are skipped, has a tree. -/
theorem parse_of_reads_skipped (h : r.Reads N (text.dropWhile isBlank) rest P) (hN : N ≤ callDepth text) :
    ∃ t, parse r text = .ok t ∧ P t := by
  obtain ⟨y, c, s, hread, -, t, ht, rfl⟩ := h (callDepth text) hN [] (Cursor.start text) none (at_of_rest rfl rfl)
  obtain ⟨t', c', s', hrule, heq⟩ := done_of_andThen (read_call.symm.trans hread)
  obtain rfl : t' = t := by
    injection heq with heq
    injection heq with heq
    injection heq
  refine ⟨t', ?_, ht⟩
  rw [parse, readRule, hrule]
  rfl

/-- A text that is read by a rule has a tree. -/
theorem parse_of_reads (h : r.Reads N text rest P) (hflush : Flush text) (hN : N ≤ callDepth text) :
    ∃ t, parse r text = .ok t ∧ P t := by
  rw [← hflush] at h
  exact parse_of_reads_skipped h hN

/-- A text that a rule refuses has none. -/
theorem parse_of_refuses (h : (call r).Refuses N text) (hflush : Flush text) (hN : N ≤ callDepth text) :
    ∃ e, parse r text = .error e := by
  obtain ⟨e, s, hread⟩ := Phrase.Refuses.failed h hN [] none (at_start hflush)
  rw [read_call] at hread
  cases hrule : Rule.read .usual (callDepth text) [] r (Cursor.start text) none with
  | done t c s =>
    rw [hrule] at hread
    cases hread
  | failed e s =>
    rw [parse, readRule, hrule]
    exact ⟨_, rfl⟩

end Rules

end Playhouse.Grammar
