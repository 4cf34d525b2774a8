import Mathlib.Tactic.Ring
import Mathlib.Tactic.Linarith
import Playhouse.Proofs.Evaluation

/-!
# Playhouse.Proofs.Limits — where arithmetic breaks down

Integers have no bounds, but factorials, roots, quotients, remainders and numerals do not take all of them. The
limits are said here as bounds on exact integers: what is rounded to the least power of two that is too large for
floating point, and what has too many digits. Main statements: `Expression.evaluate_breakdown_iff` and
`readNumeral_breakdown_iff`.
-/

namespace Playhouse.Number

open Text

/-! ### Rounding -/

/-- The least integer that is rounded to a value too large for floating point: it lies halfway between that value
and the largest value below, and a half is rounded to the even neighbour. -/
def floatBound : Nat := doubleBound - 2 ^ 970

theorem le_roundHalfEven (num den : Nat) : num / den ≤ roundHalfEven num den := by
  unfold roundHalfEven
  dsimp only
  split_ifs <;> omega

theorem roundHalfEven_le (num den : Nat) : roundHalfEven num den ≤ num / den + 1 := by
  unfold roundHalfEven
  dsimp only
  split_ifs <;> omega

/-- An even number is reached from halfway below on. -/
theorem even_le_roundHalfEven_iff {num den k : Nat} (hden : 0 < den) (hk : 0 < k) (heven : k % 2 = 0) :
    k ≤ roundHalfEven num den ↔ (2 * k - 1) * den ≤ 2 * num := by
  have hnum : den * (num / den) + num % den = num := Nat.div_add_mod num den
  have hrest : num % den < den := Nat.mod_lt num hden
  have hlower := le_roundHalfEven num den
  have hupper := roundHalfEven_le num den
  rcases Nat.lt_trichotomy k (num / den + 1) with hlt | heq | hgt
  · have hprod : (2 * k - 1) * den ≤ 2 * (den * (num / den)) := by
      calc (2 * k - 1) * den ≤ (2 * (num / den)) * den := Nat.mul_le_mul_right den (by omega)
        _ = 2 * (den * (num / den)) := by ring
    omega
  · have hprod : (2 * k - 1) * den = 2 * (den * (num / den)) + den := by
      rw [show 2 * k - 1 = 2 * (num / den) + 1 by omega]
      ring
    unfold roundHalfEven
    dsimp only
    split_ifs <;> omega
  · have hprod : 2 * (den * (num / den)) + 3 * den ≤ (2 * k - 1) * den := by
      calc 2 * (den * (num / den)) + 3 * den = (2 * (num / den) + 3) * den := by ring
        _ ≤ (2 * k - 1) * den := Nat.mul_le_mul_right den (by omega)
    omega

/-- A quotient between `2 ^ e` and `2 ^ (e + 1)` is rounded to `s + 1` significant bits. This reaches
`2 ^ (t + s + 2)` from `2 ^ (t + s + 2) - 2 ^ t` on. -/
theorem two_pow_le_rounded_iff {a b e s t : Nat} (hb : 0 < b) (he : s ≤ e) (hlower : 2 ^ e * b ≤ a)
    (hupper : a < 2 ^ (e + 1) * b) :
    2 ^ (t + s + 2) ≤ roundHalfEven a (b * 2 ^ (e - s)) * 2 ^ (e - s) ↔ (2 ^ (t + s + 2) - 2 ^ t) * b ≤ a := by
  obtain ⟨k, rfl⟩ : ∃ k, e = k + s := ⟨e - s, by omega⟩
  rw [Nat.add_sub_cancel]
  have hs : 0 < 2 ^ s := Nat.two_pow_pos s
  have hkpos : 0 < 2 ^ k := Nat.two_pow_pos k
  have htpos : 0 < 2 ^ t := Nat.two_pow_pos t
  have hden : 0 < b * 2 ^ k := Nat.mul_pos hb hkpos
  have hquot : a / (b * 2 ^ k) < 2 * 2 ^ s := by
    rw [Nat.div_lt_iff_lt_mul hden]
    calc a < 2 ^ (k + s + 1) * b := hupper
      _ = 2 * 2 ^ s * (b * 2 ^ k) := by ring
  have hquot' : 2 ^ s ≤ a / (b * 2 ^ k) := by
    rw [Nat.le_div_iff_mul_le hden]
    calc 2 ^ s * (b * 2 ^ k) = 2 ^ (k + s) * b := by ring
      _ ≤ a := hlower
  have hround := le_roundHalfEven a (b * 2 ^ k)
  have hround' := roundHalfEven_le a (b * 2 ^ k)
  have hexp : 2 ^ (t + s + 2) = 4 * 2 ^ s * 2 ^ t := by ring
  have hgap : 2 ^ (t + s + 2) - 2 ^ t = (4 * 2 ^ s - 1) * 2 ^ t := by
    rw [hexp, Nat.sub_mul, Nat.one_mul]
  rw [hgap]
  rcases Nat.lt_trichotomy k (t + 1) with hlt | rfl | hgt
  · -- all of these quotients, and what they are rounded to, stay below
    have hkt : 2 ^ k ≤ 2 ^ t := Nat.pow_le_pow_right (by omega) (by omega)
    constructor
    · intro h
      have hle : roundHalfEven a (b * 2 ^ k) * 2 ^ k ≤ 2 * 2 ^ s * 2 ^ t := Nat.mul_le_mul (by omega) hkt
      have hpos : 0 < 2 ^ s * 2 ^ t := Nat.mul_pos hs htpos
      rw [hexp] at h
      linarith
    · intro h
      have hfar : 2 * 2 ^ s * 2 ^ t * b ≤ (4 * 2 ^ s - 1) * 2 ^ t * b :=
        Nat.mul_le_mul_right _ (Nat.mul_le_mul_right _ (by omega))
      have hnear : 2 ^ (k + s + 1) * b ≤ 2 * 2 ^ s * 2 ^ t * b := by
        calc 2 ^ (k + s + 1) * b = 2 * 2 ^ s * 2 ^ k * b := by ring
          _ ≤ 2 * 2 ^ s * 2 ^ t * b := Nat.mul_le_mul_right _ (Nat.mul_le_mul_left _ hkt)
      omega
  · have heven : 2 * 2 ^ s ≤ roundHalfEven a (b * 2 ^ (t + 1)) ↔
        (2 * (2 * 2 ^ s) - 1) * (b * 2 ^ (t + 1)) ≤ 2 * a :=
      even_le_roundHalfEven_iff hden (by omega) (by omega)
    have hleft : 2 ^ (t + s + 2) = 2 * 2 ^ s * 2 ^ (t + 1) := by ring
    have hright : (2 * (2 * 2 ^ s) - 1) * (b * 2 ^ (t + 1)) = 2 * ((4 * 2 ^ s - 1) * 2 ^ t * b) := by
      rw [show 2 * (2 * 2 ^ s) = 4 * 2 ^ s by omega]
      ring
    rw [hleft, Nat.mul_le_mul_right_iff hkpos, heven, hright]
    omega
  · -- all of these quotients, and what they are rounded to, are beyond
    have hlarge : 2 ^ (t + s + 2) ≤ 2 ^ (k + s) := Nat.pow_le_pow_right (by omega) (by omega)
    constructor
    · intro _
      calc (4 * 2 ^ s - 1) * 2 ^ t * b ≤ 2 ^ (k + s) * b := Nat.mul_le_mul_right _ (by omega)
        _ ≤ a := hlower
    · intro _
      calc 2 ^ (t + s + 2) ≤ 2 ^ s * 2 ^ k := by rw [← Nat.pow_add, Nat.add_comm s k]; exact hlarge
        _ ≤ roundHalfEven a (b * 2 ^ k) * 2 ^ k := Nat.mul_le_mul_right _ (by omega)

theorem two_pow_le_gap (s t : Nat) : 2 ^ (s + 1) ≤ 2 ^ (t + s + 2) - 2 ^ t := by
  have hs : 0 < 2 ^ s := Nat.two_pow_pos s
  have ht : 0 < 2 ^ t := Nat.two_pow_pos t
  calc 2 ^ (s + 1) = 2 * 2 ^ s * 1 := by ring
    _ ≤ (4 * 2 ^ s - 1) * 2 ^ t := Nat.mul_le_mul (by omega) ht
    _ = 2 ^ (t + s + 2) - 2 ^ t := by
        rw [show 2 ^ (t + s + 2) = 4 * 2 ^ s * 2 ^ t by ring, Nat.sub_mul, Nat.one_mul]

theorem doubleBound_eq : doubleBound = 2 ^ (970 + 52 + 2) := by
  unfold doubleBound
  apply congrArg
  rfl

theorem floatBound_eq : floatBound = 2 ^ (970 + 52 + 2) - 2 ^ 970 := by
  unfold floatBound
  rw [doubleBound_eq]

theorem two_pow_53_le_floatBound : 2 ^ 53 ≤ floatBound := by
  rw [floatBound_eq]
  exact two_pow_le_gap 52 970

theorem two_pow_53_lt_doubleBound : 2 ^ 53 + 1 < doubleBound := by
  have hlt := two_pow_le_gap 53 969
  rw [doubleBound_eq]
  omega

theorem doubleBound_le_rounded_iff {a b e : Nat} (hb : 0 < b) (he : 52 ≤ e) (hlower : 2 ^ e * b ≤ a)
    (hupper : a < 2 ^ (e + 1) * b) :
    doubleBound ≤ roundHalfEven a (b * 2 ^ (e - 52)) * 2 ^ (e - 52) ↔ floatBound * b ≤ a := by
  rw [doubleBound_eq, floatBound_eq]
  exact two_pow_le_rounded_iff hb he hlower hupper

theorem bounded?_eq_none_iff {n : Nat} : bounded? n = none ↔ doubleBound ≤ n := by
  unfold bounded?
  generalize doubleBound = bound
  split <;> simp <;> omega

/-- There is no floating point number near the integers from `floatBound` on. -/
theorem nearest?_eq_none_iff {n : Nat} : nearest? n = none ↔ floatBound ≤ n := by
  have hupper : n < 2 ^ (n.log2 + 1) := Nat.lt_log2_self
  have hfloat := two_pow_53_le_floatBound
  have hdouble := two_pow_53_lt_doubleBound
  unfold nearest? roundNat
  rw [bounded?_eq_none_iff]
  simp only [Nat.pow_eq]
  split
  · next he =>
    have hsmall : n < 2 ^ 53 := Nat.lt_of_lt_of_le hupper (Nat.pow_le_pow_right (by omega) (by omega))
    omega
  · next he =>
    have hn : n ≠ 0 := by
      rintro rfl
      exact he (by simp)
    have hlower : 2 ^ n.log2 ≤ n := Nat.log2_self_le hn
    have hiff := doubleBound_le_rounded_iff (a := n) (b := 1) (e := n.log2) Nat.one_pos (by omega)
      (by rw [Nat.mul_one]; exact hlower) (by rw [Nat.mul_one]; exact hupper)
    rw [Nat.one_mul, Nat.mul_one] at hiff
    exact hiff

/-- A quotient is too large for floating point if it is at least `floatBound`. -/
theorem bounded?_roundedQuotient_eq_none_iff {a b : Nat} (hb : 0 < b) :
    bounded? (roundedQuotient a b) = none ↔ floatBound * b ≤ a := by
  have hfloat : 2 ^ 53 * b ≤ floatBound * b := Nat.mul_le_mul_right b two_pow_53_le_floatBound
  have hdouble := two_pow_53_lt_doubleBound
  rw [bounded?_eq_none_iff]
  unfold roundedQuotient
  simp only [Nat.pow_eq]
  split
  · next hab =>
    have hround := roundHalfEven_le (a * 2 ^ 53) b
    have hquot : a * 2 ^ 53 / b < 2 ^ 53 := by
      rw [Nat.div_lt_iff_lt_mul hb, Nat.mul_comm]
      exact Nat.mul_lt_mul_of_pos_left hab (Nat.two_pow_pos 53)
    have hcut := Nat.div_le_self (roundHalfEven (a * 2 ^ 53) b) (2 ^ 53)
    have hfar : b ≤ 2 ^ 53 * b := Nat.le_mul_of_pos_left b (Nat.two_pow_pos 53)
    omega
  · next hab =>
    have hne : a / b ≠ 0 := Nat.pos_iff_ne_zero.mp (Nat.div_pos (by omega) hb)
    have hlower : 2 ^ (a / b).log2 * b ≤ a := (Nat.le_div_iff_mul_le hb).mp (Nat.log2_self_le hne)
    have hupper : a < 2 ^ ((a / b).log2 + 1) * b := (Nat.div_lt_iff_lt_mul hb).mp Nat.lt_log2_self
    generalize (a / b).log2 = e at hlower hupper
    split
    · next he =>
      have hround := roundHalfEven_le (a * 2 ^ (52 - e)) b
      have hexp : 2 ^ (e + 1) * 2 ^ (52 - e) = 2 ^ 53 := by rw [← Nat.pow_add, show e + 1 + (52 - e) = 53 by omega]
      have hquot : a * 2 ^ (52 - e) / b < 2 ^ 53 := by
        rw [Nat.div_lt_iff_lt_mul hb]
        calc a * 2 ^ (52 - e) < 2 ^ (e + 1) * b * 2 ^ (52 - e) :=
              Nat.mul_lt_mul_of_pos_right hupper (Nat.two_pow_pos _)
          _ = 2 ^ (e + 1) * 2 ^ (52 - e) * b := Nat.mul_right_comm _ _ _
          _ = 2 ^ 53 * b := by rw [hexp]
      have hcut := Nat.div_le_self (roundHalfEven (a * 2 ^ (52 - e)) b) (2 ^ (52 - e))
      have hnear : 2 ^ (e + 1) * b ≤ 2 ^ 53 * b :=
        Nat.mul_le_mul_right b (Nat.pow_le_pow_right (by omega) (by omega))
      omega
    · next he => exact doubleBound_le_rounded_iff hb (by omega) hlower hupper

/-! ### Operations -/

/-- The operation does not take the operand. An operand that is negative is told in an error, if it has a
numeral. -/
def UnaryOperator.Overwhelmed : UnaryOperator → Int → Breakdown → Prop
  | factorial, n, b => (0 ≤ n ∧ factorialLimit < n.natAbs ∧ b = .factorialTooLarge) ∨
      (n < 0 ∧ numeralBound ≤ n.natAbs ∧ b = .numeralTooLong)
  | squareRoot, n, b => (0 ≤ n ∧ floatBound ≤ n.natAbs ∧ b = .tooLargeForFloat) ∨
      (n < 0 ∧ numeralBound ≤ n.natAbs ∧ b = .numeralTooLong)
  | cube, _, _ | square, _, _ | twice, _, _ => False

/-- The operation does not take the operands. -/
def BinaryOperator.Overwhelmed : BinaryOperator → Int → Int → Breakdown → Prop
  | quotient, m, n, b => n ≠ 0 ∧ floatBound * n.natAbs ≤ m.natAbs ∧ b = .quotientTooLarge
  | remainder, m, n, b => n ≠ 0 ∧ (floatBound ≤ m.natAbs ∨ floatBound ≤ n.natAbs) ∧ b = .tooLargeForFloat
  | difference, _, _, _ | product, _, _, _ | sum, _, _, _ => False

theorem errorAbout_breakdown_iff {n : Int} {cause : Cause} {b : Breakdown} :
    errorAbout n cause = .breakdown b ↔ numeralBound ≤ n.natAbs ∧ b = .numeralTooLong := by
  unfold errorAbout numeral
  generalize numeralBound = bound
  by_cases h : n.natAbs < bound
  · rw [if_pos h]
    simp only [reduceCtorEq, false_iff, not_and]
    omega
  · rw [if_neg h]
    simp only [Fault.breakdown.injEq, Nat.not_lt.mp h, true_and]
    exact eq_comm

theorem factorial_breakdown_iff {n : Int} {b : Breakdown} :
    factorial n = .error (.breakdown b) ↔ UnaryOperator.factorial.Overwhelmed n b := by
  simp only [factorial, UnaryOperator.Overwhelmed]
  generalize factorialLimit = limit
  by_cases hn : n < 0
  · rw [if_pos hn, Except.error.injEq, errorAbout_breakdown_iff]
    simp only [show ¬ 0 ≤ n by omega, hn, false_and, true_and, false_or]
  · rw [if_neg hn]
    by_cases hl : limit < n.natAbs
    · rw [if_pos hl]
      simp only [Except.error.injEq, Fault.breakdown.injEq,
        show 0 ≤ n by omega, hl, hn, true_and, false_and, or_false]
      exact eq_comm
    · rw [if_neg hl]
      simp only [reduceCtorEq, hl, hn, false_and, and_false, or_false]

theorem squareRoot_breakdown_iff {n : Int} {b : Breakdown} :
    squareRoot n = .error (.breakdown b) ↔ UnaryOperator.squareRoot.Overwhelmed n b := by
  simp only [squareRoot, UnaryOperator.Overwhelmed, ← nearest?_eq_none_iff]
  by_cases hn : n < 0
  · rw [if_pos hn, Except.error.injEq, errorAbout_breakdown_iff]
    simp only [show ¬ 0 ≤ n by omega, hn, false_and, true_and, false_or]
  · rw [if_neg hn]
    cases nearest? n.natAbs with
    | some m => simp only [reduceCtorEq, hn, false_and, and_false, or_false]
    | none =>
      simp only [Except.error.injEq, Fault.breakdown.injEq, show 0 ≤ n by omega, hn, true_and, false_and, or_false]
      exact eq_comm

theorem quotient_breakdown_iff {m n : Int} {b : Breakdown} :
    quotient m n = .error (.breakdown b) ↔ BinaryOperator.quotient.Overwhelmed m n b := by
  simp only [quotient, BinaryOperator.Overwhelmed]
  by_cases hn : n = 0
  · rw [if_pos hn]
    simp only [Except.error.injEq, reduceCtorEq, hn, ne_eq, not_true_eq_false, false_and]
  · rw [if_neg hn, ← bounded?_roundedQuotient_eq_none_iff (Int.natAbs_pos.mpr hn)]
    cases bounded? (roundedQuotient m.natAbs n.natAbs) with
    | some q => simp only [reduceCtorEq, false_and, and_false]
    | none =>
      simp only [Except.error.injEq, Fault.breakdown.injEq, ne_eq, hn, not_false_eq_true, true_and]
      exact eq_comm

theorem nearest_cases (n : Int) :
    (floatBound ≤ n.natAbs ∧ nearest n = .error (.breakdown .tooLargeForFloat)) ∨
      (¬ floatBound ≤ n.natAbs ∧ ∃ m, nearest n = .ok m) := by
  unfold nearest
  rw [← nearest?_eq_none_iff]
  cases nearest? n.natAbs with
  | none => exact .inl ⟨rfl, rfl⟩
  | some m => exact .inr ⟨nofun, _, rfl⟩

theorem remainder_breakdown_iff {m n : Int} {b : Breakdown} :
    remainder m n = .error (.breakdown b) ↔ BinaryOperator.remainder.Overwhelmed m n b := by
  simp only [remainder, BinaryOperator.Overwhelmed]
  by_cases hn : n = 0
  · rw [if_pos hn]
    simp only [Except.error.injEq, reduceCtorEq, hn, ne_eq, not_true_eq_false, false_and]
  · rw [if_neg hn]
    have hb : Breakdown.tooLargeForFloat = b ↔ b = .tooLargeForFloat := eq_comm
    rcases nearest_cases m with ⟨hm, hx⟩ | ⟨hm, x, hx⟩
    · rw [hx]
      simp only [Except.error.injEq, Fault.breakdown.injEq, ne_eq, hn, hm, not_false_eq_true, true_or,
        true_and, hb]
    · rw [hx]
      rcases nearest_cases n with ⟨hn', hy⟩ | ⟨hn', y, hy⟩
      · rw [hy]
        simp only [Except.error.injEq, Fault.breakdown.injEq, ne_eq, hn, hn', not_false_eq_true, or_true,
          true_and, hb]
      · rw [hy]
        simp only [reduceCtorEq, hm, hn', or_self, false_and, and_false]

theorem UnaryOperator.apply_breakdown_iff {op : UnaryOperator} {n : Int} {b : Breakdown} :
    op.apply n = .error (.breakdown b) ↔ op.Overwhelmed n b := by
  cases op with
  | factorial => simp only [apply, factorial_breakdown_iff]
  | squareRoot => simp only [apply, squareRoot_breakdown_iff]
  | cube | square | twice => exact ⟨nofun, False.elim⟩

theorem BinaryOperator.apply_breakdown_iff {op : BinaryOperator} {m n : Int} {b : Breakdown} :
    op.apply m n = .error (.breakdown b) ↔ op.Overwhelmed m n b := by
  cases op with
  | quotient => simp only [apply, quotient_breakdown_iff]
  | remainder => simp only [apply, remainder_breakdown_iff]
  | difference | product | sum => exact ⟨nofun, False.elim⟩

/-! ### Numerals -/

/-- The decimal digits at the beginning of a run of digit characters. -/
def decimals (digits : List Char) : List Char := digits.takeWhile fun c => (digitValue? c).isSome

/-- No number can be read from a run of digit characters: too many of them are decimal digits, or not all are. -/
def Illegible (digits : List Char) (b : Breakdown) : Prop :=
  (digitLimit < (decimals digits).length ∧ b = .numeralTooLongToRead (decimals digits).length) ∨
    ((decimals digits).length ≤ digitLimit ∧ decimals digits ≠ digits ∧
      b = .unreadableNumeral (String.ofList digits))

theorem not_inRanges_of_apart {rs ss : List (Nat × Nat)} (h : ∀ r ∈ rs, ∀ s ∈ ss, r.2 < s.1 ∨ s.2 < r.1) {n : Nat}
    (hn : inRanges rs n = true) : inRanges ss n = false := by
  rw [Bool.eq_false_iff]
  intro hs
  obtain ⟨r, hr, hrn⟩ := inRanges_eq_true_iff.mp hn
  obtain ⟨s, hs, hsn⟩ := inRanges_eq_true_iff.mp hs
  have := h r hr s hs
  omega

/-- The ranges of all digit characters. -/
def digitRanges : List (Nat × Nat) := zeros.map (fun z => (z, z + 9)) ++ ornamentalDigitRanges

theorem inRanges_of_isDigitChar {c : Char} (h : isDigitChar c = true) : inRanges digitRanges c.toNat = true := by
  rw [inRanges_eq_true_iff]
  unfold isDigitChar at h
  rcases (Bool.or_eq_true _ _).mp h with hvalue | hornamental
  · unfold digitValue? at hvalue
    rw [Option.isSome_map] at hvalue
    obtain ⟨z, hz⟩ := Option.isSome_iff_exists.mp hvalue
    have hfound := List.find?_some hz
    simp only [Bool.and_eq_true, decide_eq_true_eq] at hfound
    have hmem : (z, z + 9) ∈ digitRanges :=
      List.mem_append_left _ (List.mem_map_of_mem (f := fun z => (z, z + 9)) (List.mem_of_find?_eq_some hz))
    exact ⟨(z, z + 9), hmem, hfound.1, by omega⟩
  · obtain ⟨r, hr, hrn⟩ := inRanges_eq_true_iff.mp hornamental
    exact ⟨r, List.mem_append_right _ hr, hrn⟩

/-- A digit character is no blank, no sign and no underscore. -/
theorem not_blank_of_isDigitChar {c : Char} (h : isDigitChar c = true) : isNumeralBlank c = false := by
  have hapart : isBlank c = false := not_inRanges_of_apart (by decide +kernel) (inRanges_of_isDigitChar h)
  unfold isNumeralBlank
  rw [hapart, Bool.false_and]

theorem ne_of_isDigitChar {c d : Char} (h : isDigitChar c = true) (hd : isDigitChar d = false) : c ≠ d := by
  rintro rfl
  rw [h] at hd
  cases hd

theorem splitSign_of_digits {digits : List Char} (h : ∀ c ∈ digits, isDigitChar c = true) :
    splitSign (digits.dropWhile isNumeralBlank) = (false, digits) := by
  cases digits with
  | nil => rfl
  | cons c cs =>
    have hc := h c List.mem_cons_self
    rw [List.dropWhile_cons_of_neg (by rw [not_blank_of_isDigitChar hc]; decide)]
    have hminus : c ≠ '-' := ne_of_isDigitChar hc (by decide)
    have hplus : c ≠ '+' := ne_of_isDigitChar hc (by decide)
    unfold splitSign
    split
    · next heq => exact absurd (List.cons.inj heq).1 hminus
    · next heq => exact absurd (List.cons.inj heq).1 hplus
    · rfl

/-- After a digit, the decimal digits are taken as far as they go. -/
theorem scanDigits_of_digits {digits : List Char} (h : ∀ c ∈ digits, isDigitChar c = true) :
    ∃ ds, scanDigits true digits = some (ds, digits.dropWhile fun c => (digitValue? c).isSome) ∧
      ds.length = (decimals digits).length := by
  unfold decimals
  induction digits with
  | nil => exact ⟨[], rfl, rfl⟩
  | cons c cs ih =>
    obtain ⟨hc, hcs⟩ := List.forall_mem_cons.mp h
    unfold scanDigits
    cases hvalue : digitValue? c with
    | some d =>
      obtain ⟨ds, hscan, hlength⟩ := ih hcs
      refine ⟨d :: ds, ?_, ?_⟩
      · rw [List.dropWhile_cons_of_pos (by rw [hvalue]; rfl), hscan]
        rfl
      · rw [List.takeWhile_cons_of_pos (by rw [hvalue]; rfl), List.length_cons, List.length_cons, hlength]
    | none =>
      have hunderscore : c ≠ '_' := ne_of_isDigitChar hc (by decide)
      refine ⟨[], ?_, ?_⟩
      · rw [List.dropWhile_cons_of_neg (by rw [hvalue]; decide)]
        simp only [Bool.not_true, Bool.false_eq_true, if_false, if_neg hunderscore]
      · rw [List.takeWhile_cons_of_neg (by rw [hvalue]; decide)]
        rfl

/-- Reading a run of digit characters breaks down exactly if it is illegible. -/
theorem readNumeral_breakdown_iff {digits : List Char} (h : ∀ c ∈ digits, isDigitChar c = true) (hne : digits ≠ [])
    {b : Breakdown} : readNumeral digits = .error b ↔ Illegible digits b := by
  unfold readNumeral Illegible
  rw [splitSign_of_digits h]
  dsimp only
  cases digits with
  | nil => exact absurd rfl hne
  | cons c cs =>
    obtain ⟨hc, hcs⟩ := List.forall_mem_cons.mp h
    unfold scanDigits
    cases hvalue : digitValue? c with
    | none =>
      have hdecimals : decimals (c :: cs) = [] := List.takeWhile_cons_of_neg (by rw [hvalue]; decide)
      simp only [hdecimals, List.length_nil, Nat.not_lt_zero, false_and, false_or, Nat.zero_le, true_and, ne_eq,
        reduceCtorEq, not_false_eq_true, Bool.not_false, if_true, Except.error.injEq]
      exact eq_comm
    | some d =>
      obtain ⟨ds, hscan, hlength⟩ := scanDigits_of_digits hcs
      have hdecimals : decimals (c :: cs) = c :: decimals cs := List.takeWhile_cons_of_pos (by rw [hvalue]; rfl)
      have hrest := List.takeWhile_append_dropWhile (p := fun c => (digitValue? c).isSome) (l := cs)
      simp only [hscan, Option.map_some, List.length_cons, hdecimals, hlength, ne_eq, List.cons.injEq, true_and]
      generalize digitLimit = limit
      by_cases hlong : limit < (decimals cs).length + 1
      · rw [if_pos hlong]
        simp only [hlong, show ¬ (decimals cs).length + 1 ≤ limit by omega, true_and, false_and, or_false,
          Except.error.injEq]
        exact eq_comm
      · rw [if_neg hlong]
        simp only [hlong, show (decimals cs).length + 1 ≤ limit by omega, true_and, false_and, false_or]
        cases hdrop : cs.dropWhile fun c => (digitValue? c).isSome with
        | nil =>
          rw [hdrop, List.append_nil] at hrest
          simp only [List.all_nil, if_true, reduceCtorEq, show decimals cs = cs from hrest, not_true_eq_false,
            false_and]
        | cons x xs =>
          have hx : isNumeralBlank x = false := by
            apply not_blank_of_isDigitChar
            apply hcs
            rw [← hrest, hdrop]
            exact List.mem_append_right _ List.mem_cons_self
          have hdiffer : decimals cs ≠ cs := by
            intro heq
            have hlen := congrArg List.length hrest
            rw [show List.takeWhile _ cs = cs from heq, hdrop, List.length_append, List.length_cons] at hlen
            omega
          simp only [List.all_cons, hx, Bool.false_and, Bool.false_eq_true, if_false, Except.error.injEq, hdiffer,
            not_false_eq_true, true_and]
          exact eq_comm

end Playhouse.Number

/-! ### Expressions -/

namespace Playhouse

theorem Fault.locate_eq_breakdown_iff {f : Fault} {span : Span} {b : Breakdown} :
    f.locate span = .breakdown b ↔ f = .breakdown b := by
  cases f with
  | breakdown b' => exact Iff.rfl
  | error cause place =>
    cases place with
    | none => exact ⟨nofun, nofun⟩
    | some place => exact ⟨nofun, nofun⟩

namespace Stage

variable {s : Stage} {n : String} {b : Breakdown}

theorem character_ne_breakdown : s.character n ≠ .error (.breakdown b) := by
  unfold character
  split <;> exact nofun

theorem opposite_ne_breakdown : s.opposite n ≠ .error (.breakdown b) := by
  unfold opposite
  split
  · exact nofun
  · split_ifs <;> exact nofun

end Stage

namespace Expression

variable {speaker : String} {stage : Stage} {b : Breakdown}

/-- In working out the expression for a speaker who is on stage, an operation does not take what it is given. What
is remembered need not be worked out. -/
def Overwhelms (speaker : String) (stage : Stage) : Expression → Breakdown → Prop
  | firstPerson _, _ | secondPerson _, _ | character _ _, _ | nounPhrase _ _ _ _, _ | nothing _ _, _
  | unary _ _ _ (some _), _ | binary _ _ _ _ (some _), _ => False
  | unary _ op x none, b =>
    x.Overwhelms speaker stage b ∨ ∃ n, (x.evaluatePresent speaker stage).1 = .ok n ∧ op.Overwhelmed n b
  | binary _ op x y none, b =>
    x.Overwhelms speaker stage b ∨ ∃ m, (x.evaluatePresent speaker stage).1 = .ok m ∧
      (y.Overwhelms speaker stage b ∨ ∃ n, (y.evaluatePresent speaker stage).1 = .ok n ∧ op.Overwhelmed m n b)

theorem not_overwhelms_of_memo? {e : Expression} {n : Int} (h : e.memo? = some n) :
    ¬ e.Overwhelms speaker stage b := by
  cases e with
  | firstPerson | secondPerson | character => cases h
  | nounPhrase | nothing => exact id
  | unary | binary =>
    cases h
    exact id

theorem locate_ne_breakdown {r : Except Fault Int} {span : Span} (h : r ≠ .error (.breakdown b)) :
    Value.locate span r ≠ .error (.breakdown b) := by
  cases r with
  | ok n => exact nofun
  | error f =>
    intro hf
    exact h (congrArg Except.error (Fault.locate_eq_breakdown_iff.mp (Except.error.inj hf)))

theorem value_ne_breakdown {n : String} :
    (stage.character n).map Character.value ≠ .error (.breakdown b) := by
  cases h : stage.character n with
  | ok c => exact nofun
  | error f =>
    intro hf
    cases hf
    exact Stage.character_ne_breakdown h

theorem Evaluates.breakdown_iff {e e' : Expression} {r : Except Fault Int} (h : e.Evaluates speaker stage r e') :
    r = .error (.breakdown b) ↔ e.Overwhelms speaker stage b := by
  induction h with
  | firstPerson | character => exact iff_of_false (locate_ne_breakdown value_ne_breakdown) id
  | secondPerson =>
    refine iff_of_false (locate_ne_breakdown ?_) id
    cases hother : stage.opposite speaker with
    | error f =>
      intro hf
      cases hf
      exact Stage.opposite_ne_breakdown hother
    | ok other => exact value_ne_breakdown
  | recalled hmemo => exact iff_of_false nofun (not_overwhelms_of_memo? hmemo)
  | nounPhrase | nothing => exact iff_of_false nofun id
  | operandFault hx ih | firstFault hx ih =>
    rw [Except.error.injEq, Fault.locate_eq_breakdown_iff]
    simp [Overwhelms, ← ih, hx.eq]
  | unaryFault hx happly ih | unary hx happly ih =>
    simp [Overwhelms, ← ih, hx.eq, ← Number.UnaryOperator.apply_breakdown_iff, happly,
      Fault.locate_eq_breakdown_iff]
  | secondFault hx hy ihx ihy =>
    simp [Overwhelms, ← ihx, ← ihy, hx.eq, hy.eq, Fault.locate_eq_breakdown_iff]
  | binaryFault hx hy happly ihx ihy | binary hx hy happly ihx ihy =>
    simp [Overwhelms, ← ihx, ← ihy, hx.eq, hy.eq, ← Number.BinaryOperator.apply_breakdown_iff, happly,
      Fault.locate_eq_breakdown_iff]

/-- For a speaker who is on stage, working out an expression breaks down exactly if it overwhelms. -/
theorem evaluate_breakdown_iff {e : Expression} (h : speaker ∈ stage.present) :
    (e.evaluate speaker stage).1 = .error (.breakdown b) ↔ e.Overwhelms speaker stage b := by
  unfold evaluate Stage.checkPresent
  rw [if_pos h]
  exact (evaluates e).breakdown_iff

end Expression

end Playhouse
