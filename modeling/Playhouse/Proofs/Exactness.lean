import Mathlib.Data.Nat.Sqrt
import Playhouse.Proofs.Constants
import Playhouse.Proofs.Limits

/-!
# Playhouse.Proofs.Exactness — where floating point is exact

Quotients, remainders and roots are rounded to 53 significant bits before they are cut off. Cutting off does not
hide the rounding by itself: a value just below an integer may be rounded up to it. Up to `2 ^ 53` a quotient is
never that near to the next integer. The first number whose root is rounded up is `2 ^ 52 + 2 ^ 27`, one below the
square of `2 ^ 26 + 1`. Main statements: `division_exact` and `root_exact`.
-/

namespace Playhouse.Number

/-! ### Rounding -/

/-- What lies nearer to something below `k` is not rounded to `k`. -/
theorem roundHalfEven_lt {num den k : Nat} (h : 2 * num + den < 2 * (k * den)) : roundHalfEven num den < k := by
  have hnum : den * (num / den) + num % den = num := Nat.div_add_mod num den
  have hround := roundHalfEven_le num den
  rcases Nat.lt_trichotomy k (num / den + 1) with hlt | rfl | hgt
  · have hprod : k * den ≤ den * (num / den) := by
      rw [Nat.mul_comm k]
      exact Nat.mul_le_mul_left den (by omega)
    omega
  · have hprod : (num / den + 1) * den = den * (num / den) + den := by ring
    have hrest : 2 * (num % den) < den := by omega
    unfold roundHalfEven
    rw [if_pos hrest]
    exact Nat.lt_succ_self _
  · omega

theorem roundHalfEven_mul (k : Nat) {den : Nat} (hden : 0 < den) : roundHalfEven (k * den) den = k := by
  unfold roundHalfEven
  rw [Nat.mul_mod_left, Nat.mul_div_cancel k hden, if_pos hden]

/-- A quotient that is rounded to a multiple of `1 / scale` and cut off is the integer part of the quotient, if
there is nothing to be rounded or if the gap of `1 / b` below the next integer is more than half a unit. -/
theorem roundHalfEven_div {a b scale : Nat} (hb : 0 < b) (hscale : 0 < scale) (h : a % b = 0 ∨ b < 2 * scale) :
    roundHalfEven (a * scale) b / scale = a / b := by
  have ha : b * (a / b) + a % b = a := Nat.div_add_mod a b
  have hrest : a % b < b := Nat.mod_lt a hb
  apply Nat.le_antisymm
  · rw [← Nat.lt_add_one_iff, Nat.div_lt_iff_lt_mul hscale]
    rcases h with hexact | hnear
    · have hmul : a * scale = a / b * scale * b := by
        calc a * scale = (b * (a / b)) * scale := by rw [hexact, Nat.add_zero] at ha; rw [ha]
          _ = a / b * scale * b := by ring
      rw [hmul, roundHalfEven_mul _ hb]
      exact Nat.mul_lt_mul_of_pos_right (Nat.lt_succ_self _) hscale
    · apply roundHalfEven_lt
      have hgap : a * scale + scale ≤ (a / b + 1) * scale * b := by
        calc a * scale + scale = (a + 1) * scale := by ring
          _ ≤ (b * (a / b) + b) * scale := Nat.mul_le_mul_right scale (by omega)
          _ = (a / b + 1) * scale * b := by ring
      omega
  · rw [Nat.le_div_iff_mul_le hscale]
    calc a / b * scale = scale * (a / b) := Nat.mul_comm _ _
      _ ≤ scale * a / b := Nat.mul_div_le_mul_div_assoc scale a b
      _ ≤ roundHalfEven (a * scale) b := by rw [Nat.mul_comm]; exact le_roundHalfEven _ _

theorem roundNat_of_le {n : Nat} (h : n ≤ 2 ^ 53) : roundNat n = n := by
  unfold roundNat
  split
  · rfl
  · next hlog =>
    -- only the last of these numbers has a bit too many, and that bit is zero
    have hn : n = 2 ^ 53 := by
      have hne : n ≠ 0 := by rintro rfl; exact hlog (by decide)
      have := (Nat.log2_lt (k := 53) hne).not.mp (by omega)
      omega
    subst hn
    decide +kernel

theorem nearest?_of_le {n : Nat} (h : n ≤ 2 ^ 53) : nearest? n = some n := by
  have hbound := two_pow_53_lt_doubleBound
  unfold nearest? bounded?
  rw [roundNat_of_le h, if_pos (by omega)]

theorem nearest_of_le {n : Int} (h : n.natAbs ≤ 2 ^ 53) : nearest n = .ok n := by
  unfold nearest
  rw [nearest?_of_le h]
  dsimp only
  split
  · next hneg => rw [Int.ofNat_natAbs_of_nonpos (Int.le_of_lt hneg), Int.neg_neg]
  · next hpos => rw [Int.natAbs_of_nonneg (Int.not_lt.mp hpos)]

/-! ### Quotients and remainders -/

theorem lt_unit_of_mul_lt {b e : Nat} (he : e ≤ 52) (h : b * 2 ^ e < 2 ^ 53) : b < 2 * 2 ^ (52 - e) := by
  have hsplit : 2 ^ 53 = 2 * 2 ^ (52 - e) * 2 ^ e := by
    rw [Nat.mul_assoc, ← Nat.pow_add, ← Nat.pow_succ', show (52 - e + e).succ = 53 by omega]
  rw [hsplit] at h
  exact Nat.lt_of_mul_lt_mul_right h

/-- A divisor above half a unit leaves no rest: the dividend would have to be larger than `2 ^ 53`. -/
theorem roundedQuotient_of_le {a b : Nat} (hb : 0 < b) (ha : a ≤ 2 ^ 53) (hb' : b ≤ 2 ^ 53) :
    roundedQuotient a b = a / b := by
  unfold roundedQuotient
  simp only [Nat.pow_eq]
  split
  · exact roundHalfEven_div hb (Nat.two_pow_pos 53) (.inr (by omega))
  · next hab =>
    have hne : a / b ≠ 0 := Nat.pos_iff_ne_zero.mp (Nat.div_pos (by omega) hb)
    have hlower : b * 2 ^ (a / b).log2 ≤ b * (a / b) := Nat.mul_le_mul_left b (Nat.log2_self_le hne)
    have hrest : b * (a / b) + a % b = a := Nat.div_add_mod a b
    generalize (a / b).log2 = e at hlower
    split
    · next he =>
      apply roundHalfEven_div hb (Nat.two_pow_pos _)
      rcases Nat.eq_zero_or_pos (a % b) with hexact | hpos
      · exact .inl hexact
      · exact .inr (lt_unit_of_mul_lt he (by omega))
    · next he =>
      -- a quotient of 54 bits: this is `2 ^ 53` divided by one
      have hlarge : b * 2 ^ 53 ≤ b * 2 ^ e := Nat.mul_le_mul_left b (Nat.pow_le_pow_right (by omega) (by omega))
      have hone : b = 1 := by omega
      subst hone
      have hexp : 2 ^ e ≤ 2 ^ 53 := by omega
      have he' : e = 53 := by
        have := (Nat.pow_le_pow_iff_right (by decide : 1 < 2)).mp hexp
        omega
      have ha' : a = 2 ^ 53 := by omega
      subst he' ha'
      decide +kernel

/-- Truncation takes the quotient of the magnitudes, negative if the signs differ. -/
theorem tdiv_of_magnitudes {a b : Int} (hb : b ≠ 0) :
    (if (a < 0) = (b < 0) then ((a.natAbs / b.natAbs : Nat) : Int) else -((a.natAbs / b.natAbs : Nat) : Int)) =
      a.tdiv b := by
  obtain ⟨m, rfl | rfl⟩ := a.eq_nat_or_neg
  · obtain ⟨n, rfl | rfl⟩ := b.eq_nat_or_neg
    · rw [if_pos (by rw [eq_iff_iff]; omega), Int.natAbs_natCast, Int.natAbs_natCast, Int.ofNat_tdiv]
    · rw [if_neg (by rw [eq_iff_iff]; omega), Int.natAbs_neg, Int.natAbs_natCast, Int.natAbs_natCast,
        Int.ofNat_tdiv, Int.tdiv_neg]
  · rcases Nat.eq_zero_or_pos m with rfl | hm
    · simp
    obtain ⟨n, rfl | rfl⟩ := b.eq_nat_or_neg
    · rw [if_neg (by rw [eq_iff_iff]; omega), Int.natAbs_neg, Int.natAbs_natCast, Int.natAbs_natCast,
        Int.ofNat_tdiv, Int.neg_tdiv]
    · rw [if_pos (by rw [eq_iff_iff]; omega), Int.natAbs_neg, Int.natAbs_neg, Int.natAbs_natCast,
        Int.natAbs_natCast, Int.ofNat_tdiv, Int.neg_tdiv, Int.tdiv_neg, Int.neg_neg]

theorem quotient_of_le {a b : Int} (hb : b ≠ 0) (ha : a.natAbs ≤ 2 ^ 53) (hb' : b.natAbs ≤ 2 ^ 53) :
    quotient a b = .ok (a.tdiv b) := by
  have hbound : a.natAbs / b.natAbs < doubleBound := by
    have hself := Nat.div_le_self a.natAbs b.natAbs
    have hdouble := two_pow_53_lt_doubleBound
    omega
  unfold quotient bounded?
  rw [if_neg hb, roundedQuotient_of_le (Int.natAbs_pos.mpr hb) ha hb', if_pos hbound]
  exact congrArg Except.ok (tdiv_of_magnitudes hb)

theorem remainder_of_le {a b : Int} (hb : b ≠ 0) (ha : a.natAbs ≤ 2 ^ 53) (hb' : b.natAbs ≤ 2 ^ 53) :
    remainder a b = .ok (a.tmod b) := by
  unfold remainder
  rw [if_neg hb, nearest_of_le ha, nearest_of_le hb']

/-! ### Roots -/

/-- One more pair of bits doubles the root, and adds one if there is room. -/
theorem rootWithin_spec (fuel : Nat) : ∀ {n : Nat}, n < 4 ^ fuel →
    rootWithin fuel n * rootWithin fuel n ≤ n ∧ n < (rootWithin fuel n + 1) * (rootWithin fuel n + 1) := by
  induction fuel with
  | zero =>
    intro n hn
    have : n = 0 := by omega
    subst this
    decide
  | succ fuel ih =>
    intro n hn
    unfold rootWithin
    split
    · next hsmall =>
      obtain rfl | rfl : n = 0 ∨ n = 1 := by omega
      · decide
      · decide
    · next hlarge =>
      obtain ⟨hlower, hupper⟩ := ih (n := n / 4) (by omega)
      generalize rootWithin fuel (n / 4) = r at hlower hupper
      dsimp only
      have hr : (r + 1) * (r + 1) = r * r + 2 * r + 1 := by ring
      have htwice : 2 * r * (2 * r) = 4 * (r * r) := by ring
      have hodd : (2 * r + 1) * (2 * r + 1) = 4 * (r * r) + 4 * r + 1 := by ring
      have heven : (2 * r + 1 + 1) * (2 * r + 1 + 1) = 4 * (r * r) + 8 * r + 4 := by ring
      split
      · next hroom => exact ⟨hroom, by omega⟩
      · next hroom => exact ⟨by omega, by omega⟩

theorem natRoot_eq_sqrt (n : Nat) : natRoot n = n.sqrt := by
  have hn : n < 4 ^ (n.log2 + 1) := by
    calc n < 2 ^ (n.log2 + 1) := Nat.lt_log2_self
      _ ≤ 4 ^ (n.log2 + 1) := Nat.pow_le_pow_left (by omega) _
  exact Nat.eq_sqrt.mpr (rootWithin_spec (n.log2 + 1) hn)

/-- The root of a scaled number lies between the integer part of the root and the next integer, both scaled. -/
theorem sqrt_scaled (n : Nat) {scale : Nat} (hscale : 0 < scale) :
    n.sqrt * scale ≤ (n * (scale * scale)).sqrt ∧ (n * (scale * scale)).sqrt < (n.sqrt + 1) * scale := by
  constructor
  · rw [Nat.le_sqrt]
    calc n.sqrt * scale * (n.sqrt * scale) = n.sqrt * n.sqrt * (scale * scale) := by ring
      _ ≤ n * (scale * scale) := Nat.mul_le_mul_right _ (Nat.sqrt_le n)
  · rw [Nat.sqrt_lt]
    calc n * (scale * scale) < (n.sqrt + 1) * (n.sqrt + 1) * (scale * scale) :=
          Nat.mul_lt_mul_of_pos_right (Nat.lt_succ_sqrt n) (Nat.mul_pos hscale hscale)
      _ = (n.sqrt + 1) * scale * ((n.sqrt + 1) * scale) := by ring

/-- Let the square of `k` be the next one after `n`, at the distance `d`. The root of `n`, scaled, is rounded up to
`k` only if `k` is larger than `d * scale`. -/
theorem not_rounded_up {n r k d scale : Nat} (hgap : n + d ≤ k * k) (hd : k ≤ d * scale) (hr : r + 1 = k * scale) :
    ¬ r * r + r < n * (scale * scale) := by
  intro hup
  have hsquare : r * r + r + k * scale = k * k * (scale * scale) := by
    calc r * r + r + k * scale = (r + 1) * (r + 1) := by rw [← hr]; ring
      _ = k * k * (scale * scale) := by rw [hr]; ring
  have hfar : n * (scale * scale) + d * (scale * scale) ≤ k * k * (scale * scale) := by
    rw [← Nat.add_mul]
    exact Nat.mul_le_mul_right _ hgap
  have hnear : k * scale ≤ d * (scale * scale) := by
    rw [← Nat.mul_assoc]
    exact Nat.mul_le_mul_right _ hd
  omega

theorem roundedRoot_of_gap {n d scale : Nat} (hscale : scale = 2 ^ (52 - n.log2 / 2)) (hlog : n.log2 / 2 ≤ 52)
    (hgap : n + d ≤ (n.sqrt + 1) * (n.sqrt + 1)) (hd : n.sqrt + 1 ≤ d * scale) : roundedRoot n = n.sqrt := by
  have hpos : 0 < scale := by rw [hscale]; exact Nat.two_pow_pos _
  obtain ⟨hlower, hupper⟩ := sqrt_scaled n hpos
  unfold roundedRoot
  simp only [Nat.pow_eq, if_pos hlog, natRoot_eq_sqrt]
  rw [show (4 : Nat) = 2 * 2 by rfl, Nat.mul_pow, ← hscale]
  generalize (n * (scale * scale)).sqrt = r at hlower hupper
  apply Nat.le_antisymm
  · rw [← Nat.lt_add_one_iff, Nat.div_lt_iff_lt_mul hpos]
    split
    · next hup =>
      have hne : r + 1 ≠ (n.sqrt + 1) * scale := fun heq => not_rounded_up hgap hd heq hup
      omega
    · exact hupper
  · rw [Nat.le_div_iff_mul_le hpos]
    split <;> omega

/-- Below `2 ^ 52` the next square is far enough at any distance. From there on up to the bound, the next square is
at least at the distance two. -/
theorem roundedRoot_of_lt {n : Nat} (h : n < 2 ^ 52 + 2 ^ 27) : roundedRoot n = n.sqrt := by
  have hlog : n.log2 ≤ 52 := by
    rcases Nat.eq_zero_or_pos n with rfl | hn
    · decide
    · have := (Nat.log2_lt (k := 53) (Nat.pos_iff_ne_zero.mp hn)).mpr (by omega)
      omega
  have hscale : 2 ^ 26 ≤ 2 ^ (52 - n.log2 / 2) := Nat.pow_le_pow_right (by omega) (by omega)
  have hsqrt : n.sqrt < 2 ^ 26 + 1 := Nat.sqrt_lt.mpr (by omega)
  have hnext : n < (n.sqrt + 1) * (n.sqrt + 1) := Nat.lt_succ_sqrt n
  rcases Nat.lt_or_eq_of_le (Nat.le_of_lt_succ hsqrt) with hlt | heq
  · exact roundedRoot_of_gap (d := 1) rfl (by omega) (by omega) (by omega)
  · exact roundedRoot_of_gap (d := 2) rfl (by omega) (by rw [heq]; omega) (by omega)

/-- The root of the number one below the square of `2 ^ 26 + 1` is rounded up. -/
theorem roundedRoot_at_bound : roundedRoot (2 ^ 52 + 2 ^ 27) = 2 ^ 26 + 1 := by
  have hlog : (2 ^ 52 + 2 ^ 27).log2 / 2 = 26 := by decide +kernel
  have hroot : natRoot ((2 ^ 52 + 2 ^ 27) * 4 ^ 26) = (2 ^ 26 + 1) * 2 ^ 26 - 1 := by
    rw [natRoot_eq_sqrt]
    exact (Nat.eq_sqrt.mpr (by decide +kernel)).symm
  unfold roundedRoot
  simp only [Nat.pow_eq, hlog]
  rw [if_pos (by omega), show 52 - 26 = 26 by rfl, hroot]
  decide +kernel

theorem squareRoot_of_lt {n : Int} (hn : 0 ≤ n) (h : n < 2 ^ 52 + 2 ^ 27) :
    squareRoot n = .ok (n.natAbs.sqrt : Nat) := by
  unfold squareRoot
  rw [if_neg (by omega), nearest?_of_le (by omega)]
  exact congrArg (fun r : Nat => Except.ok (r : Int)) (roundedRoot_of_lt (by omega))

theorem squareRoot_at_bound : squareRoot (2 ^ 52 + 2 ^ 27) = .ok (2 ^ 26 + 1) := by
  unfold squareRoot
  rw [if_neg (by omega), show (2 ^ 52 + 2 ^ 27 : Int).natAbs = 2 ^ 52 + 2 ^ 27 by rfl, nearest?_of_le (by omega)]
  exact congrArg (fun r : Nat => Except.ok (r : Int)) roundedRoot_at_bound

/-- The root of a negative number is an error of the play as long as the number can be told. -/
theorem squareRoot_of_neg {n : Int} (hn : n < 0) : squareRoot n =
    if n.natAbs < numeralBound then .error (.error (.negativeRoot n) none)
      else .error (.breakdown .numeralTooLong) := by
  unfold squareRoot errorAbout numeral
  rw [if_pos hn]
  generalize numeralBound = bound
  by_cases h : n.natAbs < bound
  · rw [if_pos h, if_pos h]
  · rw [if_neg h, if_neg h]

/-- The integer part of the root is the largest integer whose square is not larger. -/
theorem natSqrt_greatest {n : Int} (hn : 0 ≤ n) :
    ((n.natAbs.sqrt : Nat) : Int) * (n.natAbs.sqrt : Nat) ≤ n ∧ ∀ t : Int, t * t ≤ n →
      t ≤ (n.natAbs.sqrt : Nat) := by
  constructor
  · have := Nat.sqrt_le n.natAbs
    calc ((n.natAbs.sqrt : Nat) : Int) * (n.natAbs.sqrt : Nat) ≤ (n.natAbs : Int) := by exact_mod_cast this
      _ = n := Int.natAbs_of_nonneg hn
  · intro t ht
    have hroot : t.natAbs ≤ n.natAbs.sqrt := by
      rw [Nat.le_sqrt, ← Int.natAbs_mul]
      have := mul_self_nonneg t
      omega
    omega

end Playhouse.Number

namespace Playhouse

open Number

/-! ### Phrases -/

/-- What the phrase of a value comes to for a speaker, with nothing remembered. -/
def Value.outcome (speaker : String) (stage : Stage) (v : Value) : Except Fault Int :=
  ((Expression.ofValue v).evaluate speaker stage).1

section Outcome

variable {speaker : String} {stage : Stage} {x y : Value} {m n : Int}

theorem outcome_eq_eval (v : Value) : v.outcome speaker stage = v.eval speaker stage :=
  ((recalls_ofValue v).evaluate speaker stage).1.trans (evalThroughout_eq_eval speaker stage v)

/-- Only somebody on stage has a value to speak of. -/
theorem checkPresent_of_outcome (h : x.outcome speaker stage = .ok n) : stage.checkPresent speaker = .ok () := by
  rw [outcome_eq_eval, Value.eval] at h
  cases hpresent : stage.checkPresent speaker with
  | error f =>
    rw [hpresent] at h
    cases h
  | ok _ => rfl

theorem outcome_of_checkPresent (h : stage.checkPresent speaker = .ok ()) (v : Value) :
    v.outcome speaker stage = v.evalPresent speaker stage := by
  rw [outcome_eq_eval, Value.eval, h]
  rfl

theorem outcome_unary (span : Span) (op : UnaryOperator) (hx : x.outcome speaker stage = .ok n) :
    (Value.unary span op x).outcome speaker stage = Value.locate span (op.apply n) := by
  have hpresent := checkPresent_of_outcome hx
  rw [outcome_of_checkPresent hpresent] at hx ⊢
  rw [Value.evalPresent, hx]
  rfl

theorem outcome_binary (span : Span) (op : BinaryOperator) (hx : x.outcome speaker stage = .ok m)
    (hy : y.outcome speaker stage = .ok n) :
    (Value.binary span op x y).outcome speaker stage = Value.locate span (op.apply m n) := by
  have hpresent := checkPresent_of_outcome hx
  rw [outcome_of_checkPresent hpresent] at hx hy ⊢
  rw [Value.evalPresent, hx, hy]
  rfl

end Outcome

/-! ### The ranges -/

/-- **Division is exact up to `2 ^ 53`.** For dividends and divisors of this magnitude the quotient is the one cut
off towards zero and the remainder is what it leaves, smaller than the divisor and with the sign of the dividend;
this is what the phrases give, whatever their operands are written as. The next dividend has neither the right
quotient nor the right remainder. -/
theorem division_exact {a b : Int} (hb : b ≠ 0) (ha : a.natAbs ≤ 2 ^ 53) (hb' : b.natAbs ≤ 2 ^ 53) :
    (∃ q r, BinaryOperator.quotient.apply a b = .ok q ∧ BinaryOperator.remainder.apply a b = .ok r ∧
      q = a.tdiv b ∧ r = a - b * q ∧ q * b + r = a ∧ r.natAbs < b.natAbs ∧ (r = 0 ∨ r.sign = a.sign) ∧
      ∀ speaker stage span x y, Value.outcome speaker stage x = .ok a → Value.outcome speaker stage y = .ok b →
        (Value.binary span .quotient x y).outcome speaker stage = .ok q ∧
          (Value.binary span .remainder x y).outcome speaker stage = .ok r) ∧
    (BinaryOperator.quotient.apply (2 ^ 53 + 1) 1 = .ok (2 ^ 53) ∧ (2 ^ 53 + 1 : Int).tdiv 1 ≠ 2 ^ 53) ∧
    (BinaryOperator.remainder.apply (2 ^ 53 + 1) 2 = .ok 0 ∧ (2 ^ 53 + 1 : Int).tmod 2 ≠ 0) := by
  have hquotient : BinaryOperator.quotient.apply a b = .ok (a.tdiv b) := by
    rw [BinaryOperator.apply, quotient_of_le hb ha hb']
  have hremainder : BinaryOperator.remainder.apply a b = .ok (a.tmod b) := by
    rw [BinaryOperator.apply, remainder_of_le hb ha hb']
  refine ⟨⟨a.tdiv b, a.tmod b, hquotient, hremainder, rfl, Int.tmod_def a b, ?_, ?_, ?_, ?_⟩, ?_, ?_⟩
  · rw [Int.mul_comm]
    exact Int.mul_tdiv_add_tmod a b
  · rw [Int.natAbs_tmod]
    exact Nat.mod_lt _ (Int.natAbs_pos.mpr hb)
  · rw [Int.sign_tmod]
    by_cases hdvd : b ∣ a
    · exact .inl (Int.tmod_eq_zero_of_dvd hdvd)
    · exact .inr (if_neg hdvd)
  · intro speaker stage span x y hx hy
    rw [outcome_binary span _ hx hy, outcome_binary span _ hx hy, hquotient, hremainder]
    exact ⟨rfl, rfl⟩
  · exact ⟨by decide +kernel, by decide⟩
  · exact ⟨by decide +kernel, by decide⟩

/-- The largest dividend, of the other sign than its divisor: the quotient is cut off towards zero. -/
theorem division_exact_negative :
    BinaryOperator.quotient.apply (-2 ^ 53) 3 = .ok (-3002399751580330) ∧
      BinaryOperator.remainder.apply (-2 ^ 53) 3 = .ok (-2) := by
  obtain ⟨⟨q, r, hq, hr, rfl, rfl, -⟩, -⟩ :=
    division_exact (a := -2 ^ 53) (b := 3) (by decide) (by decide) (by decide)
  exact ⟨hq, hr⟩

/-- **Roots are exact below `2 ^ 52 + 2 ^ 27`.** There the root is the largest integer whose square is not larger,
and at this number it is not. The root of a negative number is an error of the play, told at the phrase, if the
number has a numeral; if it has too many digits then the error cannot be told, and this is a breakdown. -/
theorem root_exact (n : Int) :
    (0 ≤ n → n < 2 ^ 52 + 2 ^ 27 → ∃ r, UnaryOperator.squareRoot.apply n = .ok r ∧ r * r ≤ n ∧
      (∀ t, t * t ≤ n → t ≤ r) ∧
      ∀ speaker stage span x, Value.outcome speaker stage x = .ok n →
        (Value.unary span .squareRoot x).outcome speaker stage = .ok r) ∧
    (∃ r, UnaryOperator.squareRoot.apply (2 ^ 52 + 2 ^ 27) = .ok r ∧ 2 ^ 52 + 2 ^ 27 < r * r) ∧
    (n < 0 → n.natAbs < numeralBound → UnaryOperator.squareRoot.apply n = .error (.error (.negativeRoot n) none) ∧
      ∀ speaker stage span x, Value.outcome speaker stage x = .ok n →
        (Value.unary span .squareRoot x).outcome speaker stage = .error (.error (.negativeRoot n) (some span))) ∧
    (n < 0 → numeralBound ≤ n.natAbs → UnaryOperator.squareRoot.apply n = .error (.breakdown .numeralTooLong) ∧
      ∀ speaker stage span x, Value.outcome speaker stage x = .ok n →
        (Value.unary span .squareRoot x).outcome speaker stage = .error (.breakdown .numeralTooLong)) := by
  have happly : ∀ m, UnaryOperator.squareRoot.apply m = squareRoot m := fun m => by rw [UnaryOperator.apply]
  refine ⟨fun hn hlt => ?_, ?_, fun hn hshort => ?_, fun hn hlong => ?_⟩
  · have hroot := (happly n).trans (squareRoot_of_lt hn hlt)
    obtain ⟨hle, hgreatest⟩ := natSqrt_greatest hn
    refine ⟨_, hroot, hle, hgreatest, fun speaker stage span x hx => ?_⟩
    rw [outcome_unary span _ hx, hroot]
    rfl
  · exact ⟨2 ^ 26 + 1, (happly _).trans squareRoot_at_bound, by decide⟩
  · have herror := (happly n).trans (squareRoot_of_neg hn)
    rw [if_pos hshort] at herror
    refine ⟨herror, fun speaker stage span x hx => ?_⟩
    rw [outcome_unary span _ hx, herror]
    rfl
  · have herror := (happly n).trans (squareRoot_of_neg hn)
    rw [if_neg (Nat.not_lt.mpr hlong)] at herror
    refine ⟨herror, fun speaker stage span x hx => ?_⟩
    rw [outcome_unary span _ hx, herror]
    rfl

/-- The last number whose root is exact, and a negative one. -/
theorem root_exact_before_bound :
    UnaryOperator.squareRoot.apply (2 ^ 52 + 2 ^ 27 - 1) = .ok (2 ^ 26) ∧
      UnaryOperator.squareRoot.apply (-4) = .error (.error (.negativeRoot (-4)) none) := by
  obtain ⟨r, hr, hle, hgreatest, -⟩ := (root_exact (2 ^ 52 + 2 ^ 27 - 1)).1 (by decide) (by decide)
  have hbelow : r ≤ 2 ^ 26 := by nlinarith
  have habove : 2 ^ 26 ≤ r := hgreatest _ (by decide)
  obtain rfl : r = 2 ^ 26 := by omega
  exact ⟨hr, ((root_exact (-4)).2.2.1 (by decide) (by decide +kernel)).1⟩

/-- A value cubed so many times. -/
def Value.cubed (v : Value) : Nat → Value
  | 0 => v
  | k + 1 => .unary v.span .cube (v.cubed k)

/-- Two who are on stage. -/
def duet : Stage :=
  ⟨false, [("Romeo", {}), ("Juliet", {})], ["Romeo", "Juliet"], [("Romeo", "Juliet"), ("Juliet", "Romeo")]⟩

/-- The root of a negative number with three adjectives, cubed eight times, breaks down and is no error of the
play. -/
theorem root_of_long_numeral_breaks_down :
    ∃ (v : Value) (n : Int), v.outcome "Romeo" duet = .ok n ∧ n < 0 ∧
      ∀ cause place, (Value.unary v.span .squareRoot v).outcome "Romeo" duet ≠ .error (.error cause place) := by
  have hv : (Value.cubed (.nounPhrase ⟨0, 1⟩ .negative [["big"], ["big"], ["big"]] ["pig"]) 8).outcome
      "Romeo" duet =
    .ok (-2 ^ 19683) := by decide +kernel
  refine ⟨_, _, hv, by decide +kernel, fun cause place => ?_⟩
  rw [outcome_unary _ _ hv, UnaryOperator.apply, squareRoot_of_neg (by decide +kernel), if_neg (by decide +kernel)]
  exact fun h => by cases h

end Playhouse
