/-!
# Playhouse.Number.Double — integers through binary floating point

Quotients, remainders and square roots are taken in binary floating point with 53 significant bits, rounded to the
nearest value, a half to the even neighbour, and cut off to an integer afterwards. All of it is exact arithmetic on
natural numbers; a value of `2 ^ 1024` or more does not exist.
-/

namespace Playhouse.Number

/-- `num / den` rounded to the nearest integer, a half to the even one. -/
def roundHalfEven (num den : Nat) : Nat :=
  let q := num / den
  let r := num % den
  if 2 * r < den then q
  else if den < 2 * r then q + 1
  else if q % 2 = 0 then q else q + 1

/-- The least power of two that is too large for a floating point number. -/
def doubleBound : Nat := Nat.pow 2 1024

/-- A value in floating point, unless it is too large. -/
def bounded? (n : Nat) : Option Nat := if n < doubleBound then some n else none

/-- A natural number rounded to 53 significant bits. -/
def roundNat (n : Nat) : Nat :=
  if n.log2 ≤ 52 then n
  else roundHalfEven n (Nat.pow 2 (n.log2 - 52)) * Nat.pow 2 (n.log2 - 52)

/-- The floating point number nearest to a natural number. -/
def nearest? (n : Nat) : Option Nat := bounded? (roundNat n)

/-- The quotient `a / b`, rounded to 53 significant bits and cut off. Below one the rounding is only done finely
enough to tell whether the result reaches one. -/
def roundedQuotient (a b : Nat) : Nat :=
  if a < b then roundHalfEven (a * Nat.pow 2 53) b / Nat.pow 2 53
  else
    let e := (a / b).log2
    if e ≤ 52 then roundHalfEven (a * Nat.pow 2 (52 - e)) b / Nat.pow 2 (52 - e)
    else roundHalfEven a (b * Nat.pow 2 (e - 52)) * Nat.pow 2 (e - 52)

/-- The integer part of the square root, by pairs of bits. The fuel bounds the number of pairs. -/
def rootWithin : Nat → Nat → Nat
  | 0, _ => 0
  | fuel + 1, n =>
    if n < 2 then n
    else
      let r := 2 * rootWithin fuel (n / 4)
      if (r + 1) * (r + 1) ≤ n then r + 1 else r

/-- The integer part of the square root. -/
def natRoot (n : Nat) : Nat := rootWithin (n.log2 + 1) n

/-- The square root of `n`, rounded to 53 significant bits and cut off. -/
def roundedRoot (n : Nat) : Nat :=
  let h := n.log2 / 2
  if h ≤ 52 then
    let m := n * Nat.pow 4 (52 - h)
    let r := natRoot m
    (if r * r + r < m then r + 1 else r) / Nat.pow 2 (52 - h)
  else
    let r := natRoot (n / Nat.pow 4 (h - 52))
    (if (2 * r + 1) * (2 * r + 1) * Nat.pow 4 (h - 52) < 4 * n then r + 1 else r) * Nat.pow 2 (h - 52)

end Playhouse.Number
