/-!
# Playhouse.Text.Similarity — how alike two words are

The longest common stretch of two words is found, then those of what stands before and after it, and so on. Two
words are alike if the stretches make up at least three fifths of both together.
-/

namespace Playhouse.Text

/-- The number of characters that two texts have in common from their beginnings on. -/
def commonLength : List Char → List Char → Nat
  | a :: as, b :: bs => if a = b then commonLength as bs + 1 else 0
  | _, _ => 0

/-- A common stretch: where it begins in the one text and in the other, and its length. -/
structure Stretch where
  first : Nat
  second : Nat
  length : Nat
  deriving DecidableEq, Repr

/-- The longer of two stretches, the former if they are equally long. -/
def Stretch.longer (s t : Stretch) : Stretch := if s.length < t.length then t else s

/-- The longest common stretch, the first in `as` and then in `bs` if there are several. -/
def longestStretch (as bs : List Char) : Stretch :=
  (List.range as.length).foldl (fun best i =>
    (List.range bs.length).foldl (fun best j =>
      best.longer ⟨i, j, commonLength (as.drop i) (bs.drop j)⟩) best) ⟨0, 0, 0⟩

/-- The number of characters in common stretches. The fuel bounds how often a text is divided. -/
def commonWithin : Nat → List Char → List Char → Nat
  | 0, _, _ => 0
  | fuel + 1, as, bs =>
    let s := longestStretch as bs
    if s.length = 0 then 0
    else
      commonWithin fuel (as.take s.first) (bs.take s.second) + s.length
        + commonWithin fuel (as.drop (s.first + s.length)) (bs.drop (s.second + s.length))

/-- Two words are alike. -/
def areAlike (a b : String) : Bool :=
  let as := a.toList
  let bs := b.toList
  3 * (as.length + bs.length) ≤ 10 * commonWithin as.length as bs

end Playhouse.Text
