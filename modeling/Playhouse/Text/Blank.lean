import Playhouse.Text.Range

/-!
# Playhouse.Text.Blank — blanks and line breaks

Blanks are what the reader skips between words. Line breaks end the lines of a source; every line break is a blank.
-/

namespace Playhouse.Text

/-- Code points of the blanks. -/
def blankRanges : List (Nat × Nat) :=
  [(9, 13), (28, 32), (133, 133), (160, 160), (5760, 5760), (8192, 8202), (8232, 8233), (8239, 8239),
  (8287, 8287), (12288, 12288)]

/-- A blank: white space of any script, and the four information separators. -/
def isBlank (c : Char) : Bool := inRanges blankRanges c.toNat

/-- A character that ends a line, alone or, for a carriage return, together with a line feed after it. -/
def isLineBreak (c : Char) : Bool :=
  c == '\n' || c == '\r' || c == '\x0b' || c == '\x0c' || c == '\x1c' || c == '\x1d' || c == '\x1e' ||
    c == '\u0085' || c == '\u2028' || c == '\u2029'

theorem isBlank_of_isLineBreak {c : Char} (h : isLineBreak c = true) : isBlank c = true := by
  simp only [isLineBreak, Bool.or_eq_true, beq_iff_eq] at h
  rcases h with ((((((((h | h) | h) | h) | h) | h) | h) | h) | h) | h <;> subst h <;> decide

/-- What none of the code points of blanks satisfies is satisfied by no blank. -/
theorem isBlank_eq_false_of {f : Char → Bool} (hblanks : (blankRanges.all fun r =>
    (List.range' r.1 (r.2 + 1 - r.1)).all fun n => !f (Char.ofNat n)) = true) {c : Char} (h : f c = true) :
    isBlank c = false := by
  simp only [List.all_eq_true, Bool.not_eq_true'] at hblanks
  cases hblank : isBlank c with
  | false => rfl
  | true =>
    obtain ⟨r, hr, hle, hge⟩ := inRanges_eq_true_iff.mp hblank
    have hnot := hblanks r hr c.toNat (List.mem_range'_1.mpr ⟨hle, by omega⟩)
    rw [Char.ofNat_toNat, h] at hnot
    cases hnot

end Playhouse.Text
