import Playhouse.Text.Blank

/-!
# Playhouse.Source.Lines — a text as lines

The lines of a source keep the break that ends them, so together they are the text. A place is a line and a column,
both counted from zero. The end of the text has a place of its own: column zero, past the last line, and one line
further if the text ends in a line feed or a carriage return.
-/

namespace Playhouse.Source

open Text

/-- The lines of a text, each with its line break. A carriage return and a line feed after it are one break. -/
def lines : List Char → List (List Char)
  | [] => []
  | '\r' :: '\n' :: cs => ['\r', '\n'] :: lines cs
  | c :: cs =>
    if isLineBreak c then [c] :: lines cs
    else
      match lines cs with
      | [] => [[c]]
      | l :: ls => (c :: l) :: ls

/-- Nothing is lost: the lines together are the text. -/
theorem flatten_lines (cs : List Char) : (lines cs).flatten = cs := by
  fun_induction lines cs with
  | case1 => rfl
  | case2 cs ih => simp [ih]
  | case3 c cs _ _ ih => simp [ih]
  | case4 c cs _ _ h ih => simp_all
  | case5 c cs _ _ l ls h ih => rw [← ih, h]; simp

/-- A text with every line break of a carriage return, alone or before a line feed, made a line feed. -/
def lineFeeds : List Char → List Char
  | [] => []
  | '\r' :: '\n' :: cs => '\n' :: lineFeeds cs
  | '\r' :: cs => '\n' :: lineFeeds cs
  | c :: cs => c :: lineFeeds cs

/-- A line and a column, counted from zero. -/
structure Place where
  line : Nat
  column : Nat
  deriving DecidableEq, Repr

/-- The place of the character at `pos`, if there is one. The lines are those from number `n` on. -/
def placeIn (n : Nat) : List (List Char) → Nat → Option Place
  | [], _ => none
  | l :: ls, pos => if pos < l.length then some ⟨n, pos⟩ else placeIn (n + 1) ls (pos - l.length)

/-- The line that the end of a text counts as. -/
def endLine (text : List Char) : Nat :=
  let count := if text.isEmpty then 1 else (lines text).length
  match text.getLast? with
  | some '\n' => count + 1
  | some '\r' => count + 1
  | _ => count

/-- The place of a position in a text; its length is the last position that has one. -/
def place? (text : List Char) (pos : Nat) : Option Place :=
  if pos = text.length then some ⟨endLine text, 0⟩ else placeIn 0 (lines text) pos

/-- The line of a position in a text. -/
def lineOf (text : List Char) (pos : Nat) : Nat := ((place? text pos).map Place.line).getD 0

end Playhouse.Source
