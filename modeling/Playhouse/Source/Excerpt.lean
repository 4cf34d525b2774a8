import Playhouse.Fault
import Playhouse.Source.Lines

/-!
# Playhouse.Source.Excerpt — a position or a span shown in its source

A position is shown between two carets above and below its line, a span between `>>` and `<<`; lines of context
stand before and after. Indexes count from the end of a line when they are negative.
-/

namespace Playhouse.Source

open Text

/-- The index, where a negative one counts from the end, cut to a list of length `n`. -/
def clampIndex (n : Nat) (i : Int) : Nat := if i < 0 then (i + n).toNat else min i.toNat n

/-- The elements from index `lo` up to but without index `hi`. -/
def slice {α : Type} (xs : List α) (lo hi : Int) : List α :=
  let a := clampIndex xs.length lo
  let b := clampIndex xs.length hi
  (xs.drop a).take (b - a)

/-- The element at an index, where a negative one counts from the end. -/
def at? {α : Type} (xs : List α) (i : Int) : Option α :=
  if i < 0 then (if i + xs.length < 0 then none else xs[(i + xs.length).toNat]?) else xs[i.toNat]?

/-- Insert `new` before the index `i`. -/
def insertAt (cs new : List Char) (i : Int) : List Char :=
  let a := clampIndex cs.length i
  cs.take a ++ new ++ cs.drop a

/-- The first index at or before `i` that does not follow a blank. None if there is no character to look at. -/
def backOverBlanks (cs : List Char) : Nat → Int → Option Int
  | 0, _ => none
  | fuel + 1, i =>
    match at? cs (i - 1) with
    | none => none
    | some c => if isBlank c then backOverBlanks cs fuel (i - 1) else some i

/-- Insert `new` at the index `i`, but before the blanks that precede it. -/
def insertBeforeBlanks (cs new : List Char) (i : Int) : Except Breakdown (List Char) :=
  match backOverBlanks cs (2 * cs.length + 2) i with
  | some j => .ok (insertAt cs new j)
  | none => .error .columnOutOfRange

/-- A line with a line feed at its end. -/
def endLineFeed (cs : List Char) : List Char := if cs.getLast? = some '\n' then cs else cs ++ ['\n']

/-- The lines of context before line `line`. -/
def linesBefore (ls : List (List Char)) (line : Nat) (amount : Int) : List (List Char) :=
  (slice ls (max (line - 1 - amount) 0) line).map endLineFeed

/-- The lines of context after line `line`. -/
def linesAfter (ls : List (List Char)) (line : Nat) (amount : Int) : List (List Char) :=
  (slice ls (line + 1) (line + 2 + amount)).map endLineFeed

/-- The number of lines of context on each side. -/
def usualContext : Int := 3

/-- Place, or the breakdown of a position outside of the text. -/
def placeOf (text : List Char) (pos : Nat) : Except Breakdown Place :=
  match place? text pos with
  | some p => .ok p
  | none => .error .positionOutOfRange

/-- Show a position with `amount` lines of context. -/
def showPosition (text : List Char) (pos : Nat) (amount : Int) : Except Breakdown (List Char) := do
  let p ← placeOf text pos
  let ls := lines text
  let margin := List.replicate p.column ' '
  return (linesBefore ls p.line amount).flatten
    ++ margin ++ ['∨', '\n']
    ++ endLineFeed ((slice ls p.line (p.line + 2)).headD [])
    ++ margin ++ ['∧', '\n']
    ++ (linesAfter ls p.line amount).flatten

/-- The lines of a span with its marks. The closing mark goes in first: it does not move what stands before it. -/
def markedLines (ls : List (List Char)) (p q : Place) : Except Breakdown (List (List Char)) :=
  let item := slice ls p.line (q.line + 1)
  match item.getLast? with
  | none => .error .positionOutOfRange
  | some last => do
    let column : Nat := if item.length < q.line + 1 - p.line then last.length else q.column
    let last ← insertBeforeBlanks last ['<', '<'] column
    match item.dropLast ++ [last] with
    | [] => .error .positionOutOfRange
    | first :: rest => return insertAt first ['>', '>'] p.column :: rest

/-- Show a span with `amount` lines of context. -/
def showSpan (text : List Char) (span : Span) (amount : Int) : Except Breakdown (List Char) := do
  let p ← placeOf text span.start
  let q ← placeOf text span.stop
  let ls := lines text
  let item ← markedLines ls p q
  return (linesBefore ls p.line amount).flatten ++ item.flatten ++ (linesAfter ls q.line amount).flatten

end Playhouse.Source
