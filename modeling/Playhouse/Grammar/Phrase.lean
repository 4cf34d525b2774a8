import Playhouse.Grammar.Failure
import Playhouse.Grammar.Tree

/-!
# Playhouse.Grammar.Phrase — the forms of the right-hand sides of rules

Choices are ordered: the first that can be read is taken. A choice that cannot be read reports the list of what it
expects, at the position where it began.
-/

namespace Playhouse.Grammar

/-- Texts that are captured as they stand, without skipping blanks before them. -/
inductive Pattern where
  /-- A Roman numeral below 5000, possibly empty, in letters of either case. -/
  | numeral
  /-- Blanks, possibly none. -/
  | blanks
  /-- Everything up to a full stop or an exclamation mark. -/
  | untilStop
  /-- Everything up to the last full stop of the line. -/
  | throughStop
  deriving DecidableEq, Repr

/-- The forms of phrases. -/
inductive Phrase where
  | empty
  | token (letters : List Char)
  | pattern (p : Pattern)
  | endOfText
  | call (r : Rule)
  | seq (p q : Phrase)
  | alt (p q : Phrase)
  /-- `p`, with a list of what is expected in place of its failures. -/
  | expect (expected : List Expected) (p : Phrase)
  | opt (p : Phrase)
  | many (p : Phrase)
  | many1 (p : Phrase)
  /-- Nothing, provided that `p` cannot be read here. -/
  | notAhead (p : Phrase)
  /-- `p`, with its result in the field `f`. -/
  | label (f : Field) (p : Phrase)
  /-- `p`, with its result among those that the rule collects. -/
  | gather (p : Phrase)
  deriving Repr

namespace Phrase

/-- A word of the grammar. -/
def word (w : String) : Phrase := token w.toList

/-- Phrases one after the other. -/
def sequence : List Phrase → Phrase
  | [] => empty
  | [p] => p
  | p :: ps => seq p (sequence ps)

/-- The first of the phrases that can be read. -/
def firstOf : List Phrase → Phrase
  | [] => notAhead empty
  | [p] => p
  | p :: ps => alt p (firstOf ps)

/-- A choice that says what it expects. -/
def oneOf (options : List Phrase) (expected : List Expected) : Phrase := expect expected (firstOf options)

/-- Words one after the other. -/
def words (ws : List String) : Phrase := sequence (ws.map word)

/-- The end of a sentence. -/
def stop : Phrase := oneOf [word "!", word "."] [.word "!", .word "."]

end Phrase

end Playhouse.Grammar
