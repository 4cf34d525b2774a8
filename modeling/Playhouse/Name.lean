import Playhouse.Text.Case
import Playhouse.Text.Replace

/-!
# Playhouse.Name — names of characters in their canonical form

Each word of a name begins with a capital, and `of` between two words is small. A word is a run of letters: any
other character begins a new one.
-/

namespace Playhouse.Name

open Text

/-- The sigma at the end of a word: some letter stands before it and none after, whatever is ignorable apart. The
characters before it are given last first. -/
def isFinalSigma (before after : List Char) : Bool :=
  ((before.dropWhile isCaseIgnorable).head?.any isCased) &&
    !((after.dropWhile isCaseIgnorable).head?.any isCased)

/-- The lower case of a letter inside a word. -/
def lowerWithin (before : List Char) (c : Char) (after : List Char) : List Char :=
  if c = 'Σ' then (if isFinalSigma before after then ['ς'] else ['σ']) else lowerCase c

/-- Capitals at the beginnings of words. `before` holds what was read, last first. -/
def titleFrom : List Char → List Char → List Char
  | _, [] => []
  | before, c :: cs =>
    (if before.head?.any isCased then lowerWithin before c cs else titleCase c) ++ titleFrom (c :: before) cs

/-- The canonical form of a name. -/
def normalizeChars (cs : List Char) : List Char :=
  replaceAll " Of ".toList " of ".toList (titleFrom [] cs)

/-- The canonical form of a name. -/
def normalize (name : String) : String := String.ofList (normalizeChars name.toList)

/-- The canonical form of a name given as words. -/
def normalizeWords (words : List String) : String := normalize (" ".intercalate words)

end Playhouse.Name
