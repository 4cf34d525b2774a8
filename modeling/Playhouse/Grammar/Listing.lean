import Playhouse.Grammar.Tree
import Playhouse.Source.Lines
import Playhouse.Text.Quoted

/-!
# Playhouse.Grammar.Listing — trees printed line by line

The listing of a tree is JSON, indented by two columns for each level and in ASCII only. A node ends with where it
was read: its rule, where it starts and stops, and the lines of both.
-/

namespace Playhouse.Grammar

open Text

/-- A character inside double quotes. Above the basic plane it is two units of sixteen bits. -/
def listingChar (c : Char) : List Char :=
  let unit (n : Nat) : List Char := '\\' :: 'u' :: hexDigits 4 n
  if c = '"' ∨ c = '\\' then ['\\', c]
  else if c = '\n' then ['\\', 'n']
  else if c = '\r' then ['\\', 'r']
  else if c = '\t' then ['\\', 't']
  else if c.toNat = 8 then ['\\', 'b']
  else if c.toNat = 12 then ['\\', 'f']
  else if 32 ≤ c.toNat ∧ c.toNat < 127 then [c]
  else if c.toNat < 0x10000 then unit c.toNat
  else
    let n := c.toNat - 0x10000
    unit (0xd800 + n / 0x400) ++ unit (0xdc00 + n % 0x400)

/-- A text between double quotes. -/
def listingText (s : String) : String := String.ofList ('"' :: s.toList.flatMap listingChar ++ ['"'])

/-- The beginning of a line at a level. -/
def indentation (level : Nat) : String := String.ofList ('\n' :: List.replicate (2 * level) ' ')

/-- Entries between brackets, each on a line of its own. -/
def listingBlock (level : Nat) (opening closing : String) (entries : List String) : String :=
  if entries.isEmpty then opening ++ closing
  else
    let inner := indentation (level + 1)
    opening ++ inner ++ ("," ++ inner).intercalate entries ++ indentation level ++ closing

/-- The last entry of a node. -/
def listingPlace (text : List Char) (level : Nat) (r : Rule) (span : Span) : String :=
  "\"parseinfo\": " ++ listingBlock level "[" "]"
    ["null", listingText r.name, toString span.start, toString span.stop, toString (Source.lineOf text span.start),
     toString (Source.lineOf text span.stop)]

mutual

/-- The listing of a tree at a level. -/
def listing (text : List Char) (level : Nat) : Tree → String
  | .absent => "null"
  | .word w => listingText w
  | .list ts => listingBlock level "[" "]" (listings text (level + 1) ts)
  | .node r span fields =>
    listingBlock level "\x7b" "\x7d"
      (fieldListings text (level + 1) fields ++ [listingPlace text (level + 1) r span])

/-- The listings of trees at a level. -/
def listings (text : List Char) (level : Nat) : List Tree → List String
  | [] => []
  | t :: ts => listing text level t :: listings text level ts

/-- The listings of fields at a level. -/
def fieldListings (text : List Char) (level : Nat) : List (Field × Tree) → List String
  | [] => []
  | (f, t) :: rest => (listingText f.key ++ ": " ++ listing text level t) :: fieldListings text level rest

end

end Playhouse.Grammar
