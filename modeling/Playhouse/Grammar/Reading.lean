import Playhouse.Grammar.Rules
import Playhouse.Text.Alphanumeric
import Playhouse.Text.Blank
import Playhouse.Text.Case

/-!
# Playhouse.Grammar.Reading — reading a text by the grammar

`Phrase.read` follows a phrase, given a way to read rules; `Rule.read` ties the knot. Its first argument bounds how
deeply rules are nested: `callDepth` of a text is enough for the text, since no rule comes back to itself without
reading a character. Every result carries the failure that got furthest so far.
-/

namespace Playhouse.Grammar

open Text

/-- How a text is divided into words. -/
structure Lexis where
  /-- What is skipped before words and rules. -/
  isSkipped : Char → Bool
  /-- A word of letters and digits only must not go on with a letter or digit. -/
  guardsWords : Bool

/-- The usual division: all blanks are skipped, and words end where they end. -/
def Lexis.usual : Lexis := ⟨isBlank, true⟩

/-- What is left to read, and the position it begins at. -/
structure Cursor where
  pos : Nat
  rest : List Char
  deriving DecidableEq, Repr

namespace Cursor

/-- The beginning of a text. -/
def start (text : List Char) : Cursor := ⟨0, text⟩

/-- Move over `n` characters. -/
def advance (c : Cursor) (n : Nat) : Cursor := ⟨c.pos + n, c.rest.drop n⟩

/-- Move over what is skipped between words. -/
def skip (lx : Lexis) (c : Cursor) : Cursor := c.advance (c.rest.takeWhile lx.isSkipped).length

end Cursor

/-- Two letters that differ at most in case. -/
def sameLetter (a b : Char) : Bool := lowerCase a == lowerCase b

/-- The text begins with the letters, in any case. -/
def beginsWith : List Char → List Char → Bool
  | [], _ => true
  | _ :: _, [] => false
  | t :: ts, c :: cs => sameLetter t c && beginsWith ts cs

/-- The word is only the beginning of a longer word of the text. -/
def isCutOff (lx : Lexis) (letters rest : List Char) : Bool :=
  lx.guardsWords && letters.all isAlphanumeric && rest.head?.any isAlphanumeric

/-- A letter of a Roman numeral: dotted and dotless `i` count as `i`. -/
def isNumeralLetter (letter c : Char) : Bool :=
  sameLetter letter c || (letter == 'I' && (c == 'İ' || c == 'ı'))

/-- The number of characters, at most `limit`, that are the given letter of a numeral. -/
def countLetter (letter : Char) : Nat → List Char → Nat
  | 0, _ => 0
  | _, [] => 0
  | limit + 1, c :: cs => if isNumeralLetter letter c then countLetter letter limit cs + 1 else 0

/-- The length of one decimal place of a numeral, written with the letters for one, five and ten. -/
def placeLength (one five ten : Char) (cs : List Char) : Nat :=
  match cs with
  | a :: b :: _ =>
    if isNumeralLetter one a && (isNumeralLetter ten b || isNumeralLetter five b) then 2
    else countLetter five 1 cs + countLetter one 3 (cs.drop (countLetter five 1 cs))
  | _ => countLetter five 1 cs + countLetter one 3 (cs.drop (countLetter five 1 cs))

/-- The length of the numeral that a text begins with. -/
def numeralLength (cs : List Char) : Nat :=
  let m := countLetter 'M' 4 cs
  let c := m + placeLength 'C' 'D' 'M' (cs.drop m)
  let x := c + placeLength 'X' 'L' 'C' (cs.drop c)
  x + placeLength 'I' 'V' 'X' (cs.drop x)

/-- The length of what a pattern captures, unless it does not fit. -/
def Pattern.length? (p : Pattern) (cs : List Char) : Option Nat :=
  match p with
  | numeral => some (numeralLength cs)
  | blanks => some (cs.takeWhile isBlank).length
  | untilStop => some (cs.takeWhile fun c => c != '!' && c != '.').length
  | throughStop =>
    let before := (cs.takeWhile (· != '\n')).reverse.dropWhile (· != '.')
    if before.isEmpty then none else some before.length

/-- What a phrase gives: the trees in order, those with a field, and those to be collected. -/
structure Yield where
  items : List Tree
  fields : List (Field × Tree)
  gathered : List Tree

namespace Yield

/-- Nothing. -/
def none : Yield := ⟨[], [], []⟩

/-- One tree. -/
def one (t : Tree) : Yield := ⟨[t], [], []⟩

/-- Two yields one after the other. -/
def append (y z : Yield) : Yield := ⟨y.items ++ z.items, y.fields ++ z.fields, y.gathered ++ z.gathered⟩

/-- The yield as one tree. -/
def tree (y : Yield) : Tree := Tree.merge y.items

/-- The yields of a repetition: their trees form a list. -/
def repeated (ys : List Yield) : Yield :=
  ⟨[.list (ys.map tree)], ys.flatMap fields, ys.flatMap gathered⟩

/-- The tree of a rule. -/
def ruleTree (r : Rule) (span : Span) (y : Yield) : Tree :=
  match r.fields with
  | [] => if y.gathered.isEmpty then y.tree else .list y.gathered
  | fs => .node r span (fs.map fun f => (f, (y.fields.lookup f).getD .absent))

end Yield

/-- The result of reading: what was read and where reading goes on, or a failure. `seen` is the failure that got
furthest so far. -/
inductive Reading (α : Type) where
  | done (a : α) (c : Cursor) (seen : Option Failure)
  | failed (e : Failure) (seen : Option Failure)

/-- Something that reads a text from a cursor on. -/
abbrev Reader (α : Type) := Cursor → Option Failure → Reading α

/-- Read as often as possible, at most `limit` times. A repetition has to move on. -/
def readMany (p : Reader Yield) (stack : List Rule) : Nat → Reader (List Yield)
  | 0, c, seen => .done [] c seen
  | limit + 1, c, seen =>
    match p c seen with
    | .failed _ seen => .done [] c seen
    | .done y c' seen =>
      if c'.pos = c.pos then .failed ⟨.emptyRepetition, c.pos, stack⟩ seen
      else
        match readMany p stack limit c' seen with
        | .done ys c'' seen => .done (y :: ys) c'' seen
        | .failed e seen => .failed e seen

/-- Read a phrase. `call` reads rules; `stack` holds the rules being read, innermost first. -/
def Phrase.read (lx : Lexis) (call : List Rule → Rule → Reader Tree) (stack : List Rule) : Phrase → Reader Yield
  | empty, c, seen => .done .none c seen
  | token letters, c, seen =>
    let c := c.skip lx
    let rest := c.rest.drop letters.length
    if beginsWith letters c.rest && !isCutOff lx letters rest then
      .done (.one (.word (String.ofList letters))) ⟨c.pos + letters.length, rest⟩ seen
    else .failed ⟨.word letters, c.pos, stack⟩ seen
  | pattern p, c, seen =>
    match p.length? c.rest with
    | some n => .done (.one (.word (String.ofList (c.rest.take n)))) (c.advance n) seen
    | none => .failed ⟨.pattern, c.pos, stack⟩ seen
  | endOfText, c, seen =>
    let c := c.skip lx
    if c.rest.isEmpty then .done .none c seen else .failed ⟨.endOfText, c.pos, stack⟩ seen
  | .call r, c, seen =>
    match call stack r c seen with
    | .done t c seen => .done (.one t) c seen
    | .failed e seen => .failed e seen
  | seq p q, c, seen =>
    match p.read lx call stack c seen with
    | .failed e seen => .failed e seen
    | .done y c seen =>
      match q.read lx call stack c seen with
      | .failed e seen => .failed e seen
      | .done z c seen => .done (y.append z) c seen
  | alt p q, c, seen =>
    match p.read lx call stack c seen with
    | .done y c seen => .done y c seen
    | .failed _ seen => q.read lx call stack c seen
  | expect expected p, c, seen =>
    match p.read lx call stack c seen with
    | .done y c seen => .done y c seen
    | .failed _ seen => .failed ⟨.oneOf expected, c.pos, stack⟩ seen
  | opt p, c, seen =>
    match p.read lx call stack c seen with
    | .done y c seen => .done y c seen
    | .failed _ seen => .done .none c seen
  | many p, c, seen =>
    match readMany (p.read lx call stack) stack (c.rest.length + 1) c seen with
    | .done ys c seen => .done (.repeated ys) c seen
    | .failed e seen => .failed e seen
  | many1 p, c, seen =>
    match p.read lx call stack c seen with
    | .failed e seen => .failed e seen
    | .done y c seen =>
      match readMany (p.read lx call stack) stack (c.rest.length + 1) c seen with
      | .done ys c seen => .done (.repeated (y :: ys)) c seen
      | .failed e seen => .failed e seen
  | notAhead p, c, seen =>
    match p.read lx call stack c seen with
    | .done _ _ seen => .failed ⟨.unwanted, c.pos, stack⟩ seen
    | .failed _ seen => .done .none c seen
  | label f p, c, seen =>
    match p.read lx call stack c seen with
    | .done y c seen => .done ⟨y.items, y.fields ++ [(f, y.tree)], y.gathered⟩ c seen
    | .failed e seen => .failed e seen
  | gather p, c, seen =>
    match p.read lx call stack c seen with
    | .done y c seen => .done ⟨y.items, y.fields, y.gathered ++ [y.tree]⟩ c seen
    | .failed e seen => .failed e seen

/-- Read a rule, with at most `depth` rules nested. The span of its tree begins before the blanks. -/
def Rule.read (lx : Lexis) : Nat → List Rule → Rule → Reader Tree
  | 0, stack, r, c, seen => .failed ⟨.tooDeep, c.pos, r :: stack⟩ seen
  | depth + 1, stack, r, c, seen =>
    match r.body.read lx (Rule.read lx depth) (r :: stack) (c.skip lx) seen with
    | .done y c' seen => .done (y.ruleTree r ⟨c.pos, c'.pos⟩) c' seen
    | .failed e seen => .failed e (some (furthest seen e))

/-- The number of rules that can be nested at one position. -/
def ranks : Nat := 16

/-- How deeply rules can be nested in a text. -/
def callDepth (text : List Char) : Nat := (text.length + 1) * ranks

/-- Read a rule from the beginning of a text: its tree and where it ends, or the failure that got furthest. -/
def readRule (lx : Lexis) (r : Rule) (text : List Char) : Except Failure (Tree × Cursor) :=
  match r.read lx (callDepth text) [] (Cursor.start text) none with
  | .done t c _ => .ok (t, c)
  | .failed e seen => .error (furthest seen e)

/-- The tree of a rule at the beginning of a text. -/
def parse (r : Rule) (text : List Char) : Except Failure Tree := (readRule .usual r text).map Prod.fst

/-- The tree of the rule of a name. -/
def parseNamed (lx : Lexis) (name : String) (text : List Char) : Except Failure Tree :=
  match Rule.ofName? name with
  | some r => (readRule lx r text).map Prod.fst
  | none => .error ⟨.rule name, 0, []⟩

end Playhouse.Grammar
