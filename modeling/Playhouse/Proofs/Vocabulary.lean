import Mathlib.Tactic.MkIffOfInductiveProp
import Playhouse.Proofs.Wording

/-!
# Playhouse.Proofs.Vocabulary — words that cannot be mistaken for each other

What has to be known of the word lists so that sentences can be read as they are written: no entry of a list can be
taken for a later one, and `Rule.foreign` says for each rule which kinds of words it is refused at. Two things are
not told by the first word. The word *the* begins operations, noun phrases and names; there the second word tells.
And *King* begins four names, where it is taken for the noun, since noun phrases are tried before names.
-/

namespace Playhouse.Grammar

open Lexicon Phrase

/-! ### Kinds of words -/

/-- The words of the operations on two values. -/
def binaryOperations : List (List String) :=
  [["the", "difference", "between"], ["the", "product", "of"], ["the", "quotient", "between"],
   ["the", "remainder", "of", "the", "quotient", "between"], ["the", "sum", "of"]]

/-- The words of the operations on one value. -/
def unaryOperations : List (List String) :=
  [["the", "cube", "of"], ["the", "factorial", "of"], ["the", "square", "of"],
    ["the", "square", "root", "of"], ["twice"]]

/-- All operations. -/
def operations : List (List String) := binaryOperations ++ unaryOperations

/-- The words for zero. -/
def zeros : List (List String) := [["nothing"], ["zero"]]

/-- The words that make a comparison, for more and for less. -/
def greaterWords : List String := ["better", "bigger", "fresher", "friendlier", "nicer", "jollier"]

def lesserWords : List String := ["punier", "smaller", "worse"]

/-- Characters whose names begin like the noun *King*. -/
def kings : List (List String) := [["King", "Henry"], ["King", "John"], ["King", "Lear"], ["King", "Richard"]]

/-- Characters whose names begin with *the*. -/
def titled : List (List String) :=
  [["The", "Abbot", "of", "Westminster"], ["The", "Apothecary"], ["The", "Archbishop", "of", "Canterbury"],
   ["The", "Duke", "of", "Milan"], ["The", "Duke", "of", "Venice"], ["The", "Ghost"]]

/-- The name begins neither with *the* nor with *King*. -/
def isCommon (name : List String) : Bool :=
  !fits "the".toList (firstWord name) && !fits "King".toList (firstWord name)

/-- Kinds of words that may come in each other's place. -/
inductive Kind where
  | speaker | speakerReflexive | listener | listenerReflexive
  | article | indefinite | speakerPossessive | listenerPossessive | otherPossessive
  | badAdjective | neutralAdjective | goodAdjective
  | badNoun | neutralNoun | goodNoun
  | name | commonName | surname | zero | operation | doubling
  /-- What follows *the* where it does not begin a noun phrase. -/
  | afterThe
  | be | likeness | less | more
  | going | opening | speaking | listening | remembering | recalling
  deriving DecidableEq

/-- The entries of a kind. -/
def Kind.entries : Kind → List (List String)
  | speaker => firstPersons
  | speakerReflexive => firstPersonReflexives
  | listener => secondPersons
  | listenerReflexive => secondPersonReflexives
  | article => articles
  | indefinite => [["a"], ["an"]]
  | speakerPossessive => firstPersonPossessives
  | listenerPossessive => secondPersonPossessives
  | otherPossessive => thirdPersonPossessives
  | badAdjective => negativeAdjectives
  | neutralAdjective => neutralAdjectives
  | goodAdjective => positiveAdjectives
  | badNoun => negativeNouns
  | neutralNoun => neutralNouns
  | goodNoun => positiveNouns
  | name => characters
  | commonName => characters.filter isCommon
  | surname => kings.map (·.drop 1)
  | zero => zeros
  | operation => operations
  | doubling => [["twice"]]
  | afterThe => (titled ++ (binaryOperations ++ unaryOperations.dropLast)).map (·.drop 1)
  | be => formsOfBe
  | likeness => [["as"]]
  | less => lesserWords.map ([·])
  | more => [["more"]]
  | going => [["Let", "us"], ["We", "shall"], ["We", "must"]]
  | opening => [["open"]]
  | speaking => [["speak"]]
  | listening => [["listen"]]
  | remembering => [["Remember"]]
  | recalling => [["Recall"]]

/-- The entry is of one of the kinds. -/
def Among (ks : List Kind) (e : List String) : Prop := ∃ k ∈ ks, e ∈ k.entries

def possessives : List Kind := [.speakerPossessive, .listenerPossessive, .otherPossessive]

def adjectives : List Kind := [.badAdjective, .neutralAdjective, .goodAdjective]

def nouns : List Kind := [.badNoun, .neutralNoun, .goodNoun]

/-- What values begin with, but for adjectives. -/
def openers : List Kind :=
  [.speaker, .speakerReflexive, .listener, .listenerReflexive, .article, .name, .zero, .doubling] ++
    possessives ++ nouns

/-! ### The tables -/

/-- The entries of the rules that consist of words only. -/
def Rule.entries : Rule → List (List String)
  | be => formsOfBe
  | article => articles
  | firstPerson => firstPersons
  | firstPersonPossessive => firstPersonPossessives
  | secondPerson => secondPersons
  | secondPersonReflexive => secondPersonReflexives
  | secondPersonPossessive => secondPersonPossessives
  | thirdPersonPossessive => thirdPersonPossessives
  | negativeAdjective => negativeAdjectives
  | neutralAdjective => neutralAdjectives
  | positiveAdjective => positiveAdjectives
  | negativeNoun => negativeNouns
  | neutralNoun => neutralNouns
  | positiveNoun => positiveNouns
  | character => characters
  | binaryOperation => binaryOperations
  | unaryOperation => unaryOperations
  | letUs => [["Let", "us"], ["We", "shall"], ["We", "must"]]
  | proceedTo => [["proceed", "to"], ["return", "to"]]
  | _ => []

/-- The kinds of words that a rule is refused at, as far as they may come in its place. -/
def Rule.foreign : Rule → List Kind
  | expression => [.speaker, .speakerReflexive, .listener, .listenerReflexive, .indefinite, .commonName, .zero] ++
      possessives ++ adjectives ++ nouns
  | firstPersonValue =>
    [.listener, .listenerReflexive, .article, .name, .zero, .operation] ++ possessives ++ adjectives ++
      nouns
  | secondPersonValue => [.article, .name, .zero, .operation] ++ possessives ++ adjectives ++ nouns
  | nounPhrase => [.commonName, .zero, .doubling]
  | characterName => [.zero]
  | nothing => [.operation]
  | firstPerson => [.speakerReflexive]
  | secondPerson => [.listenerReflexive]
  | article => possessives ++ adjectives ++ nouns
  | possessive => adjectives ++ nouns
  | firstPersonPossessive => [.listenerPossessive, .otherPossessive]
  | secondPersonPossessive => [.otherPossessive]
  | negativeAdjective => [.neutralAdjective, .goodAdjective, .afterThe] ++ openers
  | neutralAdjective => [.goodAdjective, .afterThe] ++ nouns
  | positiveAdjective => [.neutralAdjective, .badAdjective]
  | positiveOrNeutralAdjective => [.badAdjective, .afterThe] ++ openers
  | negativeNoun => [.goodAdjective, .goodNoun, .neutralNoun, .afterThe]
  | positiveNoun => [.neutralNoun]
  | positiveOrNeutralNoun => [.afterThe]
  | be => [.likeness] ++ openers ++ adjectives
  | positiveComparative => [.likeness, .less, .surname]
  | neutralComparative => [.less, .more, .surname]
  | negativeComparative => [.surname]
  | negativeIf => [.be, .listener, .going, .opening, .speaking, .listening, .remembering, .recalling]
  | positiveIf => [.be, .listener, .going, .opening, .speaking, .listening, .remembering, .recalling]
  | question => [.listener, .going, .opening, .speaking, .listening, .remembering, .recalling]
  | assignment => [.be, .going, .opening, .speaking, .listening, .remembering, .recalling]
  | goto => [.be, .listener, .opening, .speaking, .listening, .remembering, .recalling]
  | output => [.be, .listener, .listening, .remembering, .recalling]
  | input => [.be, .listener, .remembering, .recalling]
  | push => [.be, .listener, .recalling]
  | pop => [.be, .listener, .remembering]
  | _ => []

/-- The phrase is refused at all entries of the kinds. -/
def Phrase.isShutTo (p : Phrase) (ks : List Kind) : Bool :=
  ks.all fun k => (k.entries.all fun e => isProper (firstWord e)) && p.isShut (k.entries.map firstWord)

/-- None of the entries `es` can be taken for one of `fs`. -/
def areDistinct (es fs : List (List String)) : Bool := es.all fun e => fs.all fun f => refusesWords e f

/-- Choices of words inside other rules. -/
def choices : List (List (List String)) :=
  [zeros, greaterWords.map ([·]) ++ [["more"]], lesserWords.map ([·]) ++ [["more"]]]

/-- Pairs of words of which the first is tried in the place of the second. -/
def contrasts : List (String × String) :=
  [("a", "the"), ("an", "the"), ("a", "The"), ("an", "The"), ("not", "so"), ("scene", "act"), ("open", "speak"),
   ("speak", "open"), ("listen", "open"), ("heart", "mind"), ("!", ".")]

/-- The other words of the rules. -/
def particles : List String :=
  ["a", "an", "the", "The", "myself", "and", "as", "than", "more", "open", "heart", "speak", "mind", "listen",
    "to", "Remember",
   "Recall", "If", "so", "not", ",", "Henry", "John", "Lear", "Richard", "scene", "act", "!", ".", "?"]

/-- What the tables of words are checked for. -/
@[mk_iff] structure Vocabulary : Prop where
  foreign_shut : ∀ r ∈ Rule.all, (call r).isShutTo r.foreign = true
  entries_lexical : ∀ r ∈ Rule.all, isLexical r.entries = true
  choices_lexical : ∀ es ∈ choices, isLexical es = true
  as_shut : (word "as").isShutTo (openers ++ adjectives) = true
  closers_shut : ∀ p ∈ [word "and", word "?", stop], p.isShutTo [.surname] = true
  particles_proper : ∀ w ∈ particles, isProper w.toList = true
  contrasts_differ : ∀ x ∈ contrasts, isProper x.1.toList = true ∧ fits x.1.toList x.2.toList = false
  operations_nouns : ∀ k ∈ adjectives ++ nouns, areDistinct operations (k.entries.map ("the" :: ·)) = true
  operations_titled : areDistinct operations titled = true
  characters_operations : areDistinct characters operations = true
  binary_unary : areDistinct binaryOperations unaryOperations = true
  unary_binary : areDistinct unaryOperations binaryOperations = true
  the_capital : (fits "the".toList "The".toList && "the".toList.length == "The".toList.length) = true
  characters_kinds : characters.all (fun e => isCommon e || kings.contains e || titled.contains e) = true

-- All the tables are checked at once, so that each word is taken apart only once.
theorem vocabulary : Vocabulary := (vocabulary_iff).mpr (by decide +kernel)

/-! ### What follows from the tables -/

section Reading

variable {N : Nat} {r : Rule} {ks : List Kind} {w : String} {e f : List String} {tail : List Char}

theorem refuses_of_isShutTo {p : Phrase} (h : p.isShutTo ks = true) (he : Among ks e) :
    p.Refuses N (spelled e tail) := by
  simp only [isShutTo, List.all_eq_true, Bool.and_eq_true] at h
  obtain ⟨k, hk, he⟩ := he
  obtain ⟨hproper, hshut⟩ := h k hk
  cases e with
  | nil => exact absurd (hproper [] he) (by decide)
  | cons w e => exact refuses_of_isShut hshut (List.mem_map_of_mem he) (hproper _ he) (apart_blank _)

theorem Among.of (k : Kind) (hk : k ∈ ks) (he : e ∈ k.entries) : Among ks e := ⟨k, hk, he⟩

theorem Among.mono (h : Among ks e) {ls : List Kind} (hsub : ∀ k ∈ ks, k ∈ ls) : Among ls e := by
  obtain ⟨k, hk, he⟩ := h
  exact ⟨k, hsub k hk, he⟩

/-- A rule is refused where something foreign to it is written. -/
theorem refuses_foreign (he : Among r.foreign e) : (call r).Refuses N (spelled e tail) :=
  refuses_of_isShutTo (Vocabulary.foreign_shut vocabulary r r.mem_all) he

theorem flush_of_foreign (he : Among r.foreign e) (tail : List Char) : Flush (spelled e tail) := by
  have h := Vocabulary.foreign_shut vocabulary r r.mem_all
  simp only [isShutTo, List.all_eq_true, Bool.and_eq_true] at h
  obtain ⟨k, hk, he⟩ := he
  cases e with
  | nil => exact absurd ((h k hk).1 [] he) (by decide)
  | cons w e => exact flush_spelled ((h k hk).1 _ he) e tail

theorem refuses_kind (k : Kind) (hk : k ∈ r.foreign) (he : e ∈ k.entries) : (call r).Refuses N (spelled e tail) :=
  refuses_foreign ⟨k, hk, he⟩

theorem as_refuses (he : Among (openers ++ adjectives) e) : (word "as").Refuses N (spelled e tail) :=
  refuses_of_isShutTo (Vocabulary.as_shut vocabulary) he

/-- What comes after a value cannot be taken for the surname of a king. -/
theorem closer_refuses {p : Phrase} (hp : p ∈ [word "and", word "?", stop]) (he : e ∈ Kind.surname.entries) :
    p.Refuses N (spelled e tail) :=
  refuses_of_isShutTo (Vocabulary.closers_shut vocabulary p hp) ⟨_, List.mem_singleton_self _, he⟩

theorem proper_particle (hw : w ∈ particles) : isProper w.toList = true :=
  Vocabulary.particles_proper vocabulary w hw

theorem proper_particles (h : ∀ w ∈ e, w ∈ particles) : AreProper e := fun w hw => proper_particle (h w hw)

theorem flush_particle (hw : w ∈ particles) (vs : List String) (tail : List Char) :
    Flush (spelled (w :: vs) tail) :=
  flush_spelled (proper_particle hw) vs tail

theorem reads_particle (hw : w ∈ particles) (htail : Flush tail) :
    (word w).Reads N (spelled [w] tail) tail (· = .one (.word w)) :=
  reads_word (proper_particle hw) htail

theorem contrast_fits {v : String} (h : (v, w) ∈ contrasts) :
    isProper v.toList = true ∧ fits v.toList w.toList = false :=
  Vocabulary.contrasts_differ vocabulary _ h

theorem refuses_contrast {v : String} (h : (v, w) ∈ contrasts) : (word v).Refuses N (spelled [w] tail) :=
  refuses_token ((apart_blank tail).closes (contrast_fits h).1) (contrast_fits h).2

theorem the_fits : fits "the".toList "The".toList = true ∧ "the".toList.length = "The".toList.length := by
  simpa using Vocabulary.the_capital vocabulary

theorem proper_of_entries (he : e ∈ r.entries) : e ≠ [] ∧ AreProper e :=
  proper_of_lexical (Vocabulary.entries_lexical vocabulary r r.mem_all) he

theorem body_of_entries (he : e ∈ r.entries) :
    r.fields = [] ∧ ∃ expected, r.body = oneOf (r.entries.map words) expected := by
  cases r <;> first | exact ⟨rfl, _, rfl⟩ | cases he

/-- The tree of an entry. -/
def entryTree (e : List String) : Tree := .merge (e.map .word)

/-- A rule that consists of words only reads each of its entries. -/
theorem reads_entries_joined {more : List Char} (he : e ∈ r.entries)
    (hm : ∀ b ∈ r.entries, AreProper b → ClosesEach b more) :
    r.Reads 1 (joined e more) (more.dropWhile Text.isBlank) (· = entryTree e) := by
  obtain ⟨hfields, expected, hbody⟩ := body_of_entries he
  refine (reads_call hbody (reads_entry_joined (Vocabulary.entries_lexical vocabulary r r.mem_all) he hm)).imp ?_
  rintro y ⟨u, span, rfl, rfl⟩
  refine ⟨_, rfl, ?_⟩
  rw [Yield.ruleTree, hfields]
  rfl

theorem reads_entries (he : e ∈ r.entries) (htail : Flush tail) :
    r.Reads 1 (spelled e tail) tail (· = entryTree e) := by
  have hread := reads_entries_joined he fun _ _ hb => hb.closesEach (apart_blank tail)
  rwa [dropWhile_blank htail, ← spelled_eq_joined (proper_of_entries he).1] at hread

theorem lexical_of_choice {es : List (List String)} (h : es ∈ choices) : isLexical es = true :=
  Vocabulary.choices_lexical vocabulary es h

theorem proper_of_adjective_or_noun (he : Among (adjectives ++ nouns) e) : e ≠ [] ∧ AreProper e := by
  obtain ⟨k, hk, he⟩ := he
  simp only [adjectives, nouns, List.cons_append, List.nil_append, List.mem_cons, List.not_mem_nil, or_false] at hk
  obtain rfl | rfl | rfl | rfl | rfl | rfl := hk
  · exact proper_of_entries (r := .negativeAdjective) he
  · exact proper_of_entries (r := .neutralAdjective) he
  · exact proper_of_entries (r := .positiveAdjective) he
  · exact proper_of_entries (r := .negativeNoun) he
  · exact proper_of_entries (r := .neutralNoun) he
  · exact proper_of_entries (r := .positiveNoun) he

theorem proper_of_operation (he : e ∈ operations) : e ≠ [] ∧ AreProper e := by
  obtain he | he := List.mem_append.mp he
  · exact proper_of_entries (r := .binaryOperation) he
  · exact proper_of_entries (r := .unaryOperation) he

theorem refuses_distinct {es fs : List (List String)} (h : areDistinct es fs = true) (he : e ∈ es) (hf : f ∈ fs)
    (hproper : AreProper e) (htext : AreProper f) : (words e).Refuses N (spelled f tail) := by
  simp only [areDistinct, List.all_eq_true] at h
  exact refuses_words (h e he f hf) hproper htext

/-- No operation is read where a noun phrase begins with *the*. -/
theorem operation_refuses_noun (he : e ∈ operations) (hf : Among (adjectives ++ nouns) f) :
    (words e).Refuses N (spelled ("the" :: f) tail) := by
  have hproper : AreProper ("the" :: f) :=
    .cons (proper_particle (by simp [particles])) (proper_of_adjective_or_noun hf).2
  obtain ⟨k, hk, hf⟩ := hf
  exact refuses_distinct (Vocabulary.operations_nouns vocabulary k hk) he (List.mem_map_of_mem hf)
    (proper_of_operation he).2 hproper

/-- No operation is read where a name begins with *the*. -/
theorem operation_refuses_titled (he : e ∈ operations) (hf : f ∈ titled) (hproper : AreProper f) :
    (words e).Refuses N (spelled f tail) :=
  refuses_distinct (Vocabulary.operations_titled vocabulary) he hf (proper_of_operation he).2 hproper

/-- No name is read where an operation is written. -/
theorem character_refuses_operation (he : e ∈ characters) (hf : f ∈ operations) :
    (words e).Refuses N (spelled f tail) :=
  refuses_distinct (Vocabulary.characters_operations vocabulary) he hf (proper_of_entries (r := .character) he).2
    (proper_of_operation hf).2

/-- No operation on two values is read where one on one value is written. -/
theorem binary_refuses_unary (he : e ∈ binaryOperations) (hf : f ∈ unaryOperations) :
    (words e).Refuses N (spelled f tail) :=
  refuses_distinct (Vocabulary.binary_unary vocabulary) he hf (proper_of_operation (List.mem_append_left _ he)).2
    (proper_of_operation (List.mem_append_right _ hf)).2

/-- No operation on one value is read where one on two values is written. -/
theorem unary_refuses_binary (he : e ∈ unaryOperations) (hf : f ∈ binaryOperations) :
    (words e).Refuses N (spelled f tail) :=
  refuses_distinct (Vocabulary.unary_binary vocabulary) he hf (proper_of_operation (List.mem_append_right _ he)).2
    (proper_of_operation (List.mem_append_left _ hf)).2

/-- A name begins like nothing else, unless it begins with *King* or with *the*. -/
theorem character_cases (he : e ∈ characters) : e ∈ Kind.commonName.entries ∨ e ∈ kings ∨ e ∈ titled := by
  have h := Vocabulary.characters_kinds vocabulary
  simp only [List.all_eq_true, Bool.or_eq_true, List.contains_iff_mem] at h
  obtain (h | h) | h := h e he
  · exact .inl (List.mem_filter.mpr ⟨he, h⟩)
  · exact .inr (.inl h)
  · exact .inr (.inr h)

end Reading

end Playhouse.Grammar
