import Playhouse.Proofs.Forms
import Playhouse.Proofs.Vocabulary

/-!
# Playhouse.Proofs.Phrasing — values are read as they are written

`Value.Written` says in which words a value may be written. Whatever follows, these words are read as the same
value (`reads_value`), unless a king is named in it: then the noun *King* is read in place of the name, and the
surname is left (`value_strays`).
-/

namespace Playhouse

open Grammar Lexicon

/-! ### Values in words -/

/-- The words for an operation on one value. -/
def Number.UnaryOperator.words : Number.UnaryOperator → List String
  | cube => ["the", "cube", "of"]
  | factorial => ["the", "factorial", "of"]
  | square => ["the", "square", "of"]
  | squareRoot => ["the", "square", "root", "of"]
  | twice => ["twice"]

/-- The words for an operation on two values. -/
def Number.BinaryOperator.words : Number.BinaryOperator → List String
  | difference => ["the", "difference", "between"]
  | product => ["the", "product", "of"]
  | quotient => ["the", "quotient", "between"]
  | remainder => ["the", "remainder", "of", "the", "quotient", "between"]
  | sum => ["the", "sum", "of"]

/-- The adjectives that go with nouns of a sign. -/
def Polarity.adjectives : Polarity → List (List String)
  | negative => negativeAdjectives ++ neutralAdjectives
  | positive => positiveAdjectives ++ neutralAdjectives

/-- The nouns of a sign. -/
def Polarity.nouns : Polarity → List (List String)
  | negative => negativeNouns
  | positive => positiveNouns ++ neutralNouns

/-- The words that may come before the adjectives. -/
def determiners : List (List String) :=
  articles ++ firstPersonPossessives ++ secondPersonPossessives ++ thirdPersonPossessives

/-- The words that a value is written in. A noun phrase may begin with an article or a possessive. -/
inductive Value.Written : Value → List String → Prop
  | firstPerson {span : Span} {w : String} (h : [w] ∈ firstPersons ++ firstPersonReflexives) :
      Written (.firstPerson span w) [w]
  | secondPerson {span : Span} {w : String} (h : [w] ∈ secondPersons ++ secondPersonReflexives) :
      Written (.secondPerson span w) [w]
  | character {span : Span} {name : List String} (h : name ∈ characters) : Written (.character span name) name
  | nounPhrase {span : Span} {sign : Polarity} {determiner noun : List String} {adjectives : List (List String)}
      (hd : determiner = [] ∨ determiner ∈ determiners) (ha : ∀ a ∈ adjectives, a ∈ sign.adjectives)
      (hn : noun ∈ sign.nouns) :
      Written (.nounPhrase span sign adjectives noun) (determiner ++ (adjectives.flatten ++ noun))
  | nothing {span : Span} {w : String} (h : [w] ∈ zeros) : Written (.nothing span w) [w]
  | unary {span : Span} {op : Number.UnaryOperator} {x : Value} {ws : List String} (hx : Written x ws) :
      Written (.unary span op x) (op.words ++ ws)
  | binary {span : Span} {op : Number.BinaryOperator} {x y : Value} {ws vs : List String} (hx : Written x ws)
      (hy : Written y vs) : Written (.binary span op x y) (op.words ++ (ws ++ "and" :: vs))

/-- The names of characters in a value. -/
def Value.names : Value → List (List String)
  | firstPerson _ _ | secondPerson _ _ | nounPhrase _ _ _ _ | nothing _ _ => []
  | character _ name => [name]
  | unary _ _ x => x.names
  | binary _ _ x y => x.names ++ y.names

/-- One of the four kings is named in the value. -/
def Value.NamesKing (v : Value) : Prop := ∃ name ∈ v.names, name ∈ kings

/-- The value without where it is written. -/
def Value.unplaced : Value → Value
  | firstPerson _ w => firstPerson ⟨0, 0⟩ w
  | secondPerson _ w => secondPerson ⟨0, 0⟩ w
  | character _ name => character ⟨0, 0⟩ name
  | nounPhrase _ sign adjectives noun => nounPhrase ⟨0, 0⟩ sign adjectives noun
  | nothing _ w => nothing ⟨0, 0⟩ w
  | unary _ op x => unary ⟨0, 0⟩ op x.unplaced
  | binary _ op x y => binary ⟨0, 0⟩ op x.unplaced y.unplaced

namespace Grammar

open Phrase

/-- The tree is taken for the value, up to where it is written. -/
def Describes (v : Value) (t : Tree) : Prop := ∃ v', Value.ofTree? t = some v' ∧ v'.unplaced = v.unplaced

/-! ### Noun phrases -/

section NounPhrases

variable {N : Nat} {w : String} {e d n ws : List String} {adjs : List (List String)} {sign : Polarity}
    {tail : List Char}

/-- What may stand before the adjectives. -/
def determiner : Phrase := ruleOf [.article, .possessive]

/-- An adjective that goes with nouns of a sign. -/
def adjectiveOf : Polarity → Phrase
  | .negative => ruleOf [.negativeAdjective, .neutralAdjective]
  | .positive => call .positiveOrNeutralAdjective

/-- The rule for nouns of a sign. -/
def nounOf : Polarity → Rule
  | .negative => .negativeNoun
  | .positive => .positiveOrNeutralNoun

/-- The rule for noun phrases of a sign. -/
def nounPhraseOf : Polarity → Rule
  | .negative => .negativeNounPhrase
  | .positive => .positiveNounPhrase

theorem nounPhraseOf_body (sign : Polarity) : (nounPhraseOf sign).body =
    sequence [opt determiner, label .adjectives (many (adjectiveOf sign)), label .noun (call (nounOf sign))] := by
  cases sign <;> rfl

theorem nounPhraseOf_fields (sign : Polarity) : (nounPhraseOf sign).fields = [.adjectives, .noun] := by
  cases sign <;> rfl

theorem adjectives_of_sign (he : e ∈ sign.adjectives) : Among adjectives e := by
  cases sign with
  | negative =>
    obtain he | he := List.mem_append.mp he
    · exact .of .badAdjective (by decide) he
    · exact .of .neutralAdjective (by decide) he
  | positive =>
    obtain he | he := List.mem_append.mp he
    · exact .of .goodAdjective (by decide) he
    · exact .of .neutralAdjective (by decide) he

theorem nouns_of_sign (he : e ∈ sign.nouns) : Among nouns e := by
  cases sign with
  | negative => exact .of .badNoun (by decide) he
  | positive =>
    obtain he | he := List.mem_append.mp he
    · exact .of .goodNoun (by decide) he
    · exact .of .neutralNoun (by decide) he

theorem proper_of_adjective (he : e ∈ sign.adjectives) : e ≠ [] ∧ AreProper e :=
  proper_of_adjective_or_noun ((adjectives_of_sign he).mono (by decide))

theorem proper_of_noun (he : e ∈ sign.nouns) : e ≠ [] ∧ AreProper e :=
  proper_of_adjective_or_noun ((nouns_of_sign he).mono (by decide))

theorem determiner_cases (hd : d ∈ determiners) :
    d ∈ articles ∨ d ∈ firstPersonPossessives ∨ d ∈ secondPersonPossessives ∨ d ∈ thirdPersonPossessives := by
  simpa only [determiners, List.mem_append, or_assoc] using hd

theorem proper_of_determiner (hd : d ∈ determiners) : AreProper d := by
  obtain hd | hd | hd | hd := determiner_cases hd
  · exact (proper_of_entries (r := .article) hd).2
  · exact (proper_of_entries (r := .firstPersonPossessive) hd).2
  · exact (proper_of_entries (r := .secondPersonPossessive) hd).2
  · exact (proper_of_entries (r := .thirdPersonPossessive) hd).2

theorem refuses_determiner (he : Among (adjectives ++ nouns) e) : determiner.Refuses N (spelled e tail) := by
  refine leadsTo_rules fun q hq => ?_
  obtain rfl | rfl : q = .article ∨ q = .possessive := by simpa using hq
  · exact refuses_foreign (he.mono (by decide))
  · exact refuses_foreign (he.mono (by decide))

/-- A possessive is read, whoever it is of. -/
theorem reads_possessive
    (hd : d ∈ firstPersonPossessives ∨ d ∈ secondPersonPossessives ∨ d ∈ thirdPersonPossessives)
    (htail : Flush tail) :
    Rule.possessive.Reads 2 (spelled d tail) tail (· = entryTree d) := by
  obtain hd | hd | hd := hd
  · exact reads_of_firstChoice rfl rfl (reads_entries (r := .firstPersonPossessive) hd htail)
  · exact reads_of_secondChoice rfl rfl (refuses_kind .listenerPossessive (by decide) hd)
      (reads_entries (r := .secondPersonPossessive) hd htail)
  · refine reads_of_choice rfl rfl [.firstPersonPossessive, .secondPersonPossessive] _ rfl ?_
      (reads_entries (r := .thirdPersonPossessive) hd htail)
    intro q hq
    obtain rfl | rfl : q = .firstPersonPossessive ∨ q = .secondPersonPossessive := by simpa using hq
    · exact refuses_kind .otherPossessive (by decide) hd
    · exact refuses_kind .otherPossessive (by decide) hd

theorem among_possessives
    (hd : d ∈ firstPersonPossessives ∨ d ∈ secondPersonPossessives ∨ d ∈ thirdPersonPossessives) :
    Among possessives d := by
  obtain hd | hd | hd := hd
  · exact .of .speakerPossessive (by decide) hd
  · exact .of .listenerPossessive (by decide) hd
  · exact .of .otherPossessive (by decide) hd

theorem reads_determiner (hd : d ∈ determiners) (htail : Flush tail) :
    determiner.Reads 2 (spelled d tail) tail (·.fields = []) := by
  suffices h : determiner.Reads 2 (spelled d tail) tail fun y => ∃ t, t = entryTree d ∧ y = .one t by
    refine h.imp ?_
    rintro y ⟨t, -, rfl⟩
    rfl
  obtain harticle | hposs := determiner_cases hd
  · have hread := reads_entries (r := .article) harticle htail
    exact reads_firstRule (hread.mono (by omega))
  · exact reads_secondRule (refuses_foreign ((among_possessives hposs).mono (by decide)))
      (reads_possessive hposs htail)

/-- An adjective is read as itself. -/
theorem reads_adjective (ha : e ∈ sign.adjectives) (htail : Flush tail) :
    (adjectiveOf sign).Reads 2 (spelled e tail) tail (· = .one (entryTree e)) := by
  suffices h : (adjectiveOf sign).Reads 2 (spelled e tail) tail fun y => ∃ t, t = entryTree e ∧ y = .one t by
    refine h.imp ?_
    rintro y ⟨t, rfl, rfl⟩
    rfl
  cases sign with
  | negative =>
    obtain hneg | hneu := List.mem_append.mp ha
    · have hread := reads_entries (r := .negativeAdjective) hneg htail
      exact reads_firstRule (hread.mono (by omega))
    · have hread := reads_entries (r := .neutralAdjective) hneu htail
      exact reads_secondRule (refuses_kind .neutralAdjective (by decide) hneu) (hread.mono (by omega))
  | positive =>
    obtain hpos | hneu := List.mem_append.mp ha
    · exact reads_of_firstChoice rfl rfl (reads_entries (r := .positiveAdjective) hpos htail)
    · exact reads_of_secondChoice rfl rfl (refuses_kind .neutralAdjective (by decide) hneu)
        (reads_entries (r := .neutralAdjective) hneu htail)

/-- A noun is read as itself. -/
theorem reads_noun (hn : n ∈ sign.nouns) (htail : Flush tail) :
    (nounOf sign).Reads 2 (spelled n tail) tail (· = entryTree n) := by
  cases sign with
  | negative => exact (reads_entries (r := .negativeNoun) hn htail).mono (by omega)
  | positive =>
    obtain hpos | hneu := List.mem_append.mp hn
    · exact reads_of_firstChoice rfl rfl (reads_entries (r := .positiveNoun) hpos htail)
    · exact reads_of_secondChoice rfl rfl (refuses_kind .neutralNoun (by decide) hneu)
        (reads_entries (r := .neutralNoun) hneu htail)

/-- No adjective is read where something foreign to all of them is written. -/
theorem adjective_refuses (he : Among [.afterThe, .badNoun, .neutralNoun, .goodNoun] e) :
    (adjectiveOf sign).Refuses N (spelled e tail) := by
  cases sign with
  | negative =>
    refine leadsTo_rules fun q hq => ?_
    obtain rfl | rfl : q = .negativeAdjective ∨ q = .neutralAdjective := by simpa using hq
    · exact refuses_foreign (he.mono (by decide))
    · exact refuses_foreign (he.mono (by decide))
  | positive => exact refuses_foreign (r := .positiveOrNeutralAdjective) (he.mono (by decide))

theorem readsEach_adjective (ha : ∀ a ∈ adjs, a ∈ sign.adjectives) :
    (adjectiveOf sign).ReadsEach 2 adjs fun a => .one (entryTree a) := by
  intro a hmem
  obtain ⟨hne, hproper⟩ := proper_of_adjective (ha a hmem)
  exact ⟨hne, hproper, fun tail htail => reads_adjective (ha a hmem) htail⟩

theorem proper_of_phrase (ha : ∀ a ∈ adjs, a ∈ sign.adjectives) (hn : n ∈ sign.nouns) :
    AreProper (adjs.flatten ++ n) := by
  refine .append (fun w hw => ?_) (proper_of_noun hn).2
  obtain ⟨a, hmem, hw⟩ := List.mem_flatten.mp hw
  exact (proper_of_adjective (ha a hmem)).2 w hw

theorem flush_of_entry (h : e ≠ [] ∧ AreProper e) (tail : List Char) : Flush (spelled e tail) := by
  cases e with
  | nil => exact absurd rfl h.1
  | cons w e => exact flush_spelled (h.2 w List.mem_cons_self) e tail

/-- Adjectives and noun begin with an adjective or with the noun. -/
theorem exists_first (ha : ∀ a ∈ adjs, a ∈ sign.adjectives) (hn : n ∈ sign.nouns) :
    ∃ e ws, adjs.flatten ++ n = e ++ ws ∧ Among (adjectives ++ nouns) e := by
  cases adjs with
  | nil => exact ⟨n, [], by simp, (nouns_of_sign hn).mono (by decide)⟩
  | cons a adjs =>
    exact ⟨a, adjs.flatten ++ n, by simp, (adjectives_of_sign (ha a List.mem_cons_self)).mono (by decide)⟩

/-- Before adjectives and noun, a determiner is read if there is one. -/
theorem reads_opt_determiner (hd : d = [] ∨ d ∈ determiners) (ha : ∀ a ∈ adjs, a ∈ sign.adjectives)
    (hn : n ∈ sign.nouns) (htail : Flush tail) : (opt determiner).Reads 2 (spelled (d ++ (adjs.flatten ++ n)) tail)
      (spelled adjs.flatten (spelled n tail)) (·.fields = []) := by
  rw [← spelled_append adjs.flatten, spelled_append d]
  obtain rfl | hd := hd
  · obtain ⟨e, ws, hfirst, he⟩ := exists_first ha hn
    rw [hfirst, spelled_append e]
    refine (reads_opt_none (refuses_determiner he)).imp ?_
    rintro y rfl
    rfl
  · exact reads_opt (reads_determiner hd (flush_spelled_of_proper (proper_of_phrase ha hn) htail))

theorem flush_noun (hn : n ∈ sign.nouns) (htail : Flush tail) : Flush (spelled n tail) :=
  flush_spelled_of_proper (proper_of_noun hn).2 htail

/-- A noun phrase is read with its adjectives and its noun. -/
theorem reads_nounPhrase (hd : d = [] ∨ d ∈ determiners) (ha : ∀ a ∈ adjs, a ∈ sign.adjectives)
    (hn : n ∈ sign.nouns) (htail : Flush tail) :
    (nounPhraseOf sign).Reads 3 (spelled (d ++ (adjs.flatten ++ n)) tail) tail fun t =>
      ∃ span,
        t = .node (nounPhraseOf sign) span [(.adjectives, .list (adjs.map entryTree)), (.noun, entryTree n)] := by
  have hmany := reads_label (f := .adjectives)
    (reads_many (readsEach_adjective ha) (adjective_refuses ((nouns_of_sign hn).mono (by decide)))
      (flush_noun hn htail))
  have hnoun := reads_label (f := .noun) (reads_noun hn htail)
  have hdet := reads_opt_determiner hd ha hn htail
  refine (reads_call (nounPhraseOf_body sign) (reads_seq hdet (reads_seq hmany hnoun))).imp ?_
  rintro y ⟨_, span, ⟨u, _, hu, ⟨_, _, ⟨_, rfl, rfl⟩, ⟨_, ⟨t, rfl, rfl⟩, rfl⟩, rfl⟩, rfl⟩, rfl⟩
  refine ⟨_, ⟨span, ?_⟩, rfl⟩
  have hnone : (Yield.repeated (adjs.map fun a => .one (entryTree a))).fields = [] :=
    fields_of_repeated fun u hu => by
      obtain ⟨a, _, rfl⟩ := List.mem_map.mp hu
      rfl
  have htrees : (adjs.map fun a => Yield.one (entryTree a)).map Yield.tree = adjs.map entryTree := by
    rw [List.map_map]
    rfl
  rw [ruleTree_of_fields (nounPhraseOf_fields sign)]
  simp only [Yield.append, hu, hnone, List.nil_append]
  rw [← htrees]
  rfl

/-- A noun phrase is refused if, after a determiner and some adjectives, something comes that is neither. -/
theorem nounPhrase_refuses (sign : Polarity) (adjs : List (List String)) {text rest : List Char} {Q : Yield → Prop}
    (hdet : (opt determiner).Reads 2 text (spelled adjs.flatten rest) Q) (ha : ∀ a ∈ adjs, a ∈ sign.adjectives)
    (hadj : (adjectiveOf sign).Refuses 2 rest) (hnoun : (call (nounOf sign)).Refuses 2 rest) (hrest : Flush rest) :
    (call (nounPhraseOf sign)).Refuses 3 text := by
  refine leadsTo_call (nounPhraseOf_body sign) (refuses_seq_right hdet ?_)
  exact refuses_seq_right (reads_label (reads_many (readsEach_adjective ha) hadj hrest)) (leadsTo_label hnoun)

/-- Adjectives split where the first good one comes. -/
theorem split_at_positive (ha : ∀ a ∈ adjs, a ∈ Polarity.positive.adjectives) :
    ∃ pre post, adjs = pre ++ post ∧ (∀ a ∈ pre, a ∈ neutralAdjectives) ∧
      (post = [] ∨ ∃ a post', post = a :: post' ∧ a ∈ positiveAdjectives) := by
  induction adjs with
  | nil => exact ⟨[], [], rfl, List.forall_mem_nil _, .inl rfl⟩
  | cons a adjs ih =>
    obtain hpos | hneu := List.mem_append.mp (ha a List.mem_cons_self)
    · exact ⟨[], a :: adjs, rfl, List.forall_mem_nil _, .inr ⟨a, adjs, rfl, hpos⟩⟩
    · obtain ⟨pre, post, rfl, hpre, hpost⟩ := ih fun b hb => ha b (List.mem_cons_of_mem a hb)
      refine ⟨a :: pre, post, rfl, fun b hb => ?_, hpost⟩
      obtain rfl | hb := List.mem_cons.mp hb
      · exact hneu
      · exact hpre b hb

/-- What a bad noun phrase is refused at, once some neutral adjectives are read. -/
def goodKinds : List Kind := [.goodAdjective, .goodNoun, .neutralNoun]

/-- What comes first in the good part of a noun phrase: a good adjective, or the noun. -/
theorem exists_positive_first {post : List (List String)}
    (hpost : post = [] ∨ ∃ a post', post = a :: post' ∧ a ∈ positiveAdjectives)
    (hn : n ∈ Polarity.positive.nouns) :
    ∃ e ws, post.flatten ++ n = e ++ ws ∧ Among goodKinds e := by
  obtain rfl | ⟨a, post', rfl, ha⟩ := hpost
  · refine ⟨n, [], by simp, ?_⟩
    obtain hn | hn := List.mem_append.mp hn
    · exact .of .goodNoun (by decide) hn
    · exact .of .neutralNoun (by decide) hn
  · exact ⟨a, post'.flatten ++ n, by simp, .of .goodAdjective (by decide) ha⟩

/-- What is written as a good or neutral noun phrase is not read as a bad one. -/
theorem negative_refuses_positive (hd : d = [] ∨ d ∈ determiners)
    (ha : ∀ a ∈ adjs, a ∈ Polarity.positive.adjectives) (hn : n ∈ Polarity.positive.nouns) (htail : Flush tail) :
    (call .negativeNounPhrase).Refuses 3 (spelled (d ++ (adjs.flatten ++ n)) tail) := by
  have hdet := reads_opt_determiner hd ha hn htail
  obtain ⟨pre, post, rfl, hpre, hpost⟩ := split_at_positive ha
  obtain ⟨e, ws, hfirst, he⟩ := exists_positive_first hpost hn
  have hproper := proper_of_adjective_or_noun (he.mono (by decide))
  have htext : spelled (pre ++ post).flatten (spelled n tail) =
      spelled pre.flatten (spelled e (spelled ws tail)) := by
    rw [List.flatten_append, spelled_append, ← spelled_append post.flatten, hfirst, spelled_append e]
  rw [htext] at hdet
  refine nounPhrase_refuses .negative pre hdet (fun a ha => List.mem_append_right _ (hpre a ha)) ?_ ?_
    (flush_of_entry hproper _)
  · refine leadsTo_rules fun q hq => ?_
    obtain rfl | rfl : q = .negativeAdjective ∨ q = .neutralAdjective := by simpa using hq
    · exact refuses_foreign (he.mono (by decide))
    · exact refuses_foreign (he.mono (by decide))
  · exact refuses_foreign (r := .negativeNoun) (he.mono (by decide))

/-! ### After *the* -/

/-- The article is read in either case. -/
theorem reads_the (hw : w = "the" ∨ w = "The") (hflush : Flush (spelled ws tail)) :
    (opt determiner).Reads 2 (spelled (w :: ws) tail) (spelled ws tail) fun _ => True := by
  have hfits : fits "the".toList w.toList = true ∧ "the".toList.length = w.toList.length := by
    obtain rfl | rfl := hw
    · exact ⟨fits_self _, rfl⟩
    · exact the_fits
  have hproper : isProper "the".toList = true := proper_particle (by simp [particles])
  have hread := reads_token (N := 0) hproper ((apart_blank (spelled ws tail)).closes hproper) hfits.1 hfits.2
  rw [dropWhile_blank hflush] at hread
  have hothers : ∀ v ∈ ["a", "an"], (word v).Refuses 0 (spelled [w] (spelled ws tail)) := by
    intro v hv
    have hcontrast : (v, w) ∈ contrasts := by
      obtain rfl | rfl : v = "a" ∨ v = "an" := by simpa using hv
      all_goals obtain rfl | rfl := hw <;> simp [contrasts]
    exact refuses_contrast hcontrast
  have harticle : Rule.article.Reads 2 (spelled (w :: ws) tail) (spelled ws tail) fun _ => True := by
    refine ((reads_call rfl (reads_oneOf [word "a", word "an"] [] rfl ?_ hread)).mono (by omega)).imp ?_
    · intro q hq
      obtain rfl | rfl : q = word "a" ∨ q = word "an" := by simpa using hq
      · exact hothers _ (by simp)
      · exact hothers _ (by simp)
    · rintro y ⟨u, span, -, rfl⟩
      exact ⟨_, trivial, rfl⟩
  exact (reads_opt (reads_firstRule harticle)).imp fun _ _ => trivial

/-- What follows *the* in a name or an operation does not belong to a noun phrase. -/
theorem nounPhrase_refuses_afterThe (hw : w = "the" ∨ w = "The") (he : e ∈ Kind.afterThe.entries)
    (hproper : e ≠ [] ∧ AreProper e) : (call .nounPhrase).Refuses 4 (spelled (w :: e) tail) := by
  have hflush : Flush (spelled e tail) := flush_of_entry hproper tail
  have hdet := reads_the hw hflush
  have hadjective : ∀ sign, (adjectiveOf sign).Refuses 2 (spelled e tail) :=
    fun sign => adjective_refuses (.of .afterThe (by decide) he)
  refine leadsTo_of_choice rfl fun q hq => ?_
  obtain rfl | rfl : q = .negativeNounPhrase ∨ q = .positiveNounPhrase := by simpa using hq
  · exact nounPhrase_refuses .negative [] hdet (List.forall_mem_nil _) (hadjective .negative)
      (refuses_kind (r := .negativeNoun) .afterThe (by decide) he) hflush
  · exact nounPhrase_refuses .positive [] hdet (List.forall_mem_nil _) (hadjective .positive)
      (refuses_kind (r := .positiveOrNeutralNoun) .afterThe (by decide) he) hflush

end NounPhrases

/-! ### Operations -/

section Operations

variable {N : Nat} {w : String} {e f ws : List String} {tail text : List Char}

theorem binaryExpression_refuses (h : ∀ e ∈ binaryOperations, (words e).Refuses 0 text) :
    (call .binaryExpression).Refuses 0 text := by
  refine leadsTo_call rfl (refuses_seq (leadsTo_label (leadsTo_call rfl (leadsTo_oneOf fun q hq => ?_))))
  obtain ⟨e, he, rfl⟩ := List.mem_map.mp (show q ∈ binaryOperations.map words from hq)
  exact h e he

theorem unaryExpression_refuses (h : ∀ e ∈ unaryOperations, (words e).Refuses 0 text) :
    (call .unaryExpression).Refuses 0 text := by
  refine leadsTo_call rfl (refuses_seq (leadsTo_label (leadsTo_call rfl (leadsTo_oneOf fun q hq => ?_))))
  obtain ⟨e, he, rfl⟩ := List.mem_map.mp (show q ∈ unaryOperations.map words from hq)
  exact h e he

theorem expression_refuses (h : ∀ e ∈ operations, (words e).Refuses 0 text) :
    (call .expression).Refuses N text := by
  refine Refuses.mono (N := 0) (leadsTo_of_choice rfl fun q hq => ?_) (Nat.zero_le N)
  obtain rfl | rfl : q = .binaryExpression ∨ q = .unaryExpression := by simpa using hq
  · exact binaryExpression_refuses fun e he => h e (List.mem_append_left _ he)
  · exact unaryExpression_refuses fun e he => h e (List.mem_append_right _ he)

theorem expression_refuses_the (he : Among (adjectives ++ nouns) e) :
    (call .expression).Refuses N (spelled ("the" :: e) tail) :=
  expression_refuses fun _ hf => operation_refuses_noun hf he

end Operations

/-! ### Reading values -/

section Values

variable {N : Nat} {r : Rule} {v : Value} {w : String} {e ws : List String} {tail text rest : List Char}

/-- A rule whose body is a single labelled phrase. -/
theorem reads_labelled {f : Field} {p : Phrase} {P : Tree → Prop} (hbody : r.body = label f p)
    (hfields : r.fields = [f]) (hp : p.Reads N text rest fun y => ∃ t, P t ∧ y = .one t) :
    r.Reads (N + 1) text rest fun t => ∃ u span, P u ∧ t = .node r span [(f, u)] := by
  refine (reads_call hbody (reads_label hp)).imp ?_
  rintro y ⟨_, span, ⟨_, ⟨t, ht, rfl⟩, rfl⟩, rfl⟩
  refine ⟨_, ⟨t, span, ht, ?_⟩, rfl⟩
  rw [ruleTree_of_fields hfields]
  simp [Yield.one, Yield.tree]

theorem reads_firstPerson (hw : [w] ∈ firstPersons ++ firstPersonReflexives) (htail : Flush tail) (span : Span) :
    Rule.firstPersonValue.Reads 2 (spelled [w] tail) tail (Describes (.firstPerson span w)) := by
  suffices h : (ruleExpecting [.firstPerson, .firstPersonReflexive] Expectation.speakers).Reads 1
      (spelled [w] tail) tail fun y => ∃ t, t = .word w ∧ y = .one t by
    refine (reads_labelled rfl rfl h).imp ?_
    rintro t ⟨_, span', rfl, rfl⟩
    exact ⟨_, ofTree?_firstPerson w, rfl⟩
  obtain hw | hw := List.mem_append.mp hw
  · exact reads_firstRule (reads_entries (r := .firstPerson) hw htail)
  · obtain rfl : w = "myself" := by simpa [firstPersonReflexives] using hw
    refine reads_secondRule (refuses_kind .speakerReflexive (by decide) hw) ?_
    refine (reads_call rfl (reads_particle (by simp [particles]) htail)).imp ?_
    rintro y ⟨_, _, rfl, rfl⟩
    exact ⟨_, rfl, rfl⟩

theorem reads_secondPerson (hw : [w] ∈ secondPersons ++ secondPersonReflexives) (htail : Flush tail)
    (span : Span) :
    Rule.secondPersonValue.Reads 2 (spelled [w] tail) tail (Describes (.secondPerson span w)) := by
  suffices h : (ruleExpecting [.secondPerson, .secondPersonReflexive] Expectation.listeners).Reads 1
      (spelled [w] tail) tail fun y => ∃ t, t = .word w ∧ y = .one t by
    refine (reads_labelled rfl rfl h).imp ?_
    rintro t ⟨_, span', rfl, rfl⟩
    exact ⟨_, ofTree?_secondPerson w, rfl⟩
  obtain hw | hw := List.mem_append.mp hw
  · exact reads_firstRule (reads_entries (r := .secondPerson) hw htail)
  · exact reads_secondRule (refuses_kind .listenerReflexive (by decide) hw)
      (reads_entries (r := .secondPersonReflexive) hw htail)

theorem words?_entryTree (hne : e ≠ []) : (entryTree e).words? = some e := words?_merge hne

theorem reads_character (he : e ∈ characters) (htail : Flush tail) (span : Span) :
    Rule.characterName.Reads 2 (spelled e tail) tail (Describes (.character span e)) := by
  have hne := (proper_of_entries (r := .character) he).1
  refine (reads_labelled rfl rfl (reads_entries (r := .character) he htail)).imp ?_
  rintro t ⟨_, span', rfl, rfl⟩
  exact ⟨_, ofTree?_character (words?_entryTree hne), rfl⟩

theorem reads_zero (hw : [w] ∈ zeros) (htail : Flush tail) (span : Span) :
    Rule.nothing.Reads 1 (spelled [w] tail) tail (Describes (.nothing span w)) := by
  have hread : (oneOf (zeros.map words) (Expectation.words ["nothing", "zero"])).Reads 0 (spelled [w] tail) tail
      fun y => ∃ t, t = .word w ∧ y = .one t :=
    (reads_entry (lexical_of_choice List.mem_cons_self) hw htail).imp fun y hy => ⟨_, rfl, hy⟩
  refine (reads_labelled rfl rfl hread).imp ?_
  rintro t ⟨_, span', rfl, rfl⟩
  exact ⟨_, ofTree?_nothing w, rfl⟩

theorem mapM_entryTree {adjs : List (List String)} (h : ∀ a ∈ adjs, a ≠ []) :
    (adjs.map entryTree).mapM Tree.words? = some adjs := by
  induction adjs with
  | nil => rfl
  | cons a adjs ih =>
    rw [List.map_cons, List.mapM_cons, words?_entryTree (h a List.mem_cons_self),
      ih fun b hb => h b (List.mem_cons_of_mem a hb)]
    rfl

theorem reads_nounPhraseValue {sign : Polarity} {d n : List String} {adjs : List (List String)}
    (hd : d = [] ∨ d ∈ determiners) (ha : ∀ a ∈ adjs, a ∈ sign.adjectives) (hn : n ∈ sign.nouns)
    (htail : Flush tail) (span : Span) :
    Rule.nounPhrase.Reads 4 (spelled (d ++ (adjs.flatten ++ n)) tail) tail
      (Describes (.nounPhrase span sign adjs n)) := by
  have hadjs := mapM_entryTree fun a hmem => (proper_of_adjective (ha a hmem)).1
  have hnoun := words?_entryTree (proper_of_noun hn).1
  have hread := reads_nounPhrase hd ha hn htail
  have hdescribes : ∀ t, (∃ span, t = .node (nounPhraseOf sign) span
      [(.adjectives, .list (adjs.map entryTree)), (.noun, entryTree n)]) →
      Describes (.nounPhrase span sign adjs n) t := by
    rintro t ⟨span', rfl⟩
    refine ⟨.nounPhrase span' sign adjs n, ?_, rfl⟩
    cases sign <;> rw [nounPhraseOf, Value.ofTree?] <;> exact nounPhraseOf?_eq hadjs hnoun
  cases sign with
  | negative => exact reads_of_firstChoice rfl rfl (hread.imp hdescribes)
  | positive =>
    exact reads_of_secondChoice rfl rfl (negative_refuses_positive hd ha hn htail) (hread.imp hdescribes)

/-- The rules for values, in the order in which they are tried. -/
def valueRules : List Rule :=
  [.expression, .firstPersonValue, .secondPersonValue, .nounPhrase, .characterName, .nothing]

/-- Before noun phrases, other rules for values are tried, and refused. -/
theorem refuse_before_nounPhrase {sign : Polarity} {d n : List String} {adjs : List (List String)}
    (hd : d = [] ∨ d ∈ determiners) (ha : ∀ a ∈ adjs, a ∈ sign.adjectives) (hn : n ∈ sign.nouns)
    (htail : Flush tail) :
    ∀ r ∈ valueRules.take 3, (call r).Refuses N (spelled (d ++ (adjs.flatten ++ n)) tail) := by
  have hproper := proper_of_phrase ha hn
  obtain ⟨e, ws, hfirst, he⟩ := exists_first ha hn
  rw [hfirst] at hproper ⊢
  have hflush : Flush (spelled ws tail) :=
    flush_spelled_of_proper (fun w hw => hproper w (List.mem_append_right e hw)) htail
  rw [spelled_append d, spelled_append e]
  intro r hr
  obtain rfl | rfl | rfl : r = .expression ∨ r = .firstPersonValue ∨ r = .secondPersonValue := by
    simpa [valueRules] using hr
  all_goals obtain rfl | hd := hd
  · exact refuses_foreign (e := e) (he.mono (by decide))
  · obtain hd | hd := determiner_cases hd
    · obtain hd | rfl : d ∈ Kind.indefinite.entries ∨ d = ["the"] := by
        simpa [articles, Kind.entries, or_assoc] using hd
      · exact refuses_kind .indefinite (by decide) hd
      · show (call .expression).Refuses N (spelled ("the" :: e) (spelled ws tail))
        exact expression_refuses_the he
    · exact refuses_foreign ((among_possessives hd).mono (by decide))
  · exact refuses_foreign (e := e) (he.mono (by decide))
  · obtain hd | hd := determiner_cases hd
    · exact refuses_kind .article (by decide) hd
    · exact refuses_foreign ((among_possessives hd).mono (by decide))
  · exact refuses_foreign (e := e) (he.mono (by decide))
  · obtain hd | hd := determiner_cases hd
    · exact refuses_kind .article (by decide) hd
    · exact refuses_foreign ((among_possessives hd).mono (by decide))

theorem titled_cons (he : e ∈ titled) : ∃ f, e = "The" :: f ∧ f ∈ Kind.afterThe.entries ∧ f ≠ [] := by
  have hafter : e.drop 1 ∈ Kind.afterThe.entries := List.mem_map_of_mem (List.mem_append_left _ he)
  refine ⟨e.drop 1, ?_, hafter, ?_⟩ <;> simp only [titled, List.mem_cons, List.not_mem_nil, or_false] at he <;>
    obtain rfl | rfl | rfl | rfl | rfl | rfl := he <;> simp

/-- Before names, other rules for values are tried, and refused unless a king is named. -/
theorem refuse_before_character (he : e ∈ characters) (hking : e ∉ kings) :
    ∀ r ∈ valueRules.take 4, (call r).Refuses 4 (spelled e tail) := by
  have hproper := (proper_of_entries (r := .character) he).2
  intro r hr
  obtain rfl | rfl | rfl | rfl : r = .expression ∨ r = .firstPersonValue ∨ r = .secondPersonValue ∨
    r = .nounPhrase := by
    simpa [valueRules] using hr
  · obtain hcommon | hk | ht := character_cases he
    · exact refuses_kind .commonName (by decide) hcommon
    · exact absurd hk hking
    · exact expression_refuses fun _ hf => operation_refuses_titled hf ht hproper
  · exact refuses_kind .name (by decide) he
  · exact refuses_kind .name (by decide) he
  · obtain hcommon | hk | ht := character_cases he
    · exact refuses_kind .commonName (by decide) hcommon
    · exact absurd hk hking
    · obtain ⟨f, rfl, hafter, hne⟩ := titled_cons ht
      exact nounPhrase_refuses_afterThe (.inr rfl) hafter ⟨hne, fun w hw => hproper w (List.mem_cons_of_mem _ hw)⟩

theorem unary_words (op : Number.UnaryOperator) :
    op.words ∈ unaryOperations ∧ unaryOperator? op.words = some op := by
  cases op <;> exact ⟨by simp [Number.UnaryOperator.words, unaryOperations], rfl⟩

theorem binary_words (op : Number.BinaryOperator) :
    op.words ∈ binaryOperations ∧ binaryOperator? op.words = some op := by
  cases op <;> exact ⟨by simp [Number.BinaryOperator.words, binaryOperations], rfl⟩

theorem unary_words_length (op : Number.UnaryOperator) : 1 ≤ op.words.length := by
  cases op <;> decide

theorem binary_words_length (op : Number.BinaryOperator) : 1 ≤ op.words.length := by
  cases op <;> decide

theorem proper_of_written (h : v.Written ws) : AreProper ws := by
  induction h with
  | firstPerson h =>
    obtain h | h := List.mem_append.mp h
    · exact (proper_of_entries (r := .firstPerson) h).2
    · rw [List.mem_singleton.mp h]
      exact proper_particles (by simp [particles])
  | secondPerson h =>
    obtain h | h := List.mem_append.mp h
    · exact (proper_of_entries (r := .secondPerson) h).2
    · exact (proper_of_entries (r := .secondPersonReflexive) h).2
  | character h => exact (proper_of_entries (r := .character) h).2
  | nounPhrase hd ha hn =>
    obtain rfl | hd := hd
    · exact proper_of_phrase ha hn
    · exact (proper_of_determiner hd).append (proper_of_phrase ha hn)
  | nothing h => exact (proper_of_lexical (lexical_of_choice List.mem_cons_self) h).2
  | unary hx ih => exact (proper_of_operation (List.mem_append_right _ (unary_words _).1)).2.append ih
  | binary hx hy ihx ihy =>
    have hand := AreProper.cons (w := "and") (proper_particle (by simp [particles])) ihy
    exact (proper_of_operation (List.mem_append_left _ (binary_words _).1)).2.append (ihx.append hand)

theorem reads_unaryExpression (op : Number.UnaryOperator) {x : Value} (hN : 1 ≤ N)
    (hx : Rule.value.Reads N (spelled ws tail) tail (Describes x)) (hflush : Flush (spelled ws tail))
    (span : Span) :
    Rule.unaryExpression.Reads (N + 1) (spelled (op.words ++ ws) tail) tail (Describes (.unary span op x)) := by
  obtain ⟨hmem, hop⟩ := unary_words op
  have hoperation := (reads_entries (r := .unaryOperation) hmem hflush).mono hN
  rw [spelled_append]
  refine (reads_call rfl (reads_seq (reads_label hoperation) (reads_label hx))).imp ?_
  rintro y ⟨_, span', ⟨_, _, ⟨_, ⟨_, rfl, rfl⟩, rfl⟩, ⟨_, ⟨t, ⟨x', ht, hx'⟩, rfl⟩, rfl⟩, rfl⟩, rfl⟩
  refine ⟨_, ⟨.unary span' op x', ?_, ?_⟩, rfl⟩
  · refine ofTree?_unary (o := entryTree op.words) ?_ ht
    rw [words?_entryTree (proper_of_operation (List.mem_append_right _ hmem)).1]
    exact hop
  · rw [Value.unplaced, Value.unplaced, hx']

theorem reads_binaryExpression (op : Number.BinaryOperator) {x y : Value} {vs : List String} (hN : 1 ≤ N)
    (hx : Rule.value.Reads N (spelled ws (spelled ("and" :: vs) tail)) (spelled ("and" :: vs) tail) (Describes x))
    (hy : Rule.value.Reads N (spelled vs tail) tail (Describes y))
    (hws : Flush (spelled ws (spelled ("and" :: vs) tail))) (hvs : Flush (spelled vs tail)) (span : Span) :
    Rule.binaryExpression.Reads (N + 1) (spelled (op.words ++ (ws ++ "and" :: vs)) tail) tail
      (Describes (.binary span op x y)) := by
  obtain ⟨hmem, hop⟩ := binary_words op
  have hoperation := (reads_entries (r := .binaryOperation) hmem hws).mono hN
  have hand := reads_particle (N := N) (w := "and") (by simp [particles]) hvs
  rw [spelled_append, spelled_append]
  refine (reads_call rfl (reads_seq (reads_label hoperation) (reads_seq (reads_label hx)
    (reads_seq hand (reads_label hy))))).imp ?_
  rintro z ⟨_, span', ⟨_, _, ⟨_, ⟨_, rfl, rfl⟩, rfl⟩, ⟨_, _, ⟨_, ⟨t, ⟨x', ht, hx'⟩, rfl⟩, rfl⟩,
    ⟨_, _, rfl, ⟨_, ⟨u, ⟨y', hu, hy'⟩, rfl⟩, rfl⟩, rfl⟩, rfl⟩, rfl⟩, rfl⟩
  refine ⟨_, ⟨.binary span' op x' y', ?_, ?_⟩, rfl⟩
  · refine ofTree?_binary (o := entryTree op.words) ?_ ht hu
    rw [words?_entryTree (proper_of_operation (List.mem_append_left _ hmem)).1]
    exact hop
  · rw [Value.unplaced, Value.unplaced, hx', hy']

/-- A value in which no king is named is read as it is written. -/
theorem reads_value (h : v.Written ws) (hking : ¬ v.NamesKing) (htail : Flush tail) :
    Rule.value.Reads (3 * ws.length + 5) (spelled ws tail) tail (Describes v) := by
  induction h generalizing tail with
  | @firstPerson span w h =>
    refine (reads_of_secondChoice rfl rfl ?_ (reads_firstPerson h htail span)).mono (by omega)
    obtain h | h := List.mem_append.mp h
    · exact refuses_kind .speaker (by decide) h
    · exact refuses_kind .speakerReflexive (by decide) h
  | @secondPerson span w h =>
    refine (reads_of_choice rfl rfl (valueRules.take 2) _ rfl ?_ (reads_secondPerson h htail span)).mono (by omega)
    intro r hr
    obtain rfl | rfl : r = .expression ∨ r = .firstPersonValue := by simpa [valueRules] using hr
    all_goals
      obtain h | h := List.mem_append.mp h
      · exact refuses_kind .listener (by decide) h
      · exact refuses_kind .listenerReflexive (by decide) h
  | @character span name h =>
    have hname : name ∉ kings := fun hmem => hking ⟨name, List.mem_singleton_self name, hmem⟩
    have hread := (reads_character h htail span).mono (M := 4) (by omega)
    exact (reads_of_choice rfl rfl (valueRules.take 4) _ rfl (refuse_before_character h hname) hread).mono
      (by omega)
  | @nounPhrase span sign d n adjs hd ha hn =>
    exact (reads_of_choice rfl rfl (valueRules.take 3) _ rfl (refuse_before_nounPhrase hd ha hn htail)
      (reads_nounPhraseValue hd ha hn htail span)).mono (by omega)
  | @nothing span w h =>
    refine (reads_of_choice rfl rfl (valueRules.take 5) _ rfl ?_ (reads_zero h htail span)).mono (by omega)
    intro r hr
    obtain rfl | rfl | rfl | rfl | rfl : r = .expression ∨ r = .firstPersonValue ∨ r = .secondPersonValue ∨
      r = .nounPhrase ∨
      r = .characterName := by simpa [valueRules] using hr
    all_goals exact refuses_kind .zero (by decide) h
  | @unary span op x ws hx ih =>
    have hflush := flush_spelled_of_proper (proper_of_written hx) htail
    have hread := reads_unaryExpression op (by omega) (ih hking htail) hflush span
    have hbinary : (call .binaryExpression).Refuses (3 * ws.length + 6) (spelled (op.words ++ ws) tail) := by
      rw [spelled_append]
      exact (binaryExpression_refuses fun e he => binary_refuses_unary he (unary_words op).1).mono (Nat.zero_le _)
    have hexpression := reads_of_secondChoice (r := .expression) rfl rfl hbinary hread
    have hlength := unary_words_length op
    refine (reads_of_firstChoice rfl rfl hexpression).mono ?_
    rw [List.length_append]
    omega
  | @binary span op x y ws vs hx hy ihx ihy =>
    have hvs := flush_spelled_of_proper (proper_of_written hy) htail
    have hand : Flush (spelled ("and" :: vs) tail) := flush_particle (by simp [particles]) vs tail
    have hws := flush_spelled_of_proper (proper_of_written hx) hand
    have hkingx : ¬ x.NamesKing := by
      rintro ⟨name, hname, hmem⟩
      exact hking ⟨name, List.mem_append_left _ hname, hmem⟩
    have hkingy : ¬ y.NamesKing := by
      rintro ⟨name, hname, hmem⟩
      exact hking ⟨name, List.mem_append_right _ hname, hmem⟩
    have hN : (ws ++ "and" :: vs).length = ws.length + (vs.length + 1) := List.length_append
    have hreadx := (ihx hkingx hand).mono (M := 3 * (ws ++ "and" :: vs).length + 5) (by omega)
    have hready := (ihy hkingy htail).mono (M := 3 * (ws ++ "and" :: vs).length + 5) (by omega)
    have hread := reads_binaryExpression op (by omega) hreadx hready hws hvs span
    have hexpression := reads_of_firstChoice (r := .expression) rfl rfl hread
    have hlength := binary_words_length op
    refine (reads_of_firstChoice rfl rfl hexpression).mono ?_
    simp only [List.length_append, List.length_cons]
    omega

/-! ### Kings -/

/-- The surname of a king is ahead. -/
def AtSurname (text : List Char) : Prop := ∃ e tail, e ∈ Kind.surname.entries ∧ text = spelled e tail

theorem refuses_at_surname {p : Phrase} (hp : p ∈ [word "and", word "?", stop]) (h : AtSurname text) :
    p.Refuses N text := by
  obtain ⟨e, tail, he, rfl⟩ := h
  exact closer_refuses hp he

/-- A king's name is read no further than *King*. -/
theorem king_strays (he : e ∈ kings) (tail : List Char) : (call .value).LeadsTo 8 (spelled e tail) AtSurname := by
  obtain ⟨w, rfl, hw, hproper⟩ : ∃ w, e = ["King", w] ∧ [w] ∈ Kind.surname.entries ∧ w ∈ particles := by
    simp only [kings, List.mem_cons, List.not_mem_nil, or_false] at he
    obtain rfl | rfl | rfl | rfl := he <;> exact ⟨_, rfl, by simp [Kind.entries, kings], by simp [particles]⟩
  have htext : spelled ["King", w] tail = spelled ["King"] (spelled [w] tail) := rfl
  have hnoun : ["King"] ∈ Polarity.positive.nouns := by simp [Polarity.nouns, positiveNouns]
  have hwritten : (Value.nounPhrase ⟨0, 0⟩ .positive [] ["King"]).Written ([] ++ ([].flatten ++ ["King"])) :=
    .nounPhrase (.inl rfl) (List.forall_mem_nil _) hnoun
  have hread := reads_value hwritten (by rintro ⟨_, ⟨⟩, _⟩) (flush_particle hproper [] tail)
  rw [htext]
  exact hread.leadsTo.imp fun text htext => ⟨[w], tail, hw, htext⟩

theorem operation_cons (he : e ∈ operations) :
    e ∈ Kind.doubling.entries ∨ ∃ f, e = "the" :: f ∧ f ∈ Kind.afterThe.entries ∧ f ≠ [] := by
  simp only [operations, binaryOperations, unaryOperations, List.cons_append, List.nil_append, List.mem_cons,
    List.not_mem_nil, or_false] at he
  obtain rfl | rfl | rfl | rfl | rfl | rfl | rfl | rfl | rfl | rfl := he
  all_goals first
    | exact .inl (List.mem_singleton_self _)
    | exact .inr ⟨_, rfl, by simp [Kind.entries, titled, binaryOperations, unaryOperations], by simp⟩

/-- Where an operation is written, no rule for values is read but the one for operations. -/
theorem operation_refused (he : e ∈ operations) :
    ∀ r ∈ valueRules.drop 1, (call r).Refuses 4 (spelled e tail) := by
  intro r hr
  obtain rfl | rfl | rfl | rfl | rfl : r = .firstPersonValue ∨ r = .secondPersonValue ∨ r = .nounPhrase ∨
    r = .characterName ∨
    r = .nothing := by simpa [valueRules] using hr
  · exact refuses_kind .operation (by decide) he
  · exact refuses_kind .operation (by decide) he
  · obtain htwice | ⟨f, rfl, hf, hne⟩ := operation_cons he
    · exact refuses_kind .doubling (by decide) htwice
    · have hproper := (proper_of_operation he).2
      exact nounPhrase_refuses_afterThe (.inl rfl) hf ⟨hne, fun w hw => hproper w (List.mem_cons_of_mem _ hw)⟩
  · refine leadsTo_call rfl (leadsTo_label (leadsTo_call rfl (leadsTo_oneOf fun q hq => ?_)))
    obtain ⟨name, hname, rfl⟩ := List.mem_map.mp hq
    exact character_refuses_operation hname he
  · exact refuses_kind .operation (by decide) he

/-- Where an operation is written, a value is what the rule for operations reads. -/
theorem leadsTo_value {E : List Char → Prop} (he : e ∈ operations) (hN : 4 ≤ N)
    (h : (call .expression).LeadsTo N (spelled e tail) E) : (call .value).LeadsTo (N + 1) (spelled e tail) E := by
  refine leadsTo_of_choice rfl fun q hq => ?_
  obtain rfl | hq := List.mem_cons.mp (show q ∈ valueRules from hq)
  · exact h
  · exact ((operation_refused he q hq).mono hN).leadsTo

theorem unary_strays (op : Number.UnaryOperator) (hN : 2 ≤ N)
    (hx : (call .value).LeadsTo N (spelled ws tail) AtSurname) (hflush : Flush (spelled ws tail)) :
    (call .value).LeadsTo (N + 3) (spelled (op.words ++ ws) tail) AtSurname := by
  obtain ⟨hmem, -⟩ := unary_words op
  have hoperation := (reads_entries (r := .unaryOperation) hmem hflush).mono (Nat.le_of_succ_le hN)
  rw [spelled_append]
  refine leadsTo_value (List.mem_append_right _ hmem) (Nat.add_le_add_right hN 2)
    (leadsTo_of_choice rfl fun q hq => ?_)
  obtain rfl | rfl : q = .binaryExpression ∨ q = .unaryExpression := by simpa using hq
  · exact ((binaryExpression_refuses fun e he => binary_refuses_unary he hmem).mono (Nat.zero_le _)).leadsTo
  · refine leadsTo_call rfl (leadsTo_seq (leadsTo_label hoperation.leadsTo) ?_)
    rintro _ rfl
    exact leadsTo_label hx

/-- An operation on two values strays if the values and the word between them do. -/
theorem binary_strays (op : Number.BinaryOperator) (hN : 2 ≤ N) (hflush : Flush (spelled ws tail))
    (h : (sequence [label .firstValue (call .value), word "and", label .secondValue (call .value)]).LeadsTo N
      (spelled ws tail) AtSurname) : (call .value).LeadsTo (N + 3) (spelled (op.words ++ ws) tail) AtSurname := by
  obtain ⟨hmem, -⟩ := binary_words op
  have hoperation := (reads_entries (r := .binaryOperation) hmem hflush).mono (Nat.le_of_succ_le hN)
  rw [spelled_append]
  refine leadsTo_value (List.mem_append_left _ hmem) (Nat.add_le_add_right hN 2)
    (leadsTo_of_choice rfl fun q hq => ?_)
  obtain rfl | rfl : q = .binaryExpression ∨ q = .unaryExpression := by simpa using hq
  · refine leadsTo_call rfl (leadsTo_seq (leadsTo_label hoperation.leadsTo) ?_)
    rintro _ rfl
    exact h
  · exact ((unaryExpression_refuses fun e he => unary_refuses_binary he hmem).mono (Nat.zero_le _)).leadsTo

/-- A value in which a king is named is read, if at all, only up to the surname of a king. -/
theorem value_strays (h : v.Written ws) (hking : v.NamesKing) (htail : Flush tail) :
    (call .value).LeadsTo (3 * ws.length + 5) (spelled ws tail) AtSurname := by
  induction h generalizing tail with
  | firstPerson _ | secondPerson _ | nounPhrase _ _ _ | nothing _ =>
    obtain ⟨_, hname, _⟩ := hking
    cases hname
  | @character span name h =>
    obtain ⟨_, hname, hmem⟩ := hking
    rw [List.mem_singleton.mp hname] at hmem
    have hlength : 0 < name.length := List.length_pos_iff.mpr (proper_of_entries (r := .character) h).1
    exact (king_strays hmem tail).mono (by omega)
  | @unary span op x ws hx ih =>
    have hlength := unary_words_length op
    refine (unary_strays op (by omega) (ih hking htail)
      (flush_spelled_of_proper (proper_of_written hx) htail)).mono ?_
    rw [List.length_append]
    omega
  | @binary span op x y ws vs hx hy ihx ihy =>
    have hvs := flush_spelled_of_proper (proper_of_written hy) htail
    have hand : Flush (spelled ("and" :: vs) tail) := flush_particle (by simp [particles]) vs tail
    have hws := flush_spelled_of_proper (proper_of_written hx) hand
    have hlength := binary_words_length op
    have hN : (ws ++ "and" :: vs).length = ws.length + (vs.length + 1) := List.length_append
    rw [← spelled_append] at hws
    refine (binary_strays (N := 3 * (ws ++ "and" :: vs).length + 5) op (by omega) hws ?_).mono ?_
    · rw [spelled_append]
      by_cases hkingx : x.NamesKing
      · have hstray := (ihx hkingx hand).mono (M := 3 * (ws ++ "and" :: vs).length + 5) (by omega)
        exact leadsTo_seq (leadsTo_label hstray) fun t ht =>
          (refuses_seq (refuses_at_surname (by simp) ht)).leadsTo
      · have hkingy : y.NamesKing := by
          obtain ⟨name, hname, hmem⟩ := hking
          obtain hname | hname := List.mem_append.mp hname
          · exact absurd ⟨name, hname, hmem⟩ hkingx
          · exact ⟨name, hname, hmem⟩
        have hread := (reads_value hx hkingx hand).mono (M := 3 * (ws ++ "and" :: vs).length + 5) (by omega)
        have hstray := (ihy hkingy htail).mono (M := 3 * (ws ++ "and" :: vs).length + 5) (by omega)
        refine leadsTo_seq (leadsTo_label hread.leadsTo) ?_
        rintro _ rfl
        refine leadsTo_seq (reads_particle (by simp [particles]) hvs).leadsTo ?_
        rintro _ rfl
        exact leadsTo_label hstray
    · simp only [List.length_append, List.length_cons]
      omega

end Values

end Grammar

end Playhouse
