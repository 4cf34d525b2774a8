import Playhouse.Proofs.Numerals
import Playhouse.Proofs.Phrasing

/-!
# Playhouse.Proofs.Sentences — sentences are read as they are written

`Sentence.Written` says how a sentence may be written: its words with a blank after each, then the final mark. Such
a text is read as the same sentence, unless a king is named in one of its values: then the surname is left where
the sentence should go on, and no other kind of sentence begins in the same way.
-/

namespace Playhouse

open Grammar Lexicon

/-! ### Sentences in words -/

/-- The words of a condition. -/
def Condition.words : Condition → List String
  | ifSo => ["If", "so", ","]
  | ifNot => ["If", "not", ","]

/-- How a comparison is written: the words that are kept of it, and all its words. -/
inductive Comparison.Written : Comparison → List String → List String → Prop
  | greater {w : String} (h : w ∈ greaterWords) : Written .greater [w] [w, "than"]
  | better {w : String} (h : [w] ∈ positiveAdjectives) : Written .greater ["more", w] ["more", w, "than"]
  | less {w : String} (h : w ∈ lesserWords) : Written .less [w] [w, "than"]
  | worse {w : String} (h : [w] ∈ negativeAdjectives) : Written .less ["more", w] ["more", w, "than"]
  | equal {w : String} (h : [w] ∈ negativeAdjectives ++ (positiveAdjectives ++ neutralAdjectives)) :
      Written .equal [w] ["as", w, "as"]

/-- The words before a value that is assigned, after the form of *be*. -/
inductive Likening : List String → Prop
  | none : Likening []
  | plain : Likening ["as"]
  | like {w : String} (h : [w] ∈ negativeAdjectives ++ (positiveAdjectives ++ neutralAdjectives)) :
      Likening ["as", w, "as"]

/-- The word for a target. -/
def Target.word : Target → String
  | act => "act"
  | scene => "scene"

/-- The words for output of a medium. -/
def Medium.outputWords (your : String) : Medium → List String
  | number => ["open", your, "heart"]
  | character => ["speak", your, "mind"]

/-- The words for input from a medium. -/
def Medium.inputWords (your : String) : Medium → List String
  | number => ["listen", "to", your, "heart"]
  | character => ["open", your, "mind"]

/-- The final marks of sentences other than questions. -/
def stops : List String := ["!", "."]

/-- How an action is written: words with a blank after each, and what comes after them. -/
inductive Action.Written : Action Value → List String → List Char → Prop
  | question {c : Comparison} {x y : Value} {kept be ws cs vs : List String} (hbe : be ∈ formsOfBe)
      (hx : x.Written ws) (hc : c.Written kept cs) (hy : y.Written vs) :
      Written (.question c kept x y) (be ++ (ws ++ (cs ++ vs))) "?".toList
  | assignment {x : Value} {you be ls ws : List String} {mark : String} (hyou : you ∈ secondPersons)
      (hbe : be = [] ∨ be ∈ formsOfBe) (hls : Likening ls) (hx : x.Written ws) (hmark : mark ∈ stops) :
      Written (.assignment x) (you ++ (be ++ (ls ++ ws))) mark.toList
  | goto {target : Target} {us go : List String} {numeral : List Char} {mark : String}
      (hus : us ∈ [["Let", "us"], ["We", "shall"], ["We", "must"]])
        (hgo : go ∈ [["proceed", "to"], ["return", "to"]])
      (hnumeral : IsNumeral numeral) (hmark : mark ∈ stops) :
      Written (.goto target (String.ofList numeral)) (us ++ (go ++ [target.word])) (numeral ++ ' ' :: mark.toList)
  | output {medium : Medium} {your mark : String} (hyour : [your] ∈ secondPersonPossessives)
      (hmark : mark ∈ stops) :
      Written (.output medium) (medium.outputWords your) mark.toList
  | input {medium : Medium} {your mark : String} (hyour : [your] ∈ secondPersonPossessives)
      (hmark : mark ∈ stops) :
      Written (.input medium) (medium.inputWords your) mark.toList
  | push {x : Value} {ws : List String} {mark : String} (hx : x.Written ws) (hmark : mark ∈ stops) :
      Written (.push x) ("Remember" :: ws) mark.toList
  | pop {text : List Char} {mark : String} (htext : Flush text) (hfree : ∀ c ∈ text, c ≠ '!' ∧ c ≠ '.')
      (hmark : mark ∈ stops) : Written (.pop (String.ofList text)) ["Recall"] (text ++ mark.toList)

/-- The words of a condition, if there is one. -/
def conditionWords (condition : Option Condition) : List String := (condition.map Condition.words).getD []

/-- How a sentence is written. -/
def Sentence.Written (s : Sentence) (text : List Char) : Prop :=
  ∃ ws tail, s.action.Written ws tail ∧ text = spelled (conditionWords s.condition ++ ws) tail

/-- The values that an action speaks of. -/
def Action.values {ε : Type} : Action ε → List ε
  | question _ _ x y => [x, y]
  | assignment x | push x => [x]
  | input _ | output _ | pop _ | goto _ _ => []

/-- One of the four kings is named in the sentence. -/
def Sentence.NamesKing (s : Sentence) : Prop := ∃ v ∈ s.action.values, v.NamesKing

/-- The sentence without where it is written. -/
def Sentence.unplaced (s : Sentence) : Sentence := ⟨⟨0, 0⟩, s.condition, s.action.map Value.unplaced⟩

namespace Grammar

open Phrase Text

/-- The tree is taken for the action, up to where its values are written. -/
def Performs (a : Action Value) (t : Tree) : Prop :=
  ∃ a', Action.ofTree? t = some a' ∧ a'.map Value.unplaced = a.map Value.unplaced

section Sentences

variable {N : Nat} {r : Rule} {v x y : Value} {w mark : String} {a e ls ws vs : List String}
    {tail text : List Char}

/-! ### Final marks -/

theorem flush_mark (hw : w ∈ particles) : Flush w.toList := by
  have hflush := flush_of_proper (proper_particle hw) []
  rwa [List.append_nil] at hflush

theorem reads_mark (hw : w ∈ particles) : (word w).Reads N w.toList [] (· = .one (.word w)) := by
  have hread :=
    reads_token (N := N) (proper_particle hw) (Apart.closes (.inl rfl) (proper_particle hw))
    (fits_self w.toList) rfl
  rwa [String.ofList_toList, List.append_nil, List.dropWhile_nil] at hread

theorem stop_particle (hmark : mark ∈ stops) : mark ∈ particles := by
  obtain rfl | rfl : mark = "!" ∨ mark = "." := by simpa [stops] using hmark
  all_goals simp [particles]

theorem flush_stop (hmark : mark ∈ stops) : Flush mark.toList := flush_mark (stop_particle hmark)

theorem reads_stop_before (hmark : mark ∈ stops) (more : List Char) :
    stop.Reads N (mark.toList ++ more) (more.dropWhile isBlank) (· = .one (.word mark)) := by
  have hsign : ∀ mark ∈ stops, mark.toList.all isAlphanumeric = false := by decide +kernel
  have hread := reads_sign (N := N) (hsign mark hmark) more
  obtain rfl | rfl : mark = "!" ∨ mark = "." := by simpa [stops] using hmark
  · exact reads_firstOption hread
  · exact reads_secondOption (refuses_initial (a := '!') (b := '.') (by decide +kernel)) hread

theorem reads_stop (hmark : mark ∈ stops) : stop.Reads N mark.toList [] (· = .one (.word mark)) := by
  have hread := reads_stop_before (N := N) hmark []
  rwa [List.append_nil, List.dropWhile_nil] at hread

/-! ### What values begin with -/

/-- A value begins with an adjective and something else of a noun phrase, or with another word. -/
theorem value_opening (h : v.Written ws) : (∃ e vs, ws = e ++ vs ∧ Among openers e) ∨
    ∃ a e vs, ws = a ++ (e ++ vs) ∧ Among adjectives a ∧ Among (adjectives ++ nouns) e := by
  cases h with
  | @firstPerson span w h =>
    refine .inl ⟨[w], [], rfl, ?_⟩
    obtain h | h := List.mem_append.mp h
    · exact .of .speaker (by decide) h
    · exact .of .speakerReflexive (by decide) h
  | @secondPerson span w h =>
    refine .inl ⟨[w], [], rfl, ?_⟩
    obtain h | h := List.mem_append.mp h
    · exact .of .listener (by decide) h
    · exact .of .listenerReflexive (by decide) h
  | character h => exact .inl ⟨ws, [], by simp, .of .name (by decide) h⟩
  | @nounPhrase span sign d n adjs hd ha hn =>
    obtain rfl | hd := hd
    · cases adjs with
      | nil => exact .inl ⟨n, [], by simp, (nouns_of_sign hn).mono (by decide)⟩
      | cons a adjs =>
        obtain ⟨e, vs, hfirst, he⟩ := exists_first (fun b hb => ha b (List.mem_cons_of_mem a hb)) hn
        refine .inr ⟨a, e, vs, ?_, adjectives_of_sign (ha a List.mem_cons_self), he⟩
        rw [← hfirst]
        simp
    · refine .inl ⟨d, adjs.flatten ++ n, rfl, ?_⟩
      obtain hd | hd := determiner_cases hd
      · exact .of .article (by decide) hd
      · exact (among_possessives hd).mono (by decide)
  | @nothing span w h => exact .inl ⟨[w], [], rfl, .of .zero (by decide) h⟩
  | @unary span op x ws hx =>
    cases op with
    | twice => exact .inl ⟨["twice"], ws, rfl, .of .doubling (by decide) (List.mem_singleton_self _)⟩
    | _ => exact .inl ⟨["the"], _, rfl, .of .article (by decide) (by simp [Kind.entries, articles])⟩
  | @binary span op x y ws vs hx hy =>
    cases op <;> exact .inl ⟨["the"], _, rfl, .of .article (by decide) (by simp [Kind.entries, articles])⟩

theorem value_first (h : v.Written ws) : ∃ e vs, ws = e ++ vs ∧ Among (openers ++ adjectives) e := by
  obtain ⟨e, vs, rfl, he⟩ | ⟨a, e, vs, rfl, ha, -⟩ := value_opening h
  · exact ⟨e, vs, rfl, he.mono (by decide)⟩
  · exact ⟨a, e ++ vs, rfl, ha.mono (by decide)⟩

/-! ### Adjectives -/

theorem adjective_cases (ha : a ∈ negativeAdjectives ++ (positiveAdjectives ++ neutralAdjectives)) :
    Among adjectives a := by
  obtain ha | ha := List.mem_append.mp ha
  · exact .of .badAdjective (by decide) ha
  · exact adjectives_of_sign (show a ∈ Polarity.positive.adjectives from ha)

/-- Any adjective is read as itself, whichever kind is tried first. -/
theorem reads_anyAdjective {rs : List Rule} (hrs : rs = [.negativeAdjective, .positiveOrNeutralAdjective] ∨
      rs = [.positiveOrNeutralAdjective, .negativeAdjective]) (ha : Among adjectives a) (htail : Flush tail) :
    (ruleOf rs).Reads 2 (spelled a tail) tail (· = .one (entryTree a)) := by
  suffices h : (ruleOf rs).Reads 2 (spelled a tail) tail fun y => ∃ t, t = entryTree a ∧ y = .one t by
    refine h.imp ?_
    rintro y ⟨t, rfl, rfl⟩
    rfl
  obtain hbad | hgood : a ∈ negativeAdjectives ∨ Among [.neutralAdjective, .goodAdjective] a := by
    obtain ⟨k, hk, ha⟩ := ha
    obtain rfl | hk := List.mem_cons.mp hk
    · exact .inl ha
    · exact .inr ⟨k, hk, ha⟩
  · have hread := (reads_entries (r := .negativeAdjective) hbad htail).mono (M := 2) (by omega)
    obtain rfl | rfl := hrs
    · exact reads_firstRule hread
    · exact reads_secondRule (refuses_kind .badAdjective (by decide) hbad) hread
  · have hmem : a ∈ Polarity.positive.adjectives := by
      obtain ⟨k, hk, ha⟩ := hgood
      obtain rfl | rfl : k = .neutralAdjective ∨ k = .goodAdjective := by simpa using hk
      · exact List.mem_append_right _ ha
      · exact List.mem_append_left _ ha
    have hread : Rule.positiveOrNeutralAdjective.Reads 2 (spelled a tail) tail (· = entryTree a) :=
      (reads_adjective hmem htail).imp fun y hy => ⟨_, rfl, hy⟩
    obtain rfl | rfl := hrs
    · exact reads_secondRule (refuses_foreign (hgood.mono (by decide))) hread
    · exact reads_firstRule hread

/-- The parts of *as ... as* are read one after the other. -/
theorem reads_as_adjective_as {rs : List Rule} (hrs : rs = [.negativeAdjective, .positiveOrNeutralAdjective] ∨
      rs = [.positiveOrNeutralAdjective, .negativeAdjective])
    (hw : [w] ∈ negativeAdjectives ++ (positiveAdjectives ++ neutralAdjectives)) (htail : Flush tail) :
    (word "as").Reads 2 (spelled ["as", w, "as"] tail) (spelled [w, "as"] tail) (· = .one (.word "as")) ∧
    (ruleOf rs).Reads 2 (spelled [w, "as"] tail) (spelled ["as"] tail) (· = .one (entryTree [w])) ∧
    (word "as").Reads 2 (spelled ["as"] tail) tail (· = .one (.word "as")) := by
  have hadjective := adjective_cases hw
  have hproper := proper_of_adjective_or_noun (hadjective.mono (by decide))
  have hflush : Flush (spelled [w, "as"] tail) := flush_of_entry hproper (spelled ["as"] tail)
  refine ⟨reads_particle (by simp [particles]) hflush, ?_, reads_particle (by simp [particles]) htail⟩
  exact reads_anyAdjective (a := [w]) hrs hadjective (flush_particle (by simp [particles]) [] tail)

/-- Before a value, an adjective and *as* are not read: what follows the adjectives of a value is not *as*. -/
theorem likening_refuses (h : v.Written ws) :
    (seq (ruleOf [.positiveOrNeutralAdjective, .negativeAdjective]) (word "as")).Refuses 2 (spelled ws tail) := by
  obtain ⟨e, vs, rfl, he⟩ | ⟨a, e, vs, rfl, ha, he⟩ := value_opening h
  · rw [spelled_append]
    refine refuses_seq (leadsTo_rules fun q hq => ?_)
    obtain rfl | rfl : q = .positiveOrNeutralAdjective ∨ q = .negativeAdjective := by simpa using hq
    · exact refuses_foreign (he.mono (by decide))
    · exact refuses_foreign (he.mono (by decide))
  · rw [spelled_append a, spelled_append e]
    have hflush : Flush (spelled e (spelled vs tail)) := flush_of_entry (proper_of_adjective_or_noun he) _
    exact refuses_seq_right (reads_anyAdjective (.inr rfl) ha hflush) (as_refuses (he.mono (by decide)))

/-- The words before an assigned value are read. -/
theorem reads_likening (hls : Likening ls) (hx : v.Written ws) (htail : Flush tail) :
    (opt
      (seq (word "as") (opt (seq (ruleOf [.positiveOrNeutralAdjective, .negativeAdjective]) (word "as"))))).Reads 2
        (spelled (ls ++ ws) tail) (spelled ws tail) (·.fields = []) := by
  have hflush := flush_spelled_of_proper (proper_of_written hx) htail
  rw [spelled_append]
  cases hls with
  | none =>
    obtain ⟨e, vs, rfl, he⟩ := value_first hx
    show (opt _).Reads 2 (spelled (e ++ vs) tail) (spelled (e ++ vs) tail) _
    rw [spelled_append]
    exact (reads_opt_none (refuses_seq (as_refuses he))).imp fun y hy => by rw [hy]; rfl
  | plain =>
    have has := reads_particle (N := 2) (w := "as") (by simp [particles]) hflush
    refine (reads_opt (reads_seq has (reads_opt_none (likening_refuses hx)))).imp ?_
    rintro y ⟨_, _, rfl, rfl, rfl⟩
    rfl
  | @like w h =>
    obtain ⟨hfirst, hadjective, hlast⟩ := reads_as_adjective_as (.inr rfl) h hflush
    refine (reads_opt (reads_seq hfirst (reads_opt (reads_seq hadjective hlast)))).imp ?_
    rintro y ⟨_, _, rfl, ⟨_, _, rfl, rfl, rfl⟩, rfl⟩
    rfl

/-! ### Comparisons -/

/-- A comparison by one of the words or by *more* and an adjective, where the options before it are refused. -/
theorem reads_comparative {q : Rule} {p : Phrase} (hbody : r.body = comparative ws q)
    (hfields : r.fields = [.comparison]) (before after : List Phrase)
    (hoptions : ws.map word ++ [seq (word "more") (call q)] = before ++ p :: after)
    (hbefore : ∀ b ∈ before, b.Refuses N (spelled e (spelled ["than"] tail)))
    (hp : p.Reads N (spelled e (spelled ["than"] tail)) (spelled ["than"] tail) fun y =>
      y.fields = [] ∧ y.tree.words? = some e) (htail : Flush tail) :
    r.Reads (N + 1) (spelled (e ++ ["than"]) tail) tail fun t =>
      ∃ span u, t = .node r span [(.comparison, u)] ∧ u.words? = some e := by
  have hthan := reads_particle (N := N) (w := "than") (by simp [particles]) htail
  rw [spelled_append]
  refine (reads_call hbody (reads_seq (reads_label (reads_oneOf before after hoptions hbefore hp)) hthan)).imp ?_
  rintro y ⟨_, span, ⟨_, _, ⟨u, ⟨hnone, hwords⟩, rfl⟩, rfl, rfl⟩, rfl⟩
  refine ⟨_, ⟨span, u.tree, ?_, hwords⟩, rfl⟩
  rw [ruleTree_of_fields hfields]
  simp [Yield.append, Yield.one, hnone]

theorem flush_than (tail : List Char) : Flush (spelled ["than"] tail) :=
  flush_particle (by simp [particles]) [] tail

theorem reads_comparative_word {q : Rule} (hbody : r.body = comparative ws q) (hfields : r.fields = [.comparison])
    (hlexical : isLexical (ws.map ([·]) ++ [["more"]]) = true) (hw : w ∈ ws) (htail : Flush tail) :
    r.Reads 1 (spelled [w, "than"] tail) tail fun t => ∃ span u, t = .node r span [(.comparison, u)] ∧
      u.words? = some [w] := by
  have hproper :=
    (proper_of_lexical hlexical (List.mem_append_left _ (List.mem_map_of_mem hw))).2 w List.mem_cons_self
  have hread := reads_word (N := 0) hproper (flush_than tail)
  obtain ⟨before, after, rfl⟩ := List.append_of_mem hw
  refine reads_comparative (e := [w]) hbody hfields (before.map word)
    (after.map word ++ [seq (word "more") (call q)]) (by simp) ?_ (hread.imp ?_) htail
  · intro p hp
    obtain ⟨b, hb, rfl⟩ := List.mem_map.mp hp
    rw [List.map_append, List.map_cons, List.append_assoc, List.cons_append] at hlexical
    exact refuses_earlier hlexical (List.mem_map_of_mem hb) fun hb => hb.closesEach (apart_blank _)
  · rintro y rfl
    exact ⟨rfl, rfl⟩

theorem reads_comparative_more {q : Rule} (hbody : r.body = comparative ws q) (hfields : r.fields = [.comparison])
    (hlexical : isLexical (ws.map ([·]) ++ [["more"]]) = true) (hw : [w] ∈ q.entries) (htail : Flush tail) :
    r.Reads 2 (spelled ["more", w, "than"] tail) tail fun t =>
      ∃ span u, t = .node r span [(.comparison, u)] ∧ u.words? = some ["more", w] := by
  have hflush : Flush (spelled [w] (spelled ["than"] tail)) := flush_of_entry (proper_of_entries hw) _
  have hmore := reads_particle (N := 1) (w := "more") (by simp [particles]) hflush
  have hread := reads_seq hmore (reads_entries hw (flush_than tail))
  refine reads_comparative (e := ["more", w]) hbody hfields (ws.map word) [] rfl ?_ (hread.imp ?_) htail
  · intro p hp
    obtain ⟨b, hb, rfl⟩ := List.mem_map.mp hp
    exact refuses_earlier (e := ["more"]) hlexical (List.mem_map_of_mem hb) fun hb => hb.closesEach (apart_blank _)
  · rintro y ⟨_, _, rfl, ⟨_, rfl, rfl⟩, rfl⟩
    exact ⟨rfl, rfl⟩

/-- The rules for comparisons, in the order in which they are tried. -/
def comparisonRules : List Rule := [.positiveComparative, .neutralComparative, .negativeComparative]

theorem reads_equal (hw : [w] ∈ negativeAdjectives ++ (positiveAdjectives ++ neutralAdjectives))
    (htail : Flush tail) :
    Rule.neutralComparative.Reads 3 (spelled ["as", w, "as"] tail) tail fun t =>
      Comparison.ofTree? t = some (.equal, [w]) := by
  obtain ⟨hfirst, hadjective, hlast⟩ := reads_as_adjective_as (.inl rfl) hw htail
  refine (reads_call rfl (reads_seq hfirst (reads_seq (reads_label hadjective) hlast))).imp ?_
  rintro y ⟨_, span, ⟨_, _, rfl, ⟨_, _, ⟨_, rfl, rfl⟩, rfl, rfl⟩, rfl⟩, rfl⟩
  exact ⟨_, rfl, rfl⟩

/-- A bad adjective after *more* is not taken for a good one. -/
theorem positiveComparative_refuses (hw : [w] ∈ negativeAdjectives) :
    (call .positiveComparative).Refuses N (spelled ["more", w, "than"] tail) := by
  have hlexical : isLexical (greaterWords.map ([·]) ++ [["more"]]) = true := lexical_of_choice (by simp [choices])
  have hflush : Flush (spelled [w, "than"] tail) :=
    flush_of_entry (proper_of_entries (r := .negativeAdjective) hw) (spelled ["than"] tail)
  refine leadsTo_call rfl (refuses_seq (leadsTo_label (leadsTo_oneOf fun p hp => ?_)))
  obtain hp | hp := List.mem_append.mp hp
  · obtain ⟨b, hb, rfl⟩ := List.mem_map.mp (show p ∈ greaterWords.map word from hp)
    exact refuses_earlier (e := ["more"]) hlexical (List.mem_map_of_mem hb) fun hb => hb.closesEach (apart_blank _)
  · obtain rfl := List.mem_singleton.mp hp
    exact refuses_seq_right (reads_particle (by simp [particles]) hflush)
      (refuses_kind (e := [w]) (r := .positiveAdjective) .badAdjective (by decide) hw)

/-- A comparison is read as it is written. -/
theorem reads_comparison {c : Comparison} {kept cs : List String} (h : c.Written kept cs) (htail : Flush tail) :
    (ruleOf comparisonRules).Reads 3 (spelled cs tail) tail fun y =>
      ∃ t, Comparison.ofTree? t = some (c, kept) ∧ y = .one t := by
  have hgreater : isLexical (greaterWords.map ([·]) ++ [["more"]]) = true := lexical_of_choice (by simp [choices])
  have hlesser : isLexical (lesserWords.map ([·]) ++ [["more"]]) = true := lexical_of_choice (by simp [choices])
  have hgood : Rule.positiveComparative.body = comparative greaterWords .positiveAdjective := rfl
  have hbad : Rule.negativeComparative.body = comparative lesserWords .negativeAdjective := rfl
  cases h with
  | @greater w h =>
    refine reads_firstRule (((reads_comparative_word hgood rfl hgreater h htail).mono (by omega)).imp ?_)
    rintro t ⟨span, u, rfl, hu⟩
    simp [Comparison.ofTree?, hu]
  | @better w h =>
    refine reads_firstRule (((reads_comparative_more hgood rfl hgreater h htail).mono (by omega)).imp ?_)
    rintro t ⟨span, u, rfl, hu⟩
    simp [Comparison.ofTree?, hu]
  | @less w h =>
    have hless : [w] ∈ Kind.less.entries := List.mem_map_of_mem h
    refine reads_rules [.positiveComparative, .neutralComparative] _ rfl (fun q hq => ?_)
      (((reads_comparative_word hbad rfl hlesser h htail).mono (by omega)).imp ?_)
    · obtain rfl | rfl : q = .positiveComparative ∨ q = .neutralComparative := by simpa using hq
      · exact refuses_kind (e := [w]) .less (by decide) hless
      · exact refuses_kind (e := [w]) .less (by decide) hless
    · rintro t ⟨span, u, rfl, hu⟩
      simp [Comparison.ofTree?, hu]
  | @worse w h =>
    refine reads_rules [.positiveComparative, .neutralComparative] _ rfl (fun q hq => ?_)
      (((reads_comparative_more hbad rfl hlesser h htail).mono (by omega)).imp ?_)
    · obtain rfl | rfl : q = .positiveComparative ∨ q = .neutralComparative := by simpa using hq
      · exact positiveComparative_refuses h
      · exact refuses_kind (e := ["more"]) .more (by decide) (List.mem_singleton_self _)
    · rintro t ⟨span, u, rfl, hu⟩
      simp [Comparison.ofTree?, hu]
  | equal h =>
    exact reads_secondRule (refuses_kind (e := ["as"]) .likeness (by decide) (List.mem_singleton_self _))
      (reads_equal h htail)

/-! ### Questions, assignments and what is remembered -/

theorem comparison_refuses (h : AtSurname text) : (ruleOf comparisonRules).Refuses N text := by
  obtain ⟨e, tail, he, rfl⟩ := h
  refine leadsTo_rules fun q hq => ?_
  obtain rfl | rfl | rfl : q = .positiveComparative ∨ q = .neutralComparative ∨ q = .negativeComparative := by
    simpa [comparisonRules] using hq
  all_goals exact refuses_kind .surname (by decide) he

theorem proper_of_comparison {c : Comparison} {kept cs : List String} (h : c.Written kept cs) : AreProper cs := by
  have hthan : AreProper ["than"] := proper_particles (by simp [particles])
  have hmore : isProper "more".toList = true := proper_particle (by simp [particles])
  cases h with
  | greater h =>
    have hgreater := proper_of_lexical (lexical_of_choice (List.mem_cons_of_mem _ List.mem_cons_self))
      (List.mem_append_left _ (List.mem_map_of_mem h))
    exact hgreater.2.append hthan
  | better h => exact .cons hmore ((proper_of_entries (r := .positiveAdjective) h).2.append hthan)
  | less h =>
    have hlesser :=
      proper_of_lexical (lexical_of_choice (List.mem_cons_of_mem _ (List.mem_cons_of_mem _ List.mem_cons_self)))
      (List.mem_append_left _ (List.mem_map_of_mem h))
    exact hlesser.2.append hthan
  | worse h => exact .cons hmore ((proper_of_entries (r := .negativeAdjective) h).2.append hthan)
  | equal h =>
    have has : AreProper ["as"] := proper_particles (by simp [particles])
    exact has.append ((proper_of_adjective_or_noun ((adjective_cases h).mono (by decide))).2.append has)

theorem reads_question {c : Comparison} {kept be cs : List String} (hbe : be ∈ formsOfBe) (hx : x.Written ws)
    (hc : c.Written kept cs) (hy : y.Written vs) (hkingx : ¬ x.NamesKing) (hkingy : ¬ y.NamesKing)
    (hN : 3 * (ws ++ vs).length + 5 ≤ N) :
    Rule.question.Reads (N + 1) (spelled (be ++ (ws ++ (cs ++ vs))) "?".toList) []
      (Performs (.question c kept x y)) := by
  have hmark : "?" ∈ particles := by simp [particles]
  have hvs := flush_spelled_of_proper (proper_of_written hy) (flush_mark hmark)
  have hcs := flush_spelled_of_proper (proper_of_comparison hc) hvs
  have hws := flush_spelled_of_proper (proper_of_written hx) hcs
  rw [List.length_append] at hN
  have hbe := (reads_entries (r := .be) hbe hws).mono (M := N) (by omega)
  have hreadx := (reads_value hx hkingx hcs).mono (M := N) (by omega)
  have hreadc := (reads_comparison hc hvs).mono (M := N) (by omega)
  have hready := (reads_value hy hkingy (flush_mark hmark)).mono (M := N) (by omega)
  rw [spelled_append, spelled_append, spelled_append]
  refine (reads_call rfl (reads_seq hbe (reads_seq (reads_label hreadx) (reads_seq (reads_label hreadc)
    (reads_seq (reads_label hready) (reads_mark hmark)))))).imp ?_
  rintro z
    ⟨_, span, ⟨_, _, ⟨_, rfl, rfl⟩, ⟨_, _, ⟨_, ⟨t, ⟨x', ht, hx'⟩, rfl⟩, rfl⟩, ⟨_, _, ⟨_, ⟨t', hc, rfl⟩, rfl⟩,
    ⟨_, _, ⟨_, ⟨u, ⟨y', hu, hy'⟩, rfl⟩, rfl⟩, rfl, rfl⟩, rfl⟩, rfl⟩, rfl⟩, rfl⟩
  refine ⟨_, ⟨.question c kept x' y', actionOfTree?_question hc ht hu, ?_⟩, rfl⟩
  rw [Action.map, Action.map, hx', hy']

/-- A question about a king is not read: what is left of the name is neither a comparison nor the final mark. -/
theorem question_refuses {c : Comparison} {kept be cs : List String} (hbe : be ∈ formsOfBe) (hx : x.Written ws)
    (hc : c.Written kept cs) (hy : y.Written vs) (hking : x.NamesKing ∨ y.NamesKing)
    (hN : 3 * (ws ++ vs).length + 5 ≤ N) :
    (call .question).Refuses (N + 1) (spelled (be ++ (ws ++ (cs ++ vs))) "?".toList) := by
  have hmark : "?" ∈ particles := by simp [particles]
  have hvs := flush_spelled_of_proper (proper_of_written hy) (flush_mark hmark)
  have hcs := flush_spelled_of_proper (proper_of_comparison hc) hvs
  have hws := flush_spelled_of_proper (proper_of_written hx) hcs
  rw [List.length_append] at hN
  have hbe := (reads_entries (r := .be) hbe hws).mono (M := N) (by omega)
  rw [spelled_append, spelled_append, spelled_append]
  refine leadsTo_call rfl (refuses_seq_right hbe ?_)
  by_cases hkingx : x.NamesKing
  · have hstray := (value_strays hx hkingx hcs).mono (M := N) (by omega)
    exact leadsTo_seq (leadsTo_label hstray) fun t ht => refuses_seq (leadsTo_label (comparison_refuses ht))
  · have hkingy : y.NamesKing := hking.resolve_left hkingx
    have hreadx := (reads_value hx hkingx hcs).mono (M := N) (by omega)
    have hreadc := (reads_comparison hc hvs).mono (M := N) (by omega)
    have hstray := (value_strays hy hkingy (flush_mark hmark)).mono (M := N) (by omega)
    refine refuses_seq_right (reads_label hreadx) (refuses_seq_right (reads_label hreadc) ?_)
    exact leadsTo_seq (leadsTo_label hstray) fun t ht => refuses_at_surname (p := word "?") (by simp) ht

/-- A value and the final mark. -/
theorem reads_closing (hx : x.Written ws) (hking : ¬ x.NamesKing) (hmark : mark ∈ stops)
    (hN : 3 * ws.length + 5 ≤ N) :
    (seq (label .value (call .value)) stop).Reads N (spelled ws mark.toList) [] fun y =>
      ∃ t, Describes x t ∧ y.fields = [(.value, t)] := by
  have hread := (reads_value hx hking (flush_stop hmark)).mono hN
  refine (reads_seq (reads_label hread) (reads_stop hmark)).imp ?_
  rintro y ⟨_, _, ⟨_, ⟨t, ht, rfl⟩, rfl⟩, rfl, rfl⟩
  exact ⟨t, ht, rfl⟩

theorem closing_refuses (hx : x.Written ws) (hking : x.NamesKing) (hmark : mark ∈ stops)
    (hN : 3 * ws.length + 5 ≤ N) :
    (seq (label .value (call .value)) stop).Refuses N (spelled ws mark.toList) :=
  leadsTo_seq (leadsTo_label ((value_strays hx hking (flush_stop hmark)).mono hN)) fun _ ht =>
    refuses_at_surname (by simp) ht

theorem proper_of_likening (h : Likening ls) : AreProper ls := by
  have has : AreProper ["as"] := proper_particles (by simp [particles])
  cases h with
  | none => exact List.forall_mem_nil _
  | plain => exact has
  | like h => exact has.append ((proper_of_adjective_or_noun ((adjective_cases h).mono (by decide))).2.append has)

/-- The form of *be* in an assignment may be left out. -/
theorem reads_opt_be {be : List String} (hbe : be = [] ∨ be ∈ formsOfBe) (hls : Likening ls) (hx : x.Written ws)
    (htail : Flush tail) :
    (opt (call .be)).Reads 1 (spelled (be ++ (ls ++ ws)) tail) (spelled (ls ++ ws) tail) (·.fields = []) := by
  obtain rfl | hbe := hbe
  · have hrefuses : (call .be).Refuses 1 (spelled (ls ++ ws) tail) := by
      cases hls with
      | none =>
        obtain ⟨e, vs, rfl, he⟩ := value_first hx
        rw [List.nil_append, spelled_append]
        exact refuses_foreign (he.mono (by decide))
      | plain => exact refuses_kind (e := ["as"]) .likeness (by decide) (List.mem_singleton_self _)
      | like h => exact refuses_kind (e := ["as"]) .likeness (by decide) (List.mem_singleton_self _)
    exact (reads_opt_none hrefuses).imp fun y hy => by rw [hy]; rfl
  · have hflush := flush_spelled_of_proper ((proper_of_likening hls).append (proper_of_written hx)) htail
    rw [spelled_append]
    refine (reads_opt (reads_entries (r := .be) hbe hflush)).imp ?_
    rintro y ⟨_, rfl, rfl⟩
    rfl

/-- The beginning of an assignment, up to its value. -/
theorem reads_addressee {you be : List String} (hyou : you ∈ secondPersons) (hbe : be = [] ∨ be ∈ formsOfBe)
    (hls : Likening ls) (hx : x.Written ws) (htail : Flush tail) :
    (call .secondPerson).Reads 1 (spelled (you ++ (be ++ (ls ++ ws))) tail) (spelled (be ++ (ls ++ ws)) tail)
      (·.fields = []) := by
  have hbe : AreProper be := by
    obtain rfl | hbe := hbe
    · exact List.forall_mem_nil _
    · exact (proper_of_entries (r := .be) hbe).2
  have hproper := hbe.append ((proper_of_likening hls).append (proper_of_written hx))
  rw [spelled_append]
  refine Phrase.Reads.imp (reads_entries (r := .secondPerson) hyou (flush_spelled_of_proper hproper htail)) ?_
  rintro y ⟨_, rfl, rfl⟩
  rfl

theorem reads_assignment {you be : List String} (hyou : you ∈ secondPersons) (hbe : be = [] ∨ be ∈ formsOfBe)
    (hls : Likening ls) (hx : x.Written ws) (hmark : mark ∈ stops) (hking : ¬ x.NamesKing)
    (hN : 3 * ws.length + 5 ≤ N) :
    Rule.assignment.Reads (N + 1) (spelled (you ++ (be ++ (ls ++ ws))) mark.toList) []
      (Performs (.assignment x)) := by
  have htail := flush_stop hmark
  have hreadyou := (reads_addressee hyou hbe hls hx htail).mono (M := N) (by omega)
  have hreadbe := (reads_opt_be hbe hls hx htail).mono (M := N) (by omega)
  have hreadls := (reads_likening hls hx htail).mono (M := N) (by omega)
  refine (reads_call rfl
    (reads_seq hreadyou (reads_seq hreadbe (reads_seq hreadls (reads_closing hx hking hmark hN))))).imp ?_
  rintro z ⟨_, span, ⟨u₁, _, h₁, ⟨u₂, _, h₂, ⟨u₃, u₄, h₃, ⟨t, ⟨x', ht, hx'⟩, h₄⟩, rfl⟩, rfl⟩, rfl⟩, rfl⟩
  refine ⟨_, ⟨.assignment x', ?_, by rw [Action.map, Action.map, hx']⟩, rfl⟩
  rw [ruleTree_of_fields rfl]
  simp only [Yield.append, h₁, h₂, h₃, h₄]
  exact actionOfTree?_assignment ht

theorem assignment_refuses {you be : List String} (hyou : you ∈ secondPersons) (hbe : be = [] ∨ be ∈ formsOfBe)
    (hls : Likening ls) (hx : x.Written ws) (hmark : mark ∈ stops) (hking : x.NamesKing)
    (hN : 3 * ws.length + 5 ≤ N) :
    (call .assignment).Refuses (N + 1) (spelled (you ++ (be ++ (ls ++ ws))) mark.toList) := by
  have htail := flush_stop hmark
  have hreadyou := (reads_addressee hyou hbe hls hx htail).mono (M := N) (by omega)
  have hreadbe := (reads_opt_be hbe hls hx htail).mono (M := N) (by omega)
  have hreadls := (reads_likening hls hx htail).mono (M := N) (by omega)
  exact leadsTo_call rfl (refuses_seq_right hreadyou (refuses_seq_right hreadbe (refuses_seq_right hreadls
    (closing_refuses hx hking hmark hN))))

theorem reads_push (hx : x.Written ws) (hmark : mark ∈ stops) (hking : ¬ x.NamesKing)
    (hN : 3 * ws.length + 5 ≤ N) :
    Rule.push.Reads (N + 1) (spelled ("Remember" :: ws) mark.toList) [] (Performs (.push x)) := by
  have hflush := flush_spelled_of_proper (proper_of_written hx) (flush_stop hmark)
  have hremember := reads_particle (N := N) (w := "Remember") (by simp [particles]) hflush
  refine (reads_call rfl (reads_seq hremember (reads_closing hx hking hmark hN))).imp ?_
  rintro z ⟨_, span, ⟨_, u, rfl, ⟨t, ⟨x', ht, hx'⟩, hu⟩, rfl⟩, rfl⟩
  refine ⟨_, ⟨.push x', ?_, by rw [Action.map, Action.map, hx']⟩, rfl⟩
  rw [ruleTree_of_fields rfl]
  simp only [Yield.append, Yield.one, hu, List.nil_append]
  exact actionOfTree?_push ht

theorem push_refuses (hx : x.Written ws) (hmark : mark ∈ stops) (hking : x.NamesKing)
    (hN : 3 * ws.length + 5 ≤ N) :
    (call .push).Refuses (N + 1) (spelled ("Remember" :: ws) mark.toList) := by
  have hflush := flush_spelled_of_proper (proper_of_written hx) (flush_stop hmark)
  have hremember := reads_particle (N := N) (w := "Remember") (by simp [particles]) hflush
  exact leadsTo_call rfl (refuses_seq_right hremember (closing_refuses hx hking hmark hN))

/-! ### Jumps -/

theorem reads_target (target : Target) (tail : List Char) :
    (oneOf [word "scene", word "act"] (Expectation.words ["scene", "act"])).Reads N (spelled [target.word] tail)
      (tail.dropWhile isBlank) (· = .one (.word target.word)) := by
  have hread : (word target.word).Reads N (spelled [target.word] tail) (tail.dropWhile isBlank)
      (· = .one (.word target.word)) := by
    have hproper : isProper target.word.toList = true :=
      proper_particle (by cases target <;> simp [Target.word, particles])
    have hread :=
      reads_token (N := N) hproper ((apart_blank tail).closes hproper) (fits_self target.word.toList) rfl
    rwa [String.ofList_toList] at hread
  cases target with
  | scene => exact reads_firstOption hread
  | act => exact reads_secondOption (refuses_contrast (by simp [Target.word, contrasts])) hread

/-- Where a numeral ends, be it empty. -/
theorem numeral_cut {numeral : List Char} (h : IsNumeral numeral) (hmark : mark ∈ stops) :
    ∃ text, (numeral ++ ' ' :: mark.toList).dropWhile isBlank = text ∧ Flush text ∧
      text.take (numeralLength text) = numeral ∧
      (text.drop (numeralLength text)).dropWhile isBlank = mark.toList := by
  have hflush := flush_stop hmark
  cases numeral with
  | nil =>
    have hnone : ∀ mark ∈ stops, numeralLength mark.toList = 0 := by decide +kernel
    refine ⟨mark.toList, dropWhile_blank hflush, hflush, ?_⟩
    rw [hnone mark hmark]
    exact ⟨rfl, hflush⟩
  | cons c cs =>
    have htext : Flush (c :: cs ++ ' ' :: mark.toList) :=
      List.dropWhile_cons_of_neg (by rw [not_blank_of_numeral h List.mem_cons_self]; decide)
    refine ⟨_, htext, htext, ?_⟩
    rw [numeralLength_append h fun l hl => lacks_blank hl _, List.take_left, List.drop_left]
    exact ⟨rfl, dropWhile_blank hflush⟩

theorem reads_romanNumeral (hflush : Flush text) :
    Rule.romanNumeral.Reads 1 text ((text.drop (numeralLength text)).dropWhile isBlank) fun t =>
      ∃ span, t = .node .romanNumeral span [(.value, .word (String.ofList (text.take (numeralLength text))))] := by
  have hread : ∀ call stack c seen, c.rest = text → romanNumeral.read .usual call stack c seen =
      .done ⟨[.word (String.ofList (text.take (numeralLength text)))],
        [(.value, .word (String.ofList (text.take (numeralLength text))))], []⟩
        (c.advance (numeralLength text)) seen := by
    intro call stack c seen hc
    rw [romanNumeral, read_label, read_pattern, hc]
    rfl
  refine (reads_captured (r := .romanNumeral) rfl hflush hread).imp ?_
  rintro y ⟨span, rfl⟩
  exact ⟨_, ⟨span, rfl⟩, rfl⟩

theorem reads_goto (target : Target) {us go : List String} {numeral : List Char}
    (hus : us ∈ [["Let", "us"], ["We", "shall"], ["We", "must"]])
    (hgo : go ∈ [["proceed", "to"], ["return", "to"]]) (hnumeral : IsNumeral numeral) (hmark : mark ∈ stops) :
    Rule.goto.Reads 2 (spelled (us ++ (go ++ [target.word])) (numeral ++ ' ' :: mark.toList)) []
      (Performs (.goto target (String.ofList numeral))) := by
  obtain ⟨text, htext, hflush, htake, hdrop⟩ := numeral_cut hnumeral hmark
  have hword : isProper target.word.toList = true :=
    proper_particle (by cases target <;> simp [Target.word, particles])
  have hdestination := reads_romanNumeral hflush
  have htarget := reads_target (N := 1) target (numeral ++ ' ' :: mark.toList)
  rw [htext] at htarget
  rw [htake, hdrop] at hdestination
  have hproceed := reads_entries (r := .proceedTo) hgo (flush_spelled hword [] (numeral ++ ' ' :: mark.toList))
  have hlet := reads_entries (r := .letUs) hus (flush_of_entry (proper_of_entries (r := .proceedTo) hgo)
    (spelled [target.word] (numeral ++ ' ' :: mark.toList)))
  rw [spelled_append, spelled_append]
  refine (reads_call rfl (reads_seq hlet (reads_seq hproceed (reads_seq (reads_label htarget)
    (reads_seq (reads_label hdestination) (reads_stop hmark)))))).imp ?_
  rintro y ⟨_, span, ⟨_, _, ⟨_, rfl, rfl⟩, ⟨_, _, ⟨_, rfl, rfl⟩, ⟨_, _, ⟨_, rfl, rfl⟩,
    ⟨_, _, ⟨_, ⟨_, ⟨span', rfl⟩, rfl⟩, rfl⟩, rfl, rfl⟩, rfl⟩, rfl⟩, rfl⟩, rfl⟩
  refine ⟨_, ⟨.goto target (String.ofList numeral), ?_, rfl⟩, rfl⟩
  cases target <;> rfl

/-! ### Input and output -/

theorem reads_your {your : String} (hyour : [your] ∈ secondPersonPossessives) (hw : w ∈ particles)
    (htail : Flush tail) :
    (sequence [call .secondPersonPossessive, word w]).Reads 1 (spelled [your, w] tail) tail
      (· = ⟨[.word your, .word w], [], []⟩) := by
  have hpossessive := reads_entries (r := .secondPersonPossessive) hyour (flush_particle hw [] tail)
  refine (reads_seq hpossessive (reads_particle hw htail)).imp ?_
  rintro y ⟨_, _, ⟨_, rfl, rfl⟩, rfl, rfl⟩
  rfl

theorem flush_your {your : String} (hyour : [your] ∈ secondPersonPossessives) (vs : List String)
    (tail : List Char) :
    Flush (spelled (your :: vs) tail) :=
  flush_of_entry (proper_of_entries (r := .secondPersonPossessive) hyour) (spelled vs tail)

theorem reads_output (medium : Medium) {your : String} (hyour : [your] ∈ secondPersonPossessives)
    (hmark : mark ∈ stops) :
    Rule.output.Reads 2 (spelled (medium.outputWords your) mark.toList) [] (Performs (.output medium)) := by
  have hflush := flush_stop hmark
  cases medium with
  | number =>
    have hyours := reads_your (w := "heart") hyour (by simp [particles]) hflush
    have hopen :=
      reads_particle (N := 1) (w := "open") (by simp [particles]) (flush_your hyour ["heart"] mark.toList)
    have hread := reads_label (f := .outputNumber) (reads_seq hopen hyours)
    refine (reads_call rfl (reads_seq (reads_firstOption hread) (reads_stop hmark))).imp ?_
    rintro y ⟨_, span, ⟨_, _, ⟨_, ⟨_, _, rfl, rfl, rfl⟩, rfl⟩, rfl, rfl⟩, rfl⟩
    exact ⟨_, ⟨.output .number, rfl, rfl⟩, rfl⟩
  | character =>
    have hyours := reads_your (w := "mind") hyour (by simp [particles]) hflush
    have hspeak :=
      reads_particle (N := 1) (w := "speak") (by simp [particles]) (flush_your hyour ["mind"] mark.toList)
    have hread := reads_label (f := .outputChar) (reads_seq hspeak hyours)
    have hnumber :
        (label .outputNumber (sequence [word "open", call .secondPersonPossessive, word "heart"])).Refuses 1
        (spelled ["speak", your, "mind"] mark.toList) :=
      leadsTo_label (refuses_seq (refuses_contrast (w := "speak") (by simp [contrasts])))
    refine (reads_call rfl (reads_seq (reads_secondOption hnumber hread) (reads_stop hmark))).imp ?_
    rintro y ⟨_, span, ⟨_, _, ⟨_, ⟨_, _, rfl, rfl, rfl⟩, rfl⟩, rfl, rfl⟩, rfl⟩
    exact ⟨_, ⟨.output .character, rfl, rfl⟩, rfl⟩

theorem reads_input (medium : Medium) {your : String} (hyour : [your] ∈ secondPersonPossessives)
    (hmark : mark ∈ stops) :
    Rule.input.Reads 2 (spelled (medium.inputWords your) mark.toList) [] (Performs (.input medium)) := by
  have hflush := flush_stop hmark
  cases medium with
  | number =>
    have hyours := reads_your (w := "heart") hyour (by simp [particles]) hflush
    have hto := reads_particle (N := 1) (w := "to") (by simp [particles]) (flush_your hyour ["heart"] mark.toList)
    have hlisten := reads_particle (N := 1) (w := "listen") (by simp [particles])
      (flush_particle (w := "to") (by simp [particles]) [your, "heart"] mark.toList)
    have hread := reads_label (f := .inputNumber) (reads_seq hlisten (reads_seq hto hyours))
    refine (reads_call rfl (reads_seq (reads_firstOption hread) (reads_stop hmark))).imp ?_
    rintro y ⟨_, span, ⟨_, _, ⟨_, ⟨_, _, rfl, ⟨_, _, rfl, rfl, rfl⟩, rfl⟩, rfl⟩, rfl, rfl⟩, rfl⟩
    exact ⟨_, ⟨.input .number, rfl, rfl⟩, rfl⟩
  | character =>
    have hyours := reads_your (w := "mind") hyour (by simp [particles]) hflush
    have hopen :=
      reads_particle (N := 1) (w := "open") (by simp [particles]) (flush_your hyour ["mind"] mark.toList)
    have hread := reads_label (f := .inputChar) (reads_seq hopen hyours)
    have hnumber : (label .inputNumber (sequence [word "listen", word "to", call .secondPersonPossessive,
        word "heart"])).Refuses 1 (spelled ["open", your, "mind"] mark.toList) :=
      leadsTo_label (refuses_seq (refuses_contrast (w := "open") (by simp [contrasts])))
    refine (reads_call rfl (reads_seq (reads_secondOption hnumber hread) (reads_stop hmark))).imp ?_
    rintro y ⟨_, span, ⟨_, _, ⟨_, ⟨_, _, rfl, rfl, rfl⟩, rfl⟩, rfl, rfl⟩, rfl⟩
    exact ⟨_, ⟨.input .character, rfl, rfl⟩, rfl⟩

/-- *Open your mind* is not taken for *open your heart*. -/
theorem output_refuses_mind {your : String} (hyour : [your] ∈ secondPersonPossessives) :
    (call .output).Refuses 2 (spelled ["open", your, "mind"] tail) := by
  have hopen := reads_particle (N := 1) (w := "open") (by simp [particles]) (flush_your hyour ["mind"] tail)
  have hpossessive := reads_entries (r := .secondPersonPossessive) hyour
    (flush_particle (w := "mind") (by simp [particles]) [] tail)
  refine leadsTo_call rfl (refuses_seq (leadsTo_oneOf fun q hq => ?_))
  obtain rfl | rfl : q = label .outputNumber (sequence [word "open", call .secondPersonPossessive, word "heart"]) ∨
    q = label .outputChar (sequence [word "speak", call .secondPersonPossessive, word "mind"]) := by simpa using hq
  · have hheart : (word "heart").Refuses 1 (spelled ["mind"] tail) := refuses_contrast (by simp [contrasts])
    exact leadsTo_label (refuses_seq_right hopen (refuses_seq_right hpossessive hheart))
  · exact leadsTo_label (refuses_seq (refuses_contrast (w := "open") (by simp [contrasts])))

/-! ### What is recalled -/

theorem reads_textBeforePunctuation (htext : Flush text) (hfree : ∀ c ∈ text, c ≠ '!' ∧ c ≠ '.')
    (hmark : mark ∈ stops) (more : List Char) :
    Rule.textBeforePunctuation.Reads 1 (text ++ (mark.toList ++ more)) (mark.toList ++ more)
      (· = .word (String.ofList text)) := by
  have hflush : Flush (mark.toList ++ more) := flush_of_proper (proper_particle (stop_particle hmark)) more
  have hstop : (mark.toList ++ more).takeWhile (fun c => c != '!' && c != '.') = [] := by
    obtain rfl | rfl : mark = "!" ∨ mark = "." := by simpa [stops] using hmark
    all_goals rfl
  have hall : (text ++ (mark.toList ++ more)).takeWhile (fun c => c != '!' && c != '.') = text := by
    rw [List.takeWhile_append_of_pos (by simpa using hfree), hstop, List.append_nil]
  have hread : ∀ call stack c seen, c.rest = text ++ (mark.toList ++ more) →
      (pattern .untilStop).read .usual call stack c seen =
        .done (.one (.word (String.ofList text))) (c.advance text.length) seen := by
    intro call stack c seen hc
    rw [read_pattern, hc, Pattern.length?, hall]
    simp only [List.take_left]
  have hcaptured := reads_captured (r := .textBeforePunctuation) rfl (htext.append hflush) hread
  rw [List.drop_left, hflush] at hcaptured
  refine hcaptured.imp ?_
  rintro y ⟨span, rfl⟩
  exact ⟨_, rfl, rfl⟩

theorem reads_pop (htext : Flush text) (hfree : ∀ c ∈ text, c ≠ '!' ∧ c ≠ '.') (hmark : mark ∈ stops) :
    Rule.pop.Reads 2 (spelled ["Recall"] (text ++ mark.toList)) [] (Performs (.pop (String.ofList text))) := by
  have hrecall := reads_particle (N := 1) (w := "Recall") (by simp [particles]) (htext.append (flush_stop hmark))
  have hread := reads_textBeforePunctuation htext hfree hmark []
  rw [List.append_nil] at hread
  refine (reads_call rfl (reads_seq hrecall (reads_seq (reads_label hread) (reads_stop hmark)))).imp ?_
  rintro y ⟨_, span, ⟨_, _, rfl, ⟨_, _, ⟨_, ⟨_, rfl, rfl⟩, rfl⟩, rfl, rfl⟩, rfl⟩, rfl⟩
  exact ⟨_, ⟨.pop (String.ofList text), rfl, rfl⟩, rfl⟩

/-! ### Actions -/

/-- The rules for actions, in the order in which they are tried. -/
def actionRules : List Rule := [.question, .assignment, .goto, .output, .input, .push, .pop]

theorem rules_refuse {rs : List Rule} (k : Kind) (hk : ∀ q ∈ rs, k ∈ q.foreign) (he : e ∈ k.entries)
    (vs : List String) :
    ∀ q ∈ rs, (call q).Refuses N (spelled (e ++ vs) tail) := by
  intro q hq
  rw [spelled_append]
  exact refuses_kind k (hk q hq) he

/-- An action is read as it is written, if no king is named in it. -/
theorem reads_action {a : Action Value} (h : a.Written ws tail) (hking : ∀ v ∈ a.values, ¬ v.NamesKing) :
    (ruleOf actionRules).Reads (3 * ws.length + 6) (spelled ws tail) [] fun y => ∃ t, Performs a t ∧
      y = .one t := by
  cases h with
  | @question c x y kept be ws cs vs hbe hx hc hy =>
    have hread :=
      reads_question (N := 3 * (be ++ (ws ++ (cs ++ vs))).length + 5) hbe hx hc hy
      (hking x (by simp [Action.values]))
      (hking y (by simp [Action.values])) (by simp only [List.length_append]; omega)
    exact reads_firstRule hread
  | @assignment x you be ls ws mark hyou hbe hls hx hmark =>
    have hread := reads_assignment (N := 3 * (you ++ (be ++ (ls ++ ws))).length + 5) hyou hbe hls hx hmark
      (hking x (by simp [Action.values])) (by simp only [List.length_append]; omega)
    exact reads_rules [.question] _ rfl (rules_refuse .listener (by decide) hyou _) hread
  | @goto target us go numeral mark hus hgo hnumeral hmark =>
    exact reads_rules [.question, .assignment] _ rfl (rules_refuse .going (by decide) hus _)
      ((reads_goto target hus hgo hnumeral hmark).mono (by omega))
  | @output medium your mark hyour hmark =>
    refine reads_rules [.question, .assignment, .goto] _ rfl ?_ ((reads_output medium hyour hmark).mono (by omega))
    cases medium with
    | number => exact rules_refuse (e := ["open"]) .opening (by decide) (List.mem_singleton_self _) _
    | character => exact rules_refuse (e := ["speak"]) .speaking (by decide) (List.mem_singleton_self _) _
  | @input medium your mark hyour hmark =>
    refine reads_rules [.question, .assignment, .goto, .output] _ rfl ?_
      ((reads_input medium hyour hmark).mono (by omega))
    cases medium with
    | number => exact rules_refuse (e := ["listen"]) .listening (by decide) (List.mem_singleton_self _) _
    | character =>
      intro q hq
      obtain hq | hq := List.mem_append.mp (show q ∈ [.question, .assignment, .goto] ++ [Rule.output] from hq)
      · exact rules_refuse (e := ["open"]) .opening (by decide) (List.mem_singleton_self _) _ q hq
      · obtain rfl := List.mem_singleton.mp hq
        exact (output_refuses_mind hyour).mono (by omega)
  | @push x ws mark hx hmark =>
    have hread := reads_push (N := 3 * ("Remember" :: ws).length + 5) hx hmark (hking x (by simp [Action.values]))
      (by simp only [List.length_cons]; omega)
    exact reads_rules (actionRules.take 5) _ rfl
      (rules_refuse (e := ["Remember"]) .remembering (by decide) (List.mem_singleton_self _) _) hread
  | pop htext hfree hmark =>
    exact reads_rules (actionRules.take 6) _ rfl
      (rules_refuse (e := ["Recall"]) .recalling (by decide) (List.mem_singleton_self _) _)
      ((reads_pop htext hfree hmark).mono (by omega))

/-- Where one action is refused and the others are foreign, no action is read. -/
theorem actions_refuse (r : Rule) (k : Kind) (hk : ∀ q ∈ actionRules, q ≠ r → k ∈ q.foreign) (he : e ∈ k.entries)
    (hown : (call r).Refuses N (spelled (e ++ vs) tail)) :
    (ruleOf actionRules).Refuses N (spelled (e ++ vs) tail) := by
  refine leadsTo_rules fun q hq => ?_
  by_cases hr : q = r
  · rw [hr]
    exact hown
  · rw [spelled_append]
    exact refuses_kind k (hk q hq hr) he

/-- An action in which a king is named is not read. -/
theorem action_refuses {a : Action Value} (h : a.Written ws tail) (hking : ∃ v ∈ a.values, v.NamesKing) :
    (ruleOf actionRules).Refuses (3 * ws.length + 6) (spelled ws tail) := by
  obtain ⟨v, hv, hking⟩ := hking
  cases h with
  | @question c x y kept be ws cs vs hbe hx hc hy =>
    have hkings : x.NamesKing ∨ y.NamesKing := by
      obtain rfl | rfl : v = x ∨ v = y := by simpa [Action.values] using hv
      · exact .inl hking
      · exact .inr hking
    exact actions_refuse .question .be (by decide) hbe
      (question_refuses hbe hx hc hy hkings (by simp only [List.length_append]; omega))
  | @assignment x you be ls ws mark hyou hbe hls hx hmark =>
    obtain rfl := List.mem_singleton.mp hv
    exact actions_refuse .assignment .listener (by decide) hyou
      (assignment_refuses hyou hbe hls hx hmark hking (by simp only [List.length_append]; omega))
  | @push x ws mark hx hmark =>
    obtain rfl := List.mem_singleton.mp hv
    have hown :=
      push_refuses (N := 3 * ("Remember" :: ws).length + 5) hx hmark hking (by simp only [List.length_cons]; omega)
    exact actions_refuse (e := ["Remember"]) .push .remembering (by decide) (List.mem_singleton_self _) hown
  | goto | output | input | pop => cases hv

theorem action_first {a : Action Value} (h : a.Written ws tail) :
    ∃ e vs, ws = e ++ vs ∧ Among Rule.negativeIf.foreign e := by
  cases h with
  | question hbe => exact ⟨_, _, rfl, .of .be (by decide) hbe⟩
  | assignment hyou => exact ⟨_, _, rfl, .of .listener (by decide) hyou⟩
  | goto hus => exact ⟨_, _, rfl, .of .going (by decide) hus⟩
  | @output medium =>
    cases medium with
    | number => exact ⟨["open"], _, rfl, .of .opening (by decide) (List.mem_singleton_self _)⟩
    | character => exact ⟨["speak"], _, rfl, .of .speaking (by decide) (List.mem_singleton_self _)⟩
  | @input medium =>
    cases medium with
    | number => exact ⟨["listen"], _, rfl, .of .listening (by decide) (List.mem_singleton_self _)⟩
    | character => exact ⟨["open"], _, rfl, .of .opening (by decide) (List.mem_singleton_self _)⟩
  | push => exact ⟨["Remember"], _, rfl, .of .remembering (by decide) (List.mem_singleton_self _)⟩
  | pop => exact ⟨["Recall"], [], rfl, .of .recalling (by decide) (List.mem_singleton_self _)⟩

theorem flush_of_action {a : Action Value} (h : a.Written ws tail) : Flush (spelled ws tail) := by
  obtain ⟨e, vs, rfl, he⟩ := action_first h
  rw [spelled_append]
  exact flush_of_foreign he _

/-! ### Whole sentences -/

theorem proper_of_condition (condition : Option Condition) : AreProper (conditionWords condition) := by
  cases condition with
  | none => exact List.forall_mem_nil _
  | some condition =>
    cases condition <;> exact proper_particles (by simp [conditionWords, Condition.words, particles])

theorem reads_ifNot (htail : Flush tail) :
    Rule.negativeIf.Reads 1 (spelled ["If", "not", ","] tail) tail (Condition.ofTree? · = some (some .ifNot)) := by
  have hproper : AreProper ["If", "not", ","] := proper_particles (by simp [particles])
  refine (reads_call rfl (reads_label (reads_words (List.cons_ne_nil _ _) hproper htail))).imp ?_
  rintro y ⟨_, span, ⟨_, rfl, rfl⟩, rfl⟩
  exact ⟨_, rfl, rfl⟩

theorem reads_ifSo (htail : Flush tail) :
    Rule.positiveIf.Reads 1 (spelled ["If", "so", ","] tail) tail (Condition.ofTree? · = some (some .ifSo)) := by
  have hproper : AreProper ["If", "so", ","] := proper_particles (by simp [particles])
  refine (reads_call rfl (reads_label (reads_words (List.cons_ne_nil _ _) hproper htail))).imp ?_
  rintro y ⟨_, span, ⟨_, rfl, rfl⟩, rfl⟩
  exact ⟨_, rfl, rfl⟩

theorem ifNot_refuses : (call .negativeIf).Refuses N (spelled ["If", "so", ","] tail) := by
  have hso : Flush (spelled ["so", ","] tail) := flush_particle (by simp [particles]) [","] tail
  have hif := reads_particle (N := N - 1) (w := "If") (by simp [particles]) hso
  have hnot : (word "not").Refuses (N - 1) (spelled ["so"] (spelled [","] tail)) :=
    refuses_contrast (by simp [contrasts])
  exact leadsTo_call rfl (leadsTo_label (refuses_seq_right hif (refuses_seq hnot)))

/-- A condition before an action is read, if there is one. -/
theorem reads_condition {a : Action Value} (condition : Option Condition) (h : a.Written ws tail) :
    (opt (ruleOf [.negativeIf, .positiveIf])).Reads 1 (spelled (conditionWords condition ++ ws) tail)
      (spelled ws tail) fun y => y.fields = [] ∧ Condition.ofTree? y.tree = some condition := by
  have hflush := flush_of_action h
  obtain _ | _ | _ := condition
  case none =>
    obtain ⟨e, vs, rfl, he⟩ := action_first h
    have hrefuses : (ruleOf [.negativeIf, .positiveIf]).Refuses 1 (spelled (e ++ vs) tail) := by
      rw [spelled_append]
      refine leadsTo_rules fun q hq => ?_
      obtain rfl | rfl : q = .negativeIf ∨ q = .positiveIf := by simpa using hq
      · exact refuses_foreign he
      · exact refuses_foreign (he.mono (by decide))
    exact (reads_opt_none hrefuses).imp fun y hy => by rw [hy]; exact ⟨rfl, rfl⟩
  case some.ifSo =>
    refine (reads_opt (reads_secondRule ifNot_refuses (reads_ifSo hflush))).imp ?_
    rintro y ⟨t, ht, rfl⟩
    exact ⟨rfl, ht⟩
  case some.ifNot =>
    refine (reads_opt (reads_firstRule (reads_ifNot hflush))).imp ?_
    rintro y ⟨t, ht, rfl⟩
    exact ⟨rfl, ht⟩

theorem reads_sentence {s : Sentence} (h : s.action.Written ws tail) (hking : ¬ s.NamesKing) :
    Rule.sentence.Reads (3 * ws.length + 7) (spelled (conditionWords s.condition ++ ws) tail) [] fun t =>
      ∃ s', Sentence.ofTree? t = some s' ∧ s'.unplaced = s.unplaced := by
  have hcondition := (reads_condition s.condition h).mono (M := 3 * ws.length + 6) (by omega)
  have haction := reads_action h fun v hv hv' => hking ⟨v, hv, hv'⟩
  refine (reads_call rfl (reads_seq (reads_label hcondition) (reads_label haction))).imp ?_
  rintro y ⟨_, span, ⟨_, _, ⟨u, ⟨hfields, hu⟩, rfl⟩, ⟨_, ⟨t, ⟨a, ht, ha⟩, rfl⟩, rfl⟩, rfl⟩, rfl⟩
  refine ⟨_, ⟨⟨span, s.condition, a⟩, ?_, by rw [Sentence.unplaced, Sentence.unplaced, ha]⟩, rfl⟩
  rw [ruleTree_of_fields rfl]
  simp only [Yield.append, Yield.one, hfields]
  exact sentenceOfTree?_eq hu ht

theorem sentence_refuses {s : Sentence} (h : s.action.Written ws tail) (hking : s.NamesKing) :
    (call .sentence).Refuses (3 * ws.length + 7) (spelled (conditionWords s.condition ++ ws) tail) := by
  have hcondition := (reads_condition s.condition h).mono (M := 3 * ws.length + 6) (by omega)
  exact leadsTo_call rfl (refuses_seq_right (reads_label hcondition) (leadsTo_label (action_refuses h hking)))

/-- There is room for the rules of a sentence. -/
theorem depth_of_sentence (condition : Option Condition) (ws : List String) (tail : List Char) :
    3 * ws.length + 7 ≤ callDepth (spelled (conditionWords condition ++ ws) tail) := by
  have hlength := length_le_spelled (conditionWords condition ++ ws) tail
  rw [List.length_append] at hlength
  rw [callDepth, ranks]
  omega

end Sentences

end Grammar

/-- A sentence that is written out is read back as it was, unless one of the four kings is named in its values;
then its text is not a sentence. -/
theorem parse_of_written {s : Sentence} {text : List Char} (h : s.Written text) :
    (¬ s.NamesKing → ∃ t s',
      parse .sentence text = .ok t ∧ Sentence.ofTree? t = some s' ∧ s'.unplaced = s.unplaced) ∧
    (s.NamesKing → ∃ e, parse .sentence text = .error e) := by
  obtain ⟨ws, tail, haction, rfl⟩ := h
  have hdepth := depth_of_sentence s.condition ws tail
  have hflush : Flush (spelled (conditionWords s.condition ++ ws) tail) := by
    rw [spelled_append]
    exact Phrase.flush_spelled_of_proper (proper_of_condition s.condition) (flush_of_action haction)
  constructor
  · intro hking
    obtain ⟨t, ht, s', hs, hsame⟩ := parse_of_reads (reads_sentence haction hking) hflush hdepth
    exact ⟨t, s', ht, hs, hsame⟩
  · intro hking
    exact parse_of_refuses (sentence_refuses haction hking) hflush hdepth

/-- The noun *King* is read where it is meant, and also where a king is named. -/
theorem parse_of_written_king :
    (∃ t s', parse .sentence "If not , you are as fat as twice the King !".toList = .ok t ∧
      Sentence.ofTree? t = some s' ∧ s'.unplaced =
        ⟨⟨0, 0⟩, some .ifNot, .assignment (.unary ⟨0, 0⟩ .twice (.nounPhrase ⟨0, 0⟩ .positive [] ["King"]))⟩) ∧
    ∃ e, parse .sentence "Remember the sum of me and King Lear .".toList = .error e := by
  constructor
  · have hking : (Value.nounPhrase ⟨0, 0⟩ .positive [] ["King"]).Written (["the"] ++ ([].flatten ++ ["King"])) :=
      .nounPhrase (.inr (by simp [determiners, articles])) (List.forall_mem_nil _)
        (by simp [Polarity.nouns, positiveNouns])
    have haction : (Action.assignment (.unary ⟨0, 0⟩ .twice (.nounPhrase ⟨0, 0⟩ .positive [] ["King"]))).Written
        (["you"] ++ (["are"] ++ (["as", "fat", "as"] ++ (["twice"] ++ (["the"] ++ ([].flatten ++ ["King"]))))))
        "!".toList :=
      .assignment (by simp [secondPersons]) (.inr (by simp [formsOfBe])) (.like (by simp [negativeAdjectives]))
        (.unary hking) (by simp [stops])
    have hwritten :
        Sentence.Written ⟨⟨0, 0⟩, some .ifNot, _⟩ "If not , you are as fat as twice the King !".toList :=
      ⟨_, _, haction, by decide +kernel⟩
    refine (parse_of_written hwritten).1 ?_
    rintro ⟨v, hv, name, hname, -⟩
    obtain rfl := List.mem_singleton.mp hv
    cases hname
  · have haction :
        (Action.push (.binary ⟨0, 0⟩ .sum (.firstPerson ⟨0, 0⟩ "me") (.character ⟨0, 0⟩ ["King", "Lear"]))).Written
        ("Remember" :: (["the", "sum", "of"] ++ (["me"] ++ "and" :: ["King", "Lear"]))) ".".toList :=
      .push (.binary (.firstPerson (by simp [firstPersons])) (.character (by simp [characters]))) (by simp [stops])
    have hwritten : Sentence.Written ⟨⟨0, 0⟩, none, _⟩ "Remember the sum of me and King Lear .".toList :=
      ⟨_, _, haction, by decide +kernel⟩
    refine (parse_of_written hwritten).2 ⟨_, List.mem_singleton_self _, ["King", "Lear"], ?_, by simp [kings]⟩
    exact List.mem_singleton_self _

end Playhouse
