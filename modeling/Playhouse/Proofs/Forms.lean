import Playhouse.Proofs.Yields
import Playhouse.Script.Play

/-!
# Playhouse.Proofs.Forms — the forms of the trees of the rules

A tree is taken for a value, a sentence, an event or a play by what its rule is and by the fields and words it
holds; the tables that are asked there were not made from the grammar. `Rule.Formed` says for each rule that
nothing is missing in its trees, and there is one statement for each rule that its body hands this on. Main
statement: `formed_of_read`.
-/

namespace Playhouse.Grammar

/-! ### The forms of trees -/

/-- The tree is a single word. -/
def Tree.IsWord (t : Tree) : Prop := ∃ w, t = .word w

/-- What the members of a list are taken for. -/
def membersOf? {α : Type} (f : Tree → Option α) (t : Tree) : Option (List α) := do (← t.members?).mapM f

/-- The program knows what to do with a tree of the rule: it finds the fields it looks for in it, and the words in
its tables. -/
def Rule.Formed : Rule → Tree → Prop
  | be | article | firstPerson | firstPersonReflexive | firstPersonPossessive | secondPerson
  | secondPersonReflexive | secondPersonPossessive | thirdPersonPossessive | possessive | negativeAdjective
  | neutralAdjective | positiveAdjective | positiveOrNeutralAdjective | textBeforePunctuation => Tree.IsWord
  | negativeNoun | neutralNoun | positiveNoun | positiveOrNeutralNoun | character =>
    fun t => ∃ ws, t.words? = some ws
  | positiveComparative | negativeComparative | neutralComparative => fun t => ∃ c, Comparison.ofTree? t = some c
  | nothing | negativeNounPhrase | positiveNounPhrase | nounPhrase | firstPersonValue | secondPersonValue
  | characterName | value | binaryExpression | unaryExpression | expression =>
    fun t => ∃ v, Value.ofTree? t = some v
  | binaryOperation => fun t => ∃ op, t.words?.bind binaryOperator? = some op
  | unaryOperation => fun t => ∃ op, t.words?.bind unaryOperator? = some op
  | negativeIf | positiveIf => fun t => ∃ c, Condition.ofTree? t = some (some c)
  | question | assignment | goto | output | input | push | pop => fun t => ∃ a, Action.ofTree? t = some a
  | letUs | proceedTo => fun _ => True
  | romanNumeral => fun t => ∃ span w, t = .node .romanNumeral span [(.value, .word w)]
  | sentence => fun t => ∃ s, Sentence.ofTree? t = some s
  | lineContents => fun t => ∃ ss, membersOf? Sentence.ofTree? t = some ss
  | characterList => fun t => ∃ ns, namesOfTree? t = some ns
  | line | breakpoint | entrance | exit | exeunt | event => fun t => ∃ e, Event.ofTree? t = some e
  | replInput => fun t => ∃ l, ConsoleLine.ofTree? t = some l
  | scene => fun t => ∃ s, Scene.ofTree? t = some s
  | act => fun t => ∃ a, Act.ofTree? t = some a
  | dramatisPersona => fun t => ∃ p, Persona.ofTree? t = some p
  | dramatisPersonae => fun t => ∃ ps, membersOf? Persona.ofTree? t = some ps
  | play => fun t => ∃ p, Play.ofTree? t = some p

section Forms

variable {R : Rule → Tree → Prop} {r : Rule} {y : Yield} {span : Span}

theorem ruleTree_of_fieldless (hr : r.fields = []) (hg : y.gathered = []) : y.ruleTree r span = y.tree := by
  unfold Yield.ruleTree
  rw [hr, hg]
  rfl

theorem ruleTree_of_fields {f : Field} {fs : List Field} (hr : r.fields = f :: fs) :
    y.ruleTree r span = .node r span ((f :: fs).map fun g => (g, (y.fields.lookup g).getD .absent)) := by
  unfold Yield.ruleTree
  rw [hr]

theorem mapM_word (ws : List String) : (ws.map Tree.word).mapM Tree.word? = some ws := by
  induction ws with
  | nil => rfl
  | cons w ws ih =>
    rw [List.map_cons, List.mapM_cons, ih]
    rfl

theorem words?_merge {ws : List String} (h : ws ≠ []) : (Tree.merge (ws.map Tree.word)).words? = some ws := by
  cases ws with
  | nil => exact absurd rfl h
  | cons w ws =>
    cases ws with
    | nil => rfl
    | cons v ws => exact mapM_word (w :: v :: ws)

theorem list_of_membersOf? {α : Type} {f : Tree → Option α} {t : Tree} {as : List α}
    (h : membersOf? f t = some as) :
    ∃ ts, t = .list ts ∧ ts.mapM f = some as := by
  cases t with
  | list ts => exact ⟨ts, rfl, h⟩
  | absent => cases h
  | word w => cases h
  | node r span fields => cases h

theorem mapM_isSome {α : Type} {f : Tree → Option α} {ts : List Tree} (h : ∀ t ∈ ts, ∃ a, f t = some a) :
    ∃ as, ts.mapM f = some as := by
  induction ts with
  | nil => exact ⟨[], rfl⟩
  | cons t ts ih =>
    obtain ⟨ht, hts⟩ := List.forall_mem_cons.mp h
    obtain ⟨a, ha⟩ := ht
    obtain ⟨as, has⟩ := ih hts
    refine ⟨a :: as, ?_⟩
    rw [List.mapM_cons, ha, has]
    rfl

theorem exists_of_mapM {α : Type} {f : Tree → Option α} {ts : List Tree} {as : List α} {a : α}
    (h : ts.mapM f = some as) (ha : a ∈ as) : ∃ t ∈ ts, f t = some a := by
  induction ts generalizing as with
  | nil =>
    cases h
    cases ha
  | cons t ts ih =>
    simp only [List.mapM_cons, Option.bind_eq_bind, Option.bind_eq_some_iff, Option.pure_def,
      Option.some.injEq] at h
    obtain ⟨b, hb, bs, hbs, rfl⟩ := h
    rcases List.mem_cons.mp ha with rfl | ha
    · exact ⟨t, List.mem_cons_self, hb⟩
    · obtain ⟨u, hu, hfu⟩ := ih hbs ha
      exact ⟨u, List.mem_cons_of_mem t hu, hfu⟩

/-- The entries of a list of single words. -/
theorem isWord_of_entry {entries : List (List String)} (hr : r.fields = []) (hne : entries ≠ [])
    (hone : ∀ ws ∈ entries, ws.length = 1) (h : (Phrase.entryOf entries).Gives R y) :
    (y.ruleTree r span).IsWord := by
  obtain ⟨ws, hws, rfl⟩ := gives_entry hne h
  obtain ⟨w, rfl⟩ := List.length_eq_one_iff.mp (hone ws hws)
  rw [ruleTree_of_fieldless hr rfl]
  exact ⟨w, rfl⟩

/-- The entries of a list of words or several words. -/
theorem words_of_entry {entries : List (List String)} (hr : r.fields = []) (hne : entries ≠ [])
    (hpos : ∀ ws ∈ entries, ws ≠ []) (h : (Phrase.entryOf entries).Gives R y) :
    ∃ ws, (y.ruleTree r span).words? = some ws := by
  obtain ⟨ws, hws, rfl⟩ := gives_entry hne h
  rw [ruleTree_of_fieldless hr rfl]
  exact ⟨ws, words?_merge (hpos ws hws)⟩

/-- A choice of rules that all have the same form has that form too. -/
theorem formed_of_choice {rs : List Rule} {expected : List Expected} (hr : r.fields = []) (hrs : rs ≠ [])
    (hform : rs.map Rule.Formed = List.replicate rs.length r.Formed)
    (h : (Phrase.ruleExpecting rs expected).Gives Rule.Formed y) : r.Formed (y.ruleTree r span) := by
  obtain ⟨q, hq, t, ht, rfl⟩ := gives_rules hrs h
  have hmem : q.Formed ∈ List.replicate rs.length r.Formed := hform ▸ List.mem_map_of_mem hq
  rw [ruleTree_of_fieldless hr rfl, ← List.eq_of_mem_replicate hmem]
  exact ht

end Forms


/-! ### The trees of values -/

section Values

variable {span : Span}

-- The equations of `ofTree?` are worked out here, once for the lemmas that follow.
attribute [local simp] Value.ofTree?

theorem ofTree?_nothing (w : String) :
    Value.ofTree? (.node .nothing span [(.nothingWord, .word w)]) = some (.nothing span w) := by
  rw [Value.ofTree?]
  rfl

theorem ofTree?_firstPerson (w : String) :
    Value.ofTree? (.node .firstPersonValue span [(.firstPersonWord, .word w)]) = some (.firstPerson span w) := by
  rw [Value.ofTree?]
  rfl

theorem ofTree?_secondPerson (w : String) :
    Value.ofTree? (.node .secondPersonValue span [(.secondPersonWord, .word w)]) =
      some (.secondPerson span w) := by
  rw [Value.ofTree?]
  rfl

theorem ofTree?_character {t : Tree} {ws : List String} (h : t.words? = some ws) :
    Value.ofTree? (.node .characterName span [(.name, t)]) = some (.character span ws) := by
  rw [Value.ofTree?]
  show (do return Value.character span (← t.words?)) = _
  rw [h]
  rfl

theorem nounPhraseOf?_eq {sign : Polarity} {ts : List Tree} {t : Tree} {adjectives : List (List String)}
    {noun : List String} (hts : ts.mapM Tree.words? = some adjectives) (ht : t.words? = some noun) :
    Value.nounPhraseOf? span sign [(.adjectives, .list ts), (.noun, t)] =
      some (.nounPhrase span sign adjectives noun) := by
  show (do
    let adjectives ← ts.mapM Tree.words?
    let noun ← t.words?
    return Value.nounPhrase span sign adjectives noun) = _
  rw [hts, ht]
  rfl

theorem ofTree?_unary {o t : Tree} {op : Number.UnaryOperator} {v : Value}
    (ho : o.words?.bind unaryOperator? = some op) (ht : Value.ofTree? t = some v) :
    Value.ofTree? (.node .unaryExpression span [(.operation, o), (.value, t)]) = some (.unary span op v) := by
  obtain ⟨ws, hws, hop⟩ := Option.bind_eq_some_iff.mp ho
  rw [Value.ofTree?]
  show (do
    let op ← unaryOperator? (← o.words?)
    return Value.unary span op (← Value.ofTree? t)) = _
  rw [hws, ht]
  show (do return Value.unary span (← unaryOperator? ws) v) = _
  rw [hop]
  rfl

theorem ofTree?_binary {o t u : Tree} {op : Number.BinaryOperator} {v w : Value}
    (ho : o.words?.bind binaryOperator? = some op) (ht : Value.ofTree? t = some v)
    (hu : Value.ofTree? u = some w) :
    Value.ofTree? (.node .binaryExpression span [(.firstValue, t), (.operation, o), (.secondValue, u)]) =
      some (.binary span op v w) := by
  obtain ⟨ws, hws, hop⟩ := Option.bind_eq_some_iff.mp ho
  rw [Value.ofTree?]
  show (do
    let op ← binaryOperator? (← o.words?)
    let first ← Value.ofTree? t
    return Value.binary span op first (← Value.ofTree? u)) = _
  rw [hws, ht, hu]
  show (do return Value.binary span (← binaryOperator? ws) v w) = _
  rw [hop]
  rfl

end Values


/-! ### The trees of sentences -/

section Sentences

variable {span : Span} {c t u : Tree} {v w : Value}

theorem actionOfTree?_question {comparison : Comparison} {words : List String}
    (hc : Comparison.ofTree? c = some (comparison, words)) (ht : Value.ofTree? t = some v)
    (hu : Value.ofTree? u = some w) :
    Action.ofTree? (.node .question span [(.comparative, c), (.firstValue, t), (.secondValue, u)]) =
      some (.question comparison words v w) := by
  show (do
    let compared ← Comparison.ofTree? c
    let first ← Value.ofTree? t
    let second ← Value.ofTree? u
    return Action.question compared.1 compared.2 first second) = _
  rw [hc, ht, hu]
  rfl

theorem actionOfTree?_assignment (ht : Value.ofTree? t = some v) :
    Action.ofTree? (.node .assignment span [(.value, t)]) = some (.assignment v) := by
  show (do return Action.assignment (← Value.ofTree? t)) = _
  rw [ht]
  rfl

theorem actionOfTree?_push (ht : Value.ofTree? t = some v) :
    Action.ofTree? (.node .push span [(.value, t)]) = some (.push v) := by
  show (do return Action.push (← Value.ofTree? t)) = _
  rw [ht]
  rfl

theorem sentenceOfTree?_eq {condition : Option Condition} {a : Action Value}
    (hc : Condition.ofTree? c = some condition) (ht : Action.ofTree? t = some a) :
    Sentence.ofTree? (.node .sentence span [(.condition, c), (.operation, t)]) = some ⟨span, condition, a⟩ := by
  show (do
    let condition ← Condition.ofTree? c
    let action ← Action.ofTree? t
    return Sentence.mk span condition action) = _
  rw [hc, ht]
  rfl

end Sentences

/-! ### One form for each rule -/

section Rules

variable {y : Yield} {span : Span}

/-- A word that is one of several. -/
theorem gives_oneOf_words {R : Rule → Tree → Prop} (ws : List String) {expected : List Expected} (hne : ws ≠ [])
    (h : (Phrase.oneOf (ws.map Phrase.word) expected).Gives R y) : ∃ w ∈ ws, y = .one (.word w) := by
  obtain ⟨p, hp, h⟩ := gives_firstOf _ (by simpa using hne) h
  obtain ⟨w, hw, rfl⟩ := List.mem_map.mp hp
  exact ⟨w, hw, gives_word h⟩

theorem formed_nothing (h : Phrase.nothing.Gives Rule.Formed y) :
    Rule.nothing.Formed (y.ruleTree .nothing span) := by
  obtain ⟨u, hu, rfl⟩ := h
  obtain ⟨w, -, rfl⟩ := gives_oneOf_words ["nothing", "zero"] (by simp) hu
  exact ⟨_, ofTree?_nothing w⟩

theorem formed_firstPersonValue (h : Phrase.firstPersonValue.Gives Rule.Formed y) :
    Rule.firstPersonValue.Formed (y.ruleTree .firstPersonValue span) := by
  obtain ⟨u, hu, rfl⟩ := h
  obtain ⟨q, hq, t, ht, rfl⟩ := gives_rules (by simp) hu
  have hword : t.IsWord := by
    simp only [List.mem_cons, List.not_mem_nil, or_false] at hq
    rcases hq with rfl | rfl <;> exact ht
  obtain ⟨w, rfl⟩ := hword
  exact ⟨_, ofTree?_firstPerson w⟩

theorem formed_secondPersonValue (h : Phrase.secondPersonValue.Gives Rule.Formed y) :
    Rule.secondPersonValue.Formed (y.ruleTree .secondPersonValue span) := by
  obtain ⟨u, hu, rfl⟩ := h
  obtain ⟨q, hq, t, ht, rfl⟩ := gives_rules (by simp) hu
  have hword : t.IsWord := by
    simp only [List.mem_cons, List.not_mem_nil, or_false] at hq
    rcases hq with rfl | rfl <;> exact ht
  obtain ⟨w, rfl⟩ := hword
  exact ⟨_, ofTree?_secondPerson w⟩

theorem formed_characterName (h : Phrase.characterName.Gives Rule.Formed y) :
    Rule.characterName.Formed (y.ruleTree .characterName span) := by
  obtain ⟨u, ⟨t, ⟨ws, hws⟩, rfl⟩, rfl⟩ := h
  exact ⟨_, ofTree?_character hws⟩

/-- The adjectives and the noun of a phrase, whatever stands before them. -/
theorem gives_nounPhrase {before adjective : Phrase} (noun : Rule)
    (hbefore : before.isUnlabelled = true)
    (hadjective : ∀ {u}, adjective.Gives Rule.Formed u → ∃ t, u = .one t ∧ t.IsWord)
    (hnoun : ∀ {t}, noun.Formed t → ∃ ws, t.words? = some ws)
    (h : (Phrase.sequence [before, .label .adjectives (.many adjective), .label .noun (.call noun)]).Gives
      Rule.Formed y) :
    ∃ ts t adjectives ws, ts.mapM Tree.words? = some adjectives ∧ t.words? = some ws ∧
      y.fields = [(.adjectives, .list ts), (.noun, t)] := by
  obtain ⟨u, _, hu, ⟨_, _, ⟨_, ⟨us, hus, rfl⟩, rfl⟩, ⟨_, ⟨t, ht, rfl⟩, rfl⟩, rfl⟩, rfl⟩ := h
  obtain ⟨ws, hws⟩ := hnoun ht
  have hwords : ∀ t ∈ us.map Yield.tree, ∃ ws, Tree.words? t = some ws := by
    intro t ht
    obtain ⟨u, hu, rfl⟩ := List.mem_map.mp ht
    obtain ⟨_, rfl, w, rfl⟩ := hadjective (hus u hu)
    exact ⟨[w], rfl⟩
  have hnone : us.flatMap Yield.fields = [] := by
    refine fields_of_repeated fun u hu => ?_
    obtain ⟨t, rfl, -⟩ := hadjective (hus u hu)
    rfl
  obtain ⟨adjectives, hadjectives⟩ := mapM_isSome hwords
  refine ⟨_, t, adjectives, ws, hadjectives, hws, ?_⟩
  simp only [Yield.append, Yield.repeated, Yield.one, Yield.tree, fields_of_unlabelled _ hbefore hu, hnone]
  rfl


theorem formed_negativeNounPhrase (h : Phrase.negativeNounPhrase.Gives Rule.Formed y) :
    Rule.negativeNounPhrase.Formed (y.ruleTree .negativeNounPhrase span) := by
  have hadjective : ∀ {u}, (Phrase.ruleOf [.negativeAdjective, .neutralAdjective]).Gives Rule.Formed u →
      ∃ t, u = .one t ∧ t.IsWord := by
    intro u hu
    obtain ⟨q, hq, t, ht, rfl⟩ := gives_rules (by simp) hu
    simp only [List.mem_cons, List.not_mem_nil, or_false] at hq
    rcases hq with rfl | rfl <;> exact ⟨t, rfl, ht⟩
  obtain ⟨ts, t, adjectives, ws, hts, ht, hy⟩ := gives_nounPhrase .negativeNoun rfl hadjective (fun h => h) h
  refine ⟨.nounPhrase span .negative adjectives ws, ?_⟩
  rw [ruleTree_of_fields rfl, hy]
  show Value.ofTree? (.node .negativeNounPhrase span [(.adjectives, .list ts), (.noun, t)]) = _
  rw [Value.ofTree?]
  exact nounPhraseOf?_eq hts ht

theorem formed_positiveNounPhrase (h : Phrase.positiveNounPhrase.Gives Rule.Formed y) :
    Rule.positiveNounPhrase.Formed (y.ruleTree .positiveNounPhrase span) := by
  have hadjective : ∀ {u}, (Phrase.call .positiveOrNeutralAdjective).Gives Rule.Formed u →
      ∃ t, u = .one t ∧ t.IsWord := by
    rintro u ⟨t, ht, rfl⟩
    exact ⟨t, rfl, ht⟩
  obtain ⟨ts, t, adjectives, ws, hts, ht, hy⟩ :=
    gives_nounPhrase .positiveOrNeutralNoun rfl hadjective (fun h => h) h
  refine ⟨.nounPhrase span .positive adjectives ws, ?_⟩
  rw [ruleTree_of_fields rfl, hy]
  show Value.ofTree? (.node .positiveNounPhrase span [(.adjectives, .list ts), (.noun, t)]) = _
  rw [Value.ofTree?]
  exact nounPhraseOf?_eq hts ht

theorem formed_unaryExpression (h : Phrase.unaryExpression.Gives Rule.Formed y) :
    Rule.unaryExpression.Formed (y.ruleTree .unaryExpression span) := by
  obtain ⟨_, _, ⟨_, ⟨o, ⟨op, ho⟩, rfl⟩, rfl⟩, ⟨_, ⟨t, ⟨v, hv⟩, rfl⟩, rfl⟩, rfl⟩ := h
  exact ⟨_, ofTree?_unary ho hv⟩

theorem formed_binaryExpression (h : Phrase.binaryExpression.Gives Rule.Formed y) :
    Rule.binaryExpression.Formed (y.ruleTree .binaryExpression span) := by
  obtain ⟨_, _, ⟨_, ⟨o, ⟨op, ho⟩, rfl⟩, rfl⟩, ⟨_, _, ⟨_, ⟨t, ⟨v, hv⟩, rfl⟩, rfl⟩,
    ⟨_, _, hand, ⟨_, ⟨u, ⟨w, hw⟩, rfl⟩, rfl⟩, rfl⟩, rfl⟩, rfl⟩ := h
  rw [gives_word hand]
  exact ⟨_, ofTree?_binary ho hv hw⟩

/-- Words that a table is asked for. -/
theorem formed_operation {r : Rule} (entries : List (List String)) {expected : List Expected} {β : Type}
    {table : List String → Option β} (hr : r.fields = []) (hne : entries ≠ [])
    (htable : ∀ ws ∈ entries, ws ≠ [] ∧ (table ws).isSome)
    (h : (Phrase.oneOf (entries.map Phrase.words) expected).Gives Rule.Formed y) :
    ∃ op, (y.ruleTree r span).words?.bind table = some op := by
  obtain ⟨p, hp, h⟩ := gives_firstOf _ (by simpa using hne) h
  obtain ⟨ws, hws, rfl⟩ := List.mem_map.mp hp
  obtain ⟨hpos, hop⟩ := htable ws hws
  obtain ⟨op, hop⟩ := Option.isSome_iff_exists.mp hop
  rw [gives_words ws h, ruleTree_of_fieldless hr rfl]
  refine ⟨op, ?_⟩
  show (Tree.merge (ws.map Tree.word)).words?.bind table = some op
  rw [words?_merge hpos]
  exact hop

theorem formed_binaryOperation (h : Phrase.binaryOperation.Gives Rule.Formed y) :
    Rule.binaryOperation.Formed (y.ruleTree .binaryOperation span) :=
  formed_operation [["the", "difference", "between"], ["the", "product", "of"], ["the", "quotient", "between"],
    ["the", "remainder", "of", "the", "quotient", "between"], ["the", "sum", "of"]]
    rfl (by simp) (by simp [binaryOperator?]) h

theorem formed_unaryOperation (h : Phrase.unaryOperation.Gives Rule.Formed y) :
    Rule.unaryOperation.Formed (y.ruleTree .unaryOperation span) :=
  formed_operation [["the", "cube", "of"], ["the", "factorial", "of"], ["the", "square", "of"],
    ["the", "square", "root", "of"], ["twice"]] rfl (by simp) (by simp [unaryOperator?]) h

/-! Comparisons -/

theorem formed_comparative {r : Rule} {ws : List String} (adjective : Rule) (c : Comparison)
    (hr : r.fields = [.comparison]) (hc : ∀ {t words}, t.words? = some words →
      Comparison.ofTree? (.node r span [(.comparison, t)]) = some (c, words))
    (hadjective : ∀ {t}, adjective.Formed t → t.IsWord)
    (h : (Phrase.comparative ws adjective).Gives Rule.Formed y) :
    ∃ x, Comparison.ofTree? (y.ruleTree r span) = some x := by
  obtain ⟨_, _, ⟨u, hu, rfl⟩, hthan, rfl⟩ := h
  have hwords : u.fields = [] ∧ ∃ words, u.tree.words? = some words := by
    obtain ⟨p, hp, hu⟩ := gives_firstOf _ (by simp) hu
    rcases List.mem_append.mp hp with hp | hp
    · obtain ⟨w, -, rfl⟩ := List.mem_map.mp hp
      rw [gives_word hu]
      exact ⟨rfl, _, rfl⟩
    · obtain rfl := List.mem_singleton.mp hp
      obtain ⟨_, _, hmore, ⟨t, ht, rfl⟩, rfl⟩ := hu
      obtain ⟨w, rfl⟩ := hadjective ht
      rw [gives_word hmore]
      exact ⟨rfl, ["more", w], rfl⟩
  obtain ⟨hfields, words, hwords⟩ := hwords
  refine ⟨(c, words), ?_⟩
  rw [gives_word hthan]
  rw [ruleTree_of_fields hr]
  simp only [Yield.append, Yield.one, hfields]
  exact hc hwords

theorem formed_neutralComparative (h : Phrase.neutralComparative.Gives Rule.Formed y) :
    Rule.neutralComparative.Formed (y.ruleTree .neutralComparative span) := by
  obtain ⟨_, _, has, ⟨_, _, ⟨u, hu, rfl⟩, has', rfl⟩, rfl⟩ := h
  obtain ⟨q, hq, t, ht, rfl⟩ := gives_rules (by simp) hu
  have hword : t.IsWord := by
    simp only [List.mem_cons, List.not_mem_nil, or_false] at hq
    rcases hq with rfl | rfl <;> exact ht
  obtain ⟨w, rfl⟩ := hword
  rw [gives_word has, gives_word has']
  exact ⟨(.equal, [w]), rfl⟩


/-! Sentences -/

theorem formed_question (h : Phrase.question.Gives Rule.Formed y) :
    Rule.question.Formed (y.ruleTree .question span) := by
  obtain ⟨_, _, ⟨b, -, rfl⟩, ⟨_, _, ⟨_, ⟨t, ⟨v, hv⟩, rfl⟩, rfl⟩, ⟨_, _, ⟨_, hc, rfl⟩,
    ⟨_, _, ⟨_, ⟨u, ⟨w, hw⟩, rfl⟩, rfl⟩, hmark, rfl⟩, rfl⟩, rfl⟩, rfl⟩ := h
  obtain ⟨q, hq, c, hc, rfl⟩ := gives_rules (by simp) hc
  have hcomparison : ∃ x, Comparison.ofTree? c = some x := by
    simp only [List.mem_cons, List.not_mem_nil, or_false] at hq
    rcases hq with rfl | rfl | rfl <;> exact hc
  obtain ⟨⟨comparison, words⟩, hc⟩ := hcomparison
  rw [gives_word hmark]
  exact ⟨_, actionOfTree?_question hc hv hw⟩

theorem formed_assignment (h : Phrase.assignment.Gives Rule.Formed y) :
    Rule.assignment.Formed (y.ruleTree .assignment span) := by
  obtain ⟨_, _, ⟨p, -, rfl⟩, ⟨b, _, hb, ⟨a, _, ha, ⟨_, z, ⟨_, ⟨t, ⟨v, hv⟩, rfl⟩, rfl⟩, hz, rfl⟩, rfl⟩, rfl⟩,
    rfl⟩ := h
  refine ⟨.assignment v, ?_⟩
  rw [ruleTree_of_fields rfl]
  simp only [Yield.append, Yield.one, fields_of_unlabelled _ rfl hb, fields_of_unlabelled _ rfl ha]
  exact actionOfTree?_assignment hv

theorem formed_goto (h : Phrase.goto.Gives Rule.Formed y) : Rule.goto.Formed (y.ruleTree .goto span) := by
  obtain ⟨_, _, ⟨_, -, rfl⟩, ⟨_, _, ⟨_, -, rfl⟩, ⟨_, _, ⟨_, ht, rfl⟩,
    ⟨_, z, ⟨_, ⟨_, ⟨_, numeral, rfl⟩, rfl⟩, rfl⟩, hz, rfl⟩, rfl⟩, rfl⟩, rfl⟩ := h
  obtain ⟨w, hw, rfl⟩ := gives_oneOf_words ["scene", "act"] (by simp) ht
  simp only [List.mem_cons, List.not_mem_nil, or_false] at hw
  rcases hw with rfl | rfl
  · exact ⟨.goto .scene numeral, rfl⟩
  · exact ⟨.goto .act numeral, rfl⟩

theorem formed_output (h : Phrase.output.Gives Rule.Formed y) : Rule.output.Formed (y.ruleTree .output span) := by
  obtain ⟨u, _, hu, hz, rfl⟩ := h
  rw [ruleTree_of_fields rfl]
  simp only [Yield.append, fields_of_unlabelled _ rfl hz]
  rcases hu with ⟨_, ⟨_, _, ho, ⟨_, _, ⟨p, -, rfl⟩, hh, rfl⟩, rfl⟩, rfl⟩ |
    ⟨_, ⟨_, _, ho, ⟨_, _, ⟨p, -, rfl⟩, hh, rfl⟩, rfl⟩, rfl⟩
  · rw [gives_word ho, gives_word hh]
    exact ⟨.output .number, rfl⟩
  · rw [gives_word ho, gives_word hh]
    exact ⟨.output .character, rfl⟩

theorem formed_input (h : Phrase.input.Gives Rule.Formed y) : Rule.input.Formed (y.ruleTree .input span) := by
  obtain ⟨u, _, hu, hz, rfl⟩ := h
  rw [ruleTree_of_fields rfl]
  simp only [Yield.append, fields_of_unlabelled _ rfl hz]
  rcases hu with ⟨_, ⟨_, _, hl, ⟨_, _, hto, ⟨_, _, ⟨p, -, rfl⟩, hh, rfl⟩, rfl⟩, rfl⟩, rfl⟩ |
    ⟨_, ⟨_, _, ho, ⟨_, _, ⟨p, -, rfl⟩, hh, rfl⟩, rfl⟩, rfl⟩
  · rw [gives_word hl, gives_word hto, gives_word hh]
    exact ⟨.input .number, rfl⟩
  · rw [gives_word ho, gives_word hh]
    exact ⟨.input .character, rfl⟩

theorem formed_push (h : Phrase.push.Gives Rule.Formed y) : Rule.push.Formed (y.ruleTree .push span) := by
  obtain ⟨_, _, hr, ⟨_, z, ⟨_, ⟨t, ⟨v, hv⟩, rfl⟩, rfl⟩, hz, rfl⟩, rfl⟩ := h
  rw [gives_word hr]
  exact ⟨_, actionOfTree?_push hv⟩

theorem formed_pop (h : Phrase.pop.Gives Rule.Formed y) : Rule.pop.Formed (y.ruleTree .pop span) := by
  obtain ⟨_, _, hr, ⟨_, z, ⟨_, ⟨_, ⟨recalled, rfl⟩, rfl⟩, rfl⟩, hz, rfl⟩, rfl⟩ := h
  rw [gives_word hr]
  exact ⟨.pop recalled, rfl⟩

theorem formed_sentence (h : Phrase.sentence.Gives Rule.Formed y) :
    Rule.sentence.Formed (y.ruleTree .sentence span) := by
  obtain ⟨_, _, ⟨u, hu, rfl⟩, ⟨_, ha, rfl⟩, rfl⟩ := h
  obtain ⟨q, hq, t, ht, rfl⟩ := gives_rules (by simp) ha
  have haction : ∃ a, Action.ofTree? t = some a := by
    simp only [List.mem_cons, List.not_mem_nil, or_false] at hq
    rcases hq with rfl | rfl | rfl | rfl | rfl | rfl | rfl <;> exact ht
  obtain ⟨a, ha⟩ := haction
  have hcondition : u.fields = [] ∧ ∃ c, Condition.ofTree? u.tree = some c := by
    rcases hu with hu | rfl
    · obtain ⟨q, hq, t, ht, rfl⟩ := gives_rules (by simp) hu
      simp only [List.mem_cons, List.not_mem_nil, or_false] at hq
      rcases hq with rfl | rfl
      · obtain ⟨c, hc⟩ := ht
        exact ⟨rfl, some c, hc⟩
      · obtain ⟨c, hc⟩ := ht
        exact ⟨rfl, some c, hc⟩
    · exact ⟨rfl, none, rfl⟩
  obtain ⟨hfields, c, hc⟩ := hcondition
  refine ⟨⟨span, c, a⟩, ?_⟩
  rw [ruleTree_of_fields rfl]
  simp only [Yield.append, Yield.one, hfields]
  exact sentenceOfTree?_eq hc ha


/-! Events, plays and the console -/

/-- A rule that collects trees of one form gives a list of them. -/
theorem members_of_gathered {α : Type} {r : Rule} {f : Tree → Option α} (hr : r.fields = [])
    (hne : y.gathered ≠ [] ∨ y.tree = .list []) (h : ∀ t ∈ y.gathered, ∃ a, f t = some a) :
    ∃ as, membersOf? f (y.ruleTree r span) = some as := by
  cases hg : y.gathered with
  | nil =>
    rw [ruleTree_of_fieldless hr hg, hne.resolve_left fun hne => hne hg]
    exact ⟨[], rfl⟩
  | cons t ts =>
    rw [hg] at h
    obtain ⟨as, has⟩ := mapM_isSome h
    refine ⟨as, ?_⟩
    unfold Yield.ruleTree
    rw [hr, hg]
    exact has

/-- Trees that are collected one after the other, with something between them. -/
theorem gathered_of_many {before : Phrase} {r : Rule} {u : Yield}
    (hbefore : ∀ {z}, before.Gives R z → z.gathered = [])
    (h : (Phrase.many (.seq before (.gather (.call r)))).Gives R u) : ∀ t ∈ u.gathered, R r t := by
  obtain ⟨us, hus, rfl⟩ := h
  intro t ht
  obtain ⟨z, hz, ht⟩ := List.mem_flatMap.mp ht
  obtain ⟨b, _, hb, ⟨_, ⟨t', ht', rfl⟩, rfl⟩, rfl⟩ := hus z hz
  have hgathered : t ∈ b.gathered ++ [t'] := ht
  rw [hbefore hb, List.nil_append, List.mem_singleton] at hgathered
  rw [hgathered]
  exact ht'

theorem formed_lineContents (h : Phrase.lineContents.Gives Rule.Formed y) :
    Rule.lineContents.Formed (y.ruleTree .lineContents span) := by
  obtain ⟨_, u, ⟨_, ⟨t, ht, rfl⟩, rfl⟩, hu, rfl⟩ := h
  have hmore : ∀ t ∈ u.gathered, Rule.sentence.Formed t := gathered_of_many (by rintro z ⟨_, rfl⟩; rfl) hu
  exact members_of_gathered rfl (Or.inl (List.cons_ne_nil _ _)) (List.forall_mem_cons.mpr ⟨ht, hmore⟩)

theorem formed_characterList (h : Phrase.characterList.Gives Rule.Formed y) :
    Rule.characterList.Formed (y.ruleTree .characterList span) := by
  rcases h with ⟨_, _, ⟨_, ⟨t, ht, rfl⟩, rfl⟩, ⟨u, _, hu, ⟨_, _, hand, ⟨_, ⟨t', ht', rfl⟩, rfl⟩, rfl⟩, rfl⟩, rfl⟩ |
    ⟨_, ⟨t, ht, rfl⟩, rfl⟩
  · have hmore : ∀ t ∈ u.gathered, Rule.character.Formed t :=
      gathered_of_many (fun h => by rw [gives_word h]; rfl) hu
    rw [gives_word hand]
    refine members_of_gathered rfl (Or.inl (List.cons_ne_nil _ _)) (List.forall_mem_cons.mpr ⟨ht, ?_⟩)
    intro z hz
    have hz : z ∈ u.gathered ++ [t'] := hz
    rcases List.mem_append.mp hz with hz | hz
    · exact hmore z hz
    · rw [List.mem_singleton.mp hz]
      exact ht'
  · exact members_of_gathered rfl (Or.inl (List.cons_ne_nil _ _)) (List.forall_mem_cons.mpr ⟨ht, by simp⟩)

theorem formed_line (h : Phrase.line.Gives Rule.Formed y) : Rule.line.Formed (y.ruleTree .line span) := by
  obtain ⟨_, _, ⟨_, ⟨t, ⟨ws, hws⟩, rfl⟩, rfl⟩, ⟨_, _, hcolon, ⟨_, ⟨u, ⟨ss, hss⟩, rfl⟩, rfl⟩, rfl⟩, rfl⟩ := h
  obtain ⟨ts, rfl, hts⟩ := list_of_membersOf? hss
  rw [gives_word hcolon]
  refine ⟨.line span ws ss, ?_⟩
  show (do
    let speaker ← t.words?
    let sentences ← ts.mapM Sentence.ofTree?
    return Event.line span speaker sentences) = _
  rw [hws, hts]
  rfl

theorem formed_entrance (h : Phrase.entrance.Gives Rule.Formed y) :
    Rule.entrance.Formed (y.ruleTree .entrance span) := by
  obtain ⟨_, _, hopen, ⟨_, _, henter, ⟨_, _, ⟨_, ⟨t, ⟨ns, hns⟩, rfl⟩, rfl⟩, hclose, rfl⟩, rfl⟩, rfl⟩ := h
  rw [gives_word hopen, gives_word henter, gives_word hclose]
  refine ⟨.entrance span ns, ?_⟩
  show (do return Event.entrance span (← namesOfTree? t)) = _
  rw [hns]
  rfl

theorem formed_exit (h : Phrase.exit.Gives Rule.Formed y) : Rule.exit.Formed (y.ruleTree .exit span) := by
  obtain ⟨_, _, hopen, ⟨_, _, hexit, ⟨_, _, ⟨_, ⟨t, ⟨ws, hws⟩, rfl⟩, rfl⟩, hclose, rfl⟩, rfl⟩, rfl⟩ := h
  rw [gives_word hopen, gives_word hexit, gives_word hclose]
  refine ⟨.exit span ws, ?_⟩
  show (do return Event.exit span (← t.words?)) = _
  rw [hws]
  rfl

theorem formed_exeunt (h : Phrase.exeunt.Gives Rule.Formed y) : Rule.exeunt.Formed (y.ruleTree .exeunt span) := by
  obtain ⟨_, _, hopen, ⟨_, _, ⟨_, hexeunt, rfl⟩, ⟨u, _, hu, hclose, rfl⟩, rfl⟩, rfl⟩ := h
  rw [gives_word hopen, gives_word hexeunt, gives_word hclose]
  rcases hu with ⟨_, ⟨t, ⟨ns, hns⟩, rfl⟩, rfl⟩ | rfl
  · refine ⟨.exeunt span (some ns), ?_⟩
    -- names are only found in a list, so that the field is not taken for an absent one
    obtain ⟨ts, rfl, -⟩ := list_of_membersOf? hns
    show (do return Event.exeunt span (some (← namesOfTree? (.list ts)))) = _
    rw [hns]
    rfl
  · exact ⟨.exeunt span none, rfl⟩

/-- The number, the name and the parts of an act or scene. -/
theorem fields_of_part {heading : String} {f : Field} {r : Rule}
    (h : (Phrase.part heading f r).Gives Rule.Formed y) :
    ∃ span' numeral name ts, (∀ t ∈ ts, r.Formed t) ∧
      y.fields = [(.number, .node .romanNumeral span' [(.value, .word numeral)]), (.name, .word name),
        (f, .list ts)] := by
  obtain ⟨_, _, hhead, ⟨_, _, ⟨_, rfl⟩, ⟨_, _, ⟨_, ⟨_, ⟨span', numeral, rfl⟩, rfl⟩, rfl⟩, ⟨_, _, hcolon,
    ⟨_, _, ⟨_, ⟨_, ⟨name, rfl⟩, rfl⟩, rfl⟩, ⟨z, _, hz, ⟨_, ⟨us, hus, rfl⟩, rfl⟩, rfl⟩, rfl⟩, rfl⟩, rfl⟩, rfl⟩,
    rfl⟩ := h
  rw [gives_word hhead, gives_word hcolon]
  refine ⟨span', numeral, name, us.map Yield.tree, ?_, ?_⟩
  · intro t ht
    obtain ⟨u, hu, rfl⟩ := List.mem_map.mp ht
    obtain ⟨t, hformed, rfl⟩ := hus u hu
    exact hformed
  · have hnone : us.flatMap Yield.fields = [] := by
      refine fields_of_repeated fun u hu => ?_
      obtain ⟨t, -, rfl⟩ := hus u hu
      rfl
    simp only [Yield.append, Yield.one, Yield.repeated, Yield.tree, fields_of_unlabelled _ rfl hz, hnone]
    rfl


theorem formed_scene (h : Phrase.scene.Gives Rule.Formed y) : Rule.scene.Formed (y.ruleTree .scene span) := by
  obtain ⟨span', numeral, name, ts, hts, hy⟩ := fields_of_part h
  obtain ⟨es, hes⟩ := mapM_isSome (f := Event.ofTree?) hts
  refine ⟨⟨⟨span', numeral⟩, name, es⟩, ?_⟩
  rw [ruleTree_of_fields rfl, hy]
  show (do
    let events ← ts.mapM Event.ofTree?
    return Scene.mk ⟨span', numeral⟩ name events) = _
  rw [hes]
  rfl

theorem formed_act (h : Phrase.act.Gives Rule.Formed y) : Rule.act.Formed (y.ruleTree .act span) := by
  obtain ⟨span', numeral, name, ts, hts, hy⟩ := fields_of_part h
  obtain ⟨ss, hss⟩ := mapM_isSome (f := Scene.ofTree?) hts
  refine ⟨⟨⟨span', numeral⟩, name, ss⟩, ?_⟩
  rw [ruleTree_of_fields rfl, hy]
  show (do
    let scenes ← ts.mapM Scene.ofTree?
    return Act.mk ⟨span', numeral⟩ name scenes) = _
  rw [hss]
  rfl

theorem formed_dramatisPersona (h : Phrase.dramatisPersona.Gives Rule.Formed y) :
    Rule.dramatisPersona.Formed (y.ruleTree .dramatisPersona span) := by
  obtain ⟨_, _, ⟨_, ⟨t, ⟨ws, hws⟩, rfl⟩, rfl⟩, _, rfl⟩ := h
  refine ⟨⟨span, ws⟩, ?_⟩
  show (do return Persona.mk span (← t.words?)) = _
  rw [hws]
  rfl

theorem formed_dramatisPersonae (h : Phrase.dramatisPersonae.Gives Rule.Formed y) :
    Rule.dramatisPersonae.Formed (y.ruleTree .dramatisPersonae span) := by
  refine members_of_gathered rfl ?_ (gathered_of_many (by rintro z ⟨_, rfl⟩; rfl) h)
  obtain ⟨us, hus, rfl⟩ := h
  cases us with
  | nil => exact Or.inr rfl
  | cons u us =>
    obtain ⟨b, _, ⟨_, rfl⟩, ⟨_, ⟨t, -, rfl⟩, rfl⟩, rfl⟩ := hus u List.mem_cons_self
    exact Or.inl (List.cons_ne_nil _ _)

theorem formed_play (h : Phrase.play.Gives Rule.Formed y) : Rule.play.Formed (y.ruleTree .play span) := by
  obtain ⟨_, _, ⟨_, ⟨_, ⟨title, rfl⟩, rfl⟩, rfl⟩, ⟨z, _, hz, ⟨_, _, ⟨_, ⟨d, ⟨ps, hps⟩, rfl⟩, rfl⟩,
    ⟨_, _, ⟨_, ⟨us, hus, rfl⟩, rfl⟩, rfl, rfl⟩, rfl⟩, rfl⟩, rfl⟩ := h
  obtain ⟨ds, rfl, hds⟩ := list_of_membersOf? hps
  have hformed : ∀ t ∈ us.map Yield.tree, ∃ a, Act.ofTree? t = some a := by
    intro t ht
    obtain ⟨u, hu, rfl⟩ := List.mem_map.mp ht
    obtain ⟨t, hformed, rfl⟩ := hus u hu
    exact hformed
  have hnone : us.flatMap Yield.fields = [] := by
    refine fields_of_repeated fun u hu => ?_
    obtain ⟨t, -, rfl⟩ := hus u hu
    rfl
  obtain ⟨as, has⟩ := mapM_isSome hformed
  refine ⟨⟨title, ps, as⟩, ?_⟩
  rw [ruleTree_of_fields rfl]
  simp only [Yield.append, Yield.one, Yield.repeated, Yield.none, fields_of_unlabelled _ rfl hz, hnone]
  show (do
    let personae ← ds.mapM Persona.ofTree?
    let acts ← (us.map Yield.tree).mapM Act.ofTree?
    return Play.mk title personae acts) = _
  rw [hds, has]
  rfl

theorem node_of_value {t : Tree} {v : Value} (h : Value.ofTree? t = some v) :
    ∃ r span fields, t = .node r span fields := by
  cases t with
  | node r span fields => exact ⟨r, span, fields, rfl⟩
  | absent => simp [Value.ofTree?] at h
  | word w => simp [Value.ofTree?] at h
  | list ts => simp [Value.ofTree?] at h

theorem node_of_event {t : Tree} {e : Event} (h : Event.ofTree? t = some e) :
    ∃ r span fields, t = .node r span fields := by
  cases t with
  | node r span fields => exact ⟨r, span, fields, rfl⟩
  | absent => cases h
  | word w => cases h
  | list ts => cases h

theorem speakerOfTree?_of_words {t : Tree} {ws : List String} (h : t.words? = some ws) :
    speakerOfTree? t = some (some ws) := by
  cases t with
  | absent => cases h
  | word w => exact congrArg (Option.map some) h
  | list ts => exact congrArg (Option.map some) h
  | node r span fields => cases h

theorem formed_replInput (h : Phrase.replInput.Gives Rule.Formed y) :
    Rule.replInput.Formed (y.ruleTree .replInput span) := by
  rcases h with ⟨_, _, rfl, ⟨_, _, ⟨_, ⟨t, ⟨ws, hws⟩, rfl⟩, rfl⟩, rfl, rfl⟩, rfl⟩ |
    ⟨_, _, rfl, ⟨s, _, hs, ⟨_, _, ⟨_, ⟨t, ⟨v, hv⟩, rfl⟩, rfl⟩, rfl, rfl⟩, rfl⟩, rfl⟩ |
    ⟨_, _, ⟨_, ⟨t, ⟨e, he⟩, rfl⟩, rfl⟩, rfl, rfl⟩ |
    ⟨_, _, ⟨_, ⟨us, hus, -, rfl⟩, rfl⟩, rfl, rfl⟩
  · refine ⟨.display ws, ?_⟩
    show (do return ConsoleLine.display (← t.words?)) = _
    rw [hws]
    rfl
  · obtain ⟨r, span', fields, rfl⟩ := node_of_value hv
    rcases hs with ⟨_, _, ⟨_, ⟨d, ⟨ws, hws⟩, rfl⟩, rfl⟩, hcolon, rfl⟩ | rfl
    · rw [gives_word hcolon]
      refine ⟨.value (some ws) v, ?_⟩
      show (do
        let speaker ← speakerOfTree? d
        return ConsoleLine.value speaker (← Value.ofTree? (.node r span' fields))) = _
      rw [speakerOfTree?_of_words hws, hv]
      rfl
    · refine ⟨.value none v, ?_⟩
      show (do return ConsoleLine.value none (← Value.ofTree? (.node r span' fields))) = _
      rw [hv]
      rfl
  · obtain ⟨r, span', fields, rfl⟩ := node_of_event he
    refine ⟨.event e, ?_⟩
    show (do return ConsoleLine.event (← Event.ofTree? (.node r span' fields))) = _
    rw [he]
    rfl
  · have hformed : ∀ t ∈ us.map Yield.tree, ∃ s, Sentence.ofTree? t = some s := by
      intro t ht
      obtain ⟨u, hu, rfl⟩ := List.mem_map.mp ht
      obtain ⟨t, hformed, rfl⟩ := hus u hu
      exact hformed
    have hnone : us.flatMap Yield.fields = [] := by
      refine fields_of_repeated fun u hu => ?_
      obtain ⟨t, -, rfl⟩ := hus u hu
      rfl
    obtain ⟨ss, hss⟩ := mapM_isSome hformed
    refine ⟨.sentences ss, ?_⟩
    rw [ruleTree_of_fields rfl]
    simp only [Yield.append, Yield.repeated, Yield.none, hnone]
    show (do return ConsoleLine.sentences (← (us.map Yield.tree).mapM Sentence.ofTree?)) = _
    rw [hss]
    rfl

/-- Whatever the body of a rule gives, the program knows what to do with the tree of the rule. -/
theorem formed_of_body {r : Rule} (h : r.body.Gives Rule.Formed y) : r.Formed (y.ruleTree r span) := by
  cases r with
  | be | article | firstPerson | firstPersonPossessive | secondPerson | secondPersonReflexive
  | secondPersonPossessive | thirdPersonPossessive | negativeAdjective | neutralAdjective | positiveAdjective =>
    exact isWord_of_entry rfl (by decide) (by decide) h
  | negativeNoun | neutralNoun | positiveNoun => exact words_of_entry rfl (by decide) (by decide) h
  | character => exact words_of_entry rfl (List.cons_ne_nil _ _) (by decide +kernel) h
  | firstPersonReflexive =>
    rw [gives_word h]
    exact ⟨_, rfl⟩
  | textBeforePunctuation =>
    obtain ⟨text, rfl⟩ := h
    exact ⟨text, rfl⟩
  | romanNumeral =>
    obtain ⟨_, ⟨text, rfl⟩, rfl⟩ := h
    exact ⟨span, text, rfl⟩
  | letUs | proceedTo => trivial
  | possessive | positiveOrNeutralAdjective | positiveOrNeutralNoun | nounPhrase | value | expression | event =>
    exact formed_of_choice rfl (by simp) rfl h
  | positiveComparative =>
    exact formed_comparative .positiveAdjective .greater rfl (fun h => by simp [Comparison.ofTree?, h])
      (fun h => h) h
  | negativeComparative =>
    exact formed_comparative .negativeAdjective .less rfl (fun h => by simp [Comparison.ofTree?, h]) (fun h => h) h
  | neutralComparative => exact formed_neutralComparative h
  | nothing => exact formed_nothing h
  | firstPersonValue => exact formed_firstPersonValue h
  | secondPersonValue => exact formed_secondPersonValue h
  | characterName => exact formed_characterName h
  | negativeNounPhrase => exact formed_negativeNounPhrase h
  | positiveNounPhrase => exact formed_positiveNounPhrase h
  | binaryOperation => exact formed_binaryOperation h
  | binaryExpression => exact formed_binaryExpression h
  | unaryOperation => exact formed_unaryOperation h
  | unaryExpression => exact formed_unaryExpression h
  | negativeIf => exact ⟨.ifNot, rfl⟩
  | positiveIf => exact ⟨.ifSo, rfl⟩
  | question => exact formed_question h
  | assignment => exact formed_assignment h
  | goto => exact formed_goto h
  | output => exact formed_output h
  | input => exact formed_input h
  | push => exact formed_push h
  | pop => exact formed_pop h
  | sentence => exact formed_sentence h
  | lineContents => exact formed_lineContents h
  | line => exact formed_line h
  | characterList => exact formed_characterList h
  | breakpoint => exact ⟨.breakpoint span, rfl⟩
  | entrance => exact formed_entrance h
  | exit => exact formed_exit h
  | exeunt => exact formed_exeunt h
  | replInput => exact formed_replInput h
  | scene => exact formed_scene h
  | act => exact formed_act h
  | dramatisPersona => exact formed_dramatisPersona h
  | dramatisPersonae => exact formed_dramatisPersonae h
  | play => exact formed_play h

end Rules

/-- Every tree that is read by a rule, wherever in a text and however deep among other rules, has the form of the
rule. -/
theorem formed_of_read {lx : Lexis} {depth : Nat} {stack : List Rule} {r : Rule} {c c' : Cursor}
    {seen seen' : Option Failure} {t : Tree} (h : r.read lx depth stack c seen = .done t c' seen') : r.Formed t :=
  tree_of_read (R := Rule.Formed) (fun h => formed_of_body h) depth h

end Playhouse.Grammar
