import Playhouse.Performance.Run
import Playhouse.Proofs.Casing
import Playhouse.Proofs.Layout
import Playhouse.Proofs.Remembering

/-!
# Playhouse.Proofs.SmallLetters — plays in small letters

What a play keeps as it is written are its title, the names and numerals of acts and scenes, what is recalled, and
the numerals that jumps go to. `Play.small` puts these in small letters, and `Script.small` does so in a layout.
Plays of texts that differ in case only are the same in small letters (`small_eq_of_readAs`), are laid out alike
(`small_ofActs`), and show the same excerpts but for case (`showSpan_toLower`).
-/

namespace Playhouse

open Grammar

/-! ### Words -/

theorem toLower_toLower : CaseBlind Char.toLower := caseBlind_of_ascii (by decide +kernel)

theorem smallWord_smallWord (w : String) : smallWord (smallWord w) = smallWord w := by
  unfold smallWord
  rw [String.toList_ofList, List.map_map, show Char.toLower ∘ Char.toLower =
    Char.toLower from funext toLower_toLower]

theorem smallWord_append (a b : String) : smallWord (a ++ b) = smallWord a ++ smallWord b := by
  unfold smallWord
  rw [String.toList_append, List.map_append, String.ofList_append]

/-! ### Plays -/

/-- The action with what it keeps in small letters. -/
def Action.small {ε : Type} : Action ε → Action ε
  | pop recalled => pop (smallWord recalled)
  | goto target numeral => goto target (smallWord numeral)
  | a => a

/-- The sentence with what it keeps in small letters. -/
def Sentence.small (s : Sentence) : Sentence := { s with action := s.action.small }

/-- The event with what it keeps in small letters. -/
def Event.small : Event → Event
  | line span speaker sentences => line span speaker (sentences.map Sentence.small)
  | e => e

/-- The numeral in small letters. -/
def Numbering.small (n : Numbering) : Numbering := { n with text := smallWord n.text }

/-- The scene with what it keeps in small letters. -/
def Scene.small (s : Scene) : Scene := ⟨s.number.small, smallWord s.name, s.events.map Event.small⟩

/-- The act with what it keeps in small letters. -/
def Act.small (a : Act) : Act := ⟨a.number.small, smallWord a.name, a.scenes.map Scene.small⟩

/-- The play with what it keeps in small letters. -/
def Play.small (p : Play) : Play := ⟨smallWord p.title, p.personae, p.acts.map Act.small⟩

/-! ### From trees to plays -/

namespace Grammar

theorem node_of_small {t : Tree} {b : Bool} {r : Rule} {span : Span} {fields : List (Field × Tree)}
    (h : t.small b = .node r span fields) : ∃ fields', t = .node r span fields' := by
  cases t with
  | node r' span' fields' =>
    rw [small_node] at h
    cases h
    exact ⟨fields', rfl⟩
  | absent => cases h
  | word w => cases h
  | list ts => cases (small_list b ts).symm.trans h

/-- A tree in small letters is not of a rule that the tree is not of. -/
theorem not_node_small {t : Tree} {r : Rule} (h : ∀ span fields, t = .node r span fields → False) (b : Bool) :
    ∀ span fields, t.small b = .node r span fields → False := by
  intro span fields heq
  obtain ⟨fields', ht⟩ := node_of_small heq
  exact h span fields' ht

theorem word?_small (b : Bool) (t : Tree) : (t.small b).word?.map smallWord = t.word?.map smallWord := by
  cases t with
  | word w =>
    cases b with
    | false => rfl
    | true => exact congrArg some (smallWord_smallWord w)
  | absent => rfl
  | list ts => rw [small_list]; rfl
  | node r span fields => rw [small_node]; rfl

theorem word?_small_false (t : Tree) : (t.small false).word? = t.word? := by
  cases t with
  | word w => rfl
  | absent => rfl
  | list ts => rw [small_list]; rfl
  | node r span fields => rw [small_node]; rfl

theorem members?_small (b : Bool) (t : Tree) :
    (t.small b).members? = t.members?.map (List.map (Tree.small b)) := by
  cases t with
  | word w => rfl
  | absent => rfl
  | list ts => rw [small_list]; rfl
  | node r span fields => rw [small_node]; rfl

theorem words?_small (t : Tree) : (t.small false).words? = t.words? := by
  cases t with
  | word w => rfl
  | absent => rfl
  | list ts =>
    rw [small_list]
    show (ts.map (Tree.small false)).mapM Tree.word? = ts.mapM Tree.word?
    rw [List.mapM_map]
    exact congrArg ts.mapM (funext word?_small_false)
  | node r span fields => rw [small_node]; rfl

end Grammar

section Alike

variable {α β γ δ : Type} {u : γ → δ}

/-- What is made of the same is alike, if it is so for each. -/
theorem map_bind_of_forall (o : Option α) {k k' : α → Option γ} (h : ∀ a, (k a).map u = (k' a).map u) :
    (o >>= k).map u = (o >>= k').map u := by
  cases o with
  | none => rfl
  | some a => exact h a

/-- What is made of things that are alike is alike, if that is all that matters. -/
theorem map_bind_of_alike {s : α → β} {o o' : Option α} {k k' : α → Option γ} (ho : o.map s = o'.map s)
    (hk : ∀ a a', s a = s a' → (k a).map u = (k' a').map u) : (o >>= k).map u = (o' >>= k').map u := by
  cases o with
  | none =>
    cases o' with
    | none => rfl
    | some a' => cases ho
  | some a =>
    cases o' with
    | none => cases ho
    | some a' => exact hk a a' (Option.some.inj ho)

/-- A field is the field in small letters. -/
theorem map_bind_lookup {r : Rule} {f : Field} {fields : List (Field × Tree)} {k k' : Tree → Option γ}
    (h : ∀ t, (k (t.small (r.capturesIn f))).map u = (k' t).map u) :
    ((fields.map (smallField r)).lookup f >>= k).map u = (fields.lookup f >>= k').map u := by
  rw [lookup_smallField]
  cases fields.lookup f with
  | none => rfl
  | some t => exact h t

theorem map_bind_field {b : Bool} {f : Field} {t : Tree} {k k' : Tree → Option γ}
    (h : ∀ b t, (k (t.small b)).map u = (k' t).map u) :
    ((t.small b).field? f >>= k).map u = (t.field? f >>= k').map u := by
  cases t with
  | node r span fields =>
    rw [small_node]
    exact map_bind_lookup (h _)
  | absent => rfl
  | word w => rfl
  | list ts => rw [small_list]; rfl

/-- What is made of the members of a list in small letters is alike, if each of them is described alike. -/
theorem map_bind_members {g : Tree → Option α} {s : α → β} {b : Bool} {t : Tree} {k k' : List α → Option γ}
    (hg : ∀ b t, (g (t.small b)).map s = (g t).map s)
    (hk : ∀ xs ys, xs.map s = ys.map s → (k xs).map u = (k' ys).map u) :
    ((t.small b).members? >>= fun ts => ts.mapM g >>= k).map u =
      (t.members? >>= fun ts => ts.mapM g >>= k').map u := by
  have hmembers : ∀ ts : List Tree, ((ts.map (Tree.small b)).mapM g).map (List.map s) =
      (ts.mapM g).map (List.map s) := by
    intro ts
    induction ts with
    | nil => rfl
    | cons t ts ih =>
      rw [List.map_cons, List.mapM_cons, List.mapM_cons]
      refine map_bind_of_alike (hg b t) fun x y hxy => map_bind_of_alike ih fun xs ys hxys => ?_
      exact congrArg some (List.cons_eq_cons.mpr ⟨hxy, hxys⟩)
  rw [members?_small]
  cases t.members? with
  | none => rfl
  | some ts =>
    show ((ts.map (Tree.small b)).mapM g >>= k).map u = (ts.mapM g >>= k').map u
    exact map_bind_of_alike (hmembers ts) hk

end Alike

theorem Value.nounPhraseOf?_small {r : Rule} (hr : ∀ f, r.capturesIn f = false) (span : Span) (sign : Polarity)
    (fields : List (Field × Tree)) :
    Value.nounPhraseOf? span sign (fields.map (smallField r)) = Value.nounPhraseOf? span sign fields := by
  unfold Value.nounPhraseOf?
  simp only [lookup_smallField, hr, Option.bind_eq_bind, Option.bind_map, Function.comp_def, members?_small,
    List.mapM_map, words?_small]

theorem Value.ofTree?_unaryNode (span : Span) (fields : List (Field × Tree)) :
    Value.ofTree? (.node .unaryExpression span fields) = (fields.lookup .value).bind fun x => do
      let op ← unaryOperator? (← (← fields.lookup .operation).words?)
      return unary span op (← ofTree? x) := by
  rw [Value.ofTree?]
  split
  · next hx => rw [hx]; rfl
  · next x hx => rw [hx]; rfl

theorem Value.ofTree?_binaryNode (span : Span) (fields : List (Field × Tree)) :
    Value.ofTree? (.node .binaryExpression span fields) = (fields.lookup .firstValue).bind fun x =>
      (fields.lookup .secondValue).bind fun y => do
        let op ← binaryOperator? (← (← fields.lookup .operation).words?)
        let first ← ofTree? x
        return binary span op first (← ofTree? y) := by
  rw [Value.ofTree?]
  split
  · next x y hx hy => rw [hx, hy]; rfl
  · next hxy =>
    cases hx : fields.lookup .firstValue with
    | none => rfl
    | some x =>
      cases hy : fields.lookup .secondValue with
      | none => rfl
      | some y => exact (hxy x y hx hy).elim

/-- Values are written in words of the grammar only. -/
theorem Value.ofTree?_small (t : Tree) : ∀ b, Value.ofTree? (t.small b) = Value.ofTree? t := by
  induction t using Value.ofTree?.induct with
  | case1 span fields | case2 span fields | case3 span fields | case6 span fields =>
    intro b
    rw [small_node]
    unfold Value.ofTree?
    simp only [lookup_smallField, Rule.capturesIn, Option.bind_eq_bind, Option.bind_map, Function.comp_def,
      word?_small_false, words?_small]
  | case4 span fields | case5 span fields =>
    intro b
    rw [small_node]
    unfold Value.ofTree?
    exact Value.nounPhraseOf?_small (fun _ => rfl) span _ fields
  | case7 span fields hx =>
    intro b
    rw [small_node, ofTree?_unaryNode, ofTree?_unaryNode, lookup_smallField, hx]
    rfl
  | case8 span fields x hx ih =>
    intro b
    rw [small_node, ofTree?_unaryNode, ofTree?_unaryNode, lookup_smallField, hx]
    simp only [lookup_smallField, Rule.capturesIn, Option.map_some, Option.bind_eq_bind, Option.bind_some,
      Option.bind_map, Function.comp_def, words?_small, ih]
  | case9 span fields x y hx hy ihx ihy =>
    intro b
    rw [small_node, ofTree?_binaryNode, ofTree?_binaryNode, lookup_smallField, lookup_smallField, hx, hy]
    simp only [lookup_smallField, Rule.capturesIn, Option.map_some, Option.bind_eq_bind, Option.bind_some,
      Option.bind_map, Function.comp_def, words?_small, ihx, ihy]
  | case10 span fields hxy =>
    intro b
    rw [small_node, ofTree?_binaryNode, ofTree?_binaryNode, lookup_smallField, lookup_smallField]
    cases hx : fields.lookup .firstValue with
    | none => rfl
    | some x =>
      cases hy : fields.lookup .secondValue with
      | none => rfl
      | some y => exact (hxy x y hx hy).elim
  | case11 t h1 h2 h3 h4 h5 h6 h7 h8 =>
    intro b
    rw [Value.ofTree?.eq_9 t h1 h2 h3 h4 h5 h6 h7 h8, Value.ofTree?.eq_9 (t.small b) (not_node_small h1 b)
      (not_node_small h2 b) (not_node_small h3 b) (not_node_small h4 b) (not_node_small h5 b) (not_node_small h6 b)
      (not_node_small h7 b) (not_node_small h8 b)]

theorem Condition.ofTree?_small (b : Bool) (t : Tree) : Condition.ofTree? (t.small b) = Condition.ofTree? t := by
  cases t with
  | node r span fields => rw [small_node]; cases r <;> rfl
  | absent => rfl
  | word w => rfl
  | list ts => rw [small_list]; rfl

theorem Comparison.ofTree?_small (b : Bool) (t : Tree) :
    Comparison.ofTree? (t.small b) = Comparison.ofTree? t := by
  fun_cases Comparison.ofTree? t with
  | case1 span fields | case2 span fields | case3 span fields =>
    rw [small_node]
    simp only [Comparison.ofTree?, lookup_smallField, Rule.capturesIn, Option.bind_eq_bind, Option.bind_map,
      Function.comp_def, words?_small]
  | case4 _ h1 h2 h3 =>
    exact Comparison.ofTree?.eq_4 _ (not_node_small h1 b) (not_node_small h2 b) (not_node_small h3 b)

/-- A field was read if a list is in it. -/
theorem Medium.ofFields?_eq (fields : List (Field × Tree)) (f g : Field) :
    Medium.ofFields? fields f g = if ((fields.lookup f).bind Tree.members?).isSome then some .number
      else if ((fields.lookup g).bind Tree.members?).isSome then some .character else none := by
  unfold Medium.ofFields?
  rcases fields.lookup f with _ | (_ | _ | _ | _) <;> rcases fields.lookup g with _ | (_ | _ | _ | _) <;> rfl

theorem Medium.ofFields?_small {r : Rule} (fields : List (Field × Tree)) (f g : Field) :
    Medium.ofFields? (fields.map (smallField r)) f g = Medium.ofFields? fields f g := by
  have hread : ∀ h, (((fields.map (smallField r)).lookup h).bind Tree.members?).isSome =
      ((fields.lookup h).bind Tree.members?).isSome := by
    intro h
    rw [lookup_smallField]
    cases fields.lookup h with
    | none => rfl
    | some t => simp only [Option.map_some, Option.bind_some, members?_small, Option.isSome_map]
  rw [ofFields?_eq, ofFields?_eq, hread, hread]

theorem Action.ofTree?_small (b : Bool) (t : Tree) :
    (Action.ofTree? (t.small b)).map Action.small = (Action.ofTree? t).map Action.small := by
  fun_cases Action.ofTree? t with
  | case1 span fields =>
    rw [small_node]
    simp only [Action.ofTree?, lookup_smallField, Rule.capturesIn, Option.bind_eq_bind, Option.bind_map,
      Function.comp_def, Comparison.ofTree?_small, Value.ofTree?_small]
  | case2 span fields | case5 span fields =>
    rw [small_node]
    simp only [Action.ofTree?, lookup_smallField, Option.bind_eq_bind, Option.bind_map, Function.comp_def,
      Value.ofTree?_small]
  | case3 span fields | case4 span fields =>
    rw [small_node]
    simp only [Action.ofTree?, Medium.ofFields?_small]
  | case6 span fields =>
    rw [small_node]
    refine map_bind_lookup fun t => map_bind_of_alike (word?_small _ t) fun w w' hw => ?_
    exact congrArg (some ∘ Action.pop) hw
  | case7 span fields =>
    rw [small_node]
    refine map_bind_lookup fun t => ?_
    rw [show (t.small (Rule.goto.capturesIn .target)).word? = t.word? from word?_small_false t]
    refine map_bind_of_forall _ fun w => map_bind_of_forall _ fun target => map_bind_lookup fun d => ?_
    refine map_bind_field fun b n => map_bind_of_alike (word?_small b n) fun w w' hw => ?_
    exact congrArg (some ∘ Action.goto target) hw
  | case8 _ h1 h2 h3 h4 h5 h6 h7 =>
    rw [Action.ofTree?.eq_8 _ (not_node_small h1 b) (not_node_small h2 b) (not_node_small h3 b)
      (not_node_small h4 b) (not_node_small h5 b) (not_node_small h6 b) (not_node_small h7 b)]

theorem Sentence.ofTree?_small (b : Bool) (t : Tree) :
    (Sentence.ofTree? (t.small b)).map Sentence.small = (Sentence.ofTree? t).map Sentence.small := by
  fun_cases Sentence.ofTree? t with
  | case1 span fields =>
    rw [small_node]
    refine map_bind_lookup fun t => ?_
    rw [Condition.ofTree?_small]
    refine map_bind_of_forall _ fun condition => map_bind_lookup fun t => ?_
    refine map_bind_of_alike (Action.ofTree?_small _ t) fun a a' ha => ?_
    exact congrArg (fun a => some (Sentence.mk span condition a)) ha
  | case2 _ h => rw [Sentence.ofTree?.eq_2 _ (not_node_small h b)]

theorem namesOfTree?_small (t : Tree) : namesOfTree? (t.small false) = namesOfTree? t := by
  unfold namesOfTree?
  rw [members?_small]
  cases t.members? with
  | none => rfl
  | some ts =>
    show (ts.map (Tree.small false)).mapM Tree.words? = ts.mapM Tree.words?
    rw [List.mapM_map]
    exact congrArg ts.mapM (funext words?_small)

theorem Event.ofTree?_small (b : Bool) (t : Tree) :
    (Event.ofTree? (t.small b)).map Event.small = (Event.ofTree? t).map Event.small := by
  fun_cases Event.ofTree? t with
  | case1 span fields =>
    rw [small_node]
    refine map_bind_lookup fun t => ?_
    rw [show (t.small (Rule.line.capturesIn .character)).words? = t.words? from words?_small t]
    refine map_bind_of_forall _ fun speaker => map_bind_lookup fun t => ?_
    refine map_bind_members Sentence.ofTree?_small fun ss ss' hss => ?_
    exact congrArg (fun ss => some (Event.line span speaker ss)) hss
  | case2 span fields => rw [small_node]; rfl
  | case3 span fields =>
    rw [small_node]
    refine map_bind_lookup fun t => ?_
    rw [show namesOfTree? (t.small (Rule.entrance.capturesIn .characters)) = _ from namesOfTree?_small t]
  | case4 span fields =>
    rw [small_node]
    refine map_bind_lookup fun t => ?_
    rw [show (t.small (Rule.exit.capturesIn .character)).words? = t.words? from words?_small t]
  | case5 span fields =>
    rw [small_node]
    refine map_bind_lookup fun t => ?_
    have hnames : namesOfTree? (t.small (Rule.exeunt.capturesIn .characters)) = namesOfTree? t :=
      namesOfTree?_small t
    cases t with
    | absent => rfl
    | word w => rfl
    | list ts =>
      rw [small_list] at hnames ⊢
      simp only [hnames]
    | node r span fields =>
      rw [small_node] at hnames ⊢
      simp only [hnames]
  | case6 _ h1 h2 h3 h4 h5 =>
    rw [Event.ofTree?.eq_6 _ (not_node_small h1 b) (not_node_small h2 b) (not_node_small h3 b)
      (not_node_small h4 b) (not_node_small h5 b)]

theorem Numbering.ofTree?_small (b : Bool) (t : Tree) :
    (Numbering.ofTree? (t.small b)).map Numbering.small = (Numbering.ofTree? t).map Numbering.small := by
  fun_cases Numbering.ofTree? t with
  | case1 span fields =>
    rw [small_node]
    refine map_bind_lookup fun t => map_bind_of_alike (word?_small _ t) fun w w' hw => ?_
    exact congrArg (fun w => some (Numbering.mk span w)) hw
  | case2 _ h => rw [Numbering.ofTree?.eq_2 _ (not_node_small h b)]

theorem Persona.ofTree?_small (b : Bool) (t : Tree) : Persona.ofTree? (t.small b) = Persona.ofTree? t := by
  fun_cases Persona.ofTree? t with
  | case1 span fields =>
    rw [small_node]
    simp only [Persona.ofTree?, lookup_smallField, Rule.capturesIn, Option.bind_eq_bind, Option.bind_map,
      Function.comp_def, words?_small]
  | case2 _ h => exact Persona.ofTree?.eq_2 _ (not_node_small h b)

theorem Scene.ofTree?_small (b : Bool) (t : Tree) :
    (Scene.ofTree? (t.small b)).map Scene.small = (Scene.ofTree? t).map Scene.small := by
  fun_cases Scene.ofTree? t with
  | case1 span fields =>
    rw [small_node]
    refine map_bind_lookup fun t => map_bind_of_alike (Numbering.ofTree?_small _ t) fun n n' hn => ?_
    refine map_bind_lookup fun t => map_bind_of_alike (word?_small _ t) fun w w' hw => ?_
    refine map_bind_lookup fun t => map_bind_members Event.ofTree?_small fun es es' hes => ?_
    exact congrArg some (Scene.mk.injEq .. ▸ ⟨hn, hw, hes⟩)
  | case2 _ h => rw [Scene.ofTree?.eq_2 _ (not_node_small h b)]

theorem Act.ofTree?_small (b : Bool) (t : Tree) :
    (Act.ofTree? (t.small b)).map Act.small = (Act.ofTree? t).map Act.small := by
  fun_cases Act.ofTree? t with
  | case1 span fields =>
    rw [small_node]
    refine map_bind_lookup fun t => map_bind_of_alike (Numbering.ofTree?_small _ t) fun n n' hn => ?_
    refine map_bind_lookup fun t => map_bind_of_alike (word?_small _ t) fun w w' hw => ?_
    refine map_bind_lookup fun t => map_bind_members Scene.ofTree?_small fun ss ss' hss => ?_
    exact congrArg some (Act.mk.injEq .. ▸ ⟨hn, hw, hss⟩)
  | case2 _ h => rw [Act.ofTree?.eq_2 _ (not_node_small h b)]

/-- A tree in small letters describes the play in small letters. -/
theorem Play.ofTree?_small (b : Bool) (t : Tree) :
    (Play.ofTree? (t.small b)).map Play.small = (Play.ofTree? t).map Play.small := by
  fun_cases Play.ofTree? t with
  | case1 span fields =>
    rw [small_node]
    refine map_bind_lookup fun t => map_bind_of_alike (word?_small _ t) fun w w' hw => ?_
    refine map_bind_lookup fun t => ?_
    refine map_bind_members (s := id) (fun b t => congrArg _ (Persona.ofTree?_small b t)) fun ps ps' hps => ?_
    rw [List.map_id, List.map_id] at hps
    refine map_bind_lookup fun t => map_bind_members Act.ofTree?_small fun as as' has => ?_
    exact congrArg some (Play.mk.injEq .. ▸ ⟨hw, hps, has⟩)
  | case2 _ h => rw [Play.ofTree?.eq_2 _ (not_node_small h b)]

/-! ### Reading -/

/-- The cause with the numerals it names in small letters. -/
def Cause.small : Cause → Cause
  | noSuchAct numeral => noSuchAct (smallWord numeral)
  | noSuchScene numeral => noSuchScene (smallWord numeral)
  | repeatedAct numeral => repeatedAct (smallWord numeral)
  | repeatedScene numeral act => repeatedScene (smallWord numeral) (smallWord act)
  | cause => cause

/-- The report, with the source and the numerals it shows in small letters. -/
def Report.small : Report → Report
  | unreadable source e => unreadable (source.map Char.toLower) e
  | error cause place stage => error cause.small (place.map fun x => (x.1.map Char.toLower, x.2)) stage
  | breakdown b => breakdown b

/-- Both texts are plays that are the same in small letters, or the same is told of both. -/
theorem readAs_play_small {text text' : List Char} (h : SameButCase text text') :
    ((readAs .play Play.ofTree? text).map Play.small).mapError Report.small =
      ((readAs .play Play.ofTree? text').map Play.small).mapError Report.small := by
  have hread := sameButCase_start .play h
  unfold readAs parse readRule
  generalize Rule.read .usual (callDepth text) [] .play (Cursor.start text) none = x at hread ⊢
  generalize Rule.read .usual (callDepth text') [] .play (Cursor.start text') none = y at hread ⊢
  cases hread with
  | failed e seen => exact congrArg (fun source => Except.error (Report.unreadable source (furthest seen e))) h
  | @done t u c d seen htrees hc =>
    have hplay : (Play.ofTree? t).map Play.small = (Play.ofTree? u).map Play.small := by
      rw [← Play.ofTree?_small true t, htrees true fun _ => rfl, Play.ofTree?_small]
    simp only [Except.map]
    cases ht : Play.ofTree? t with
    | none =>
      rw [ht, Option.map_none, eq_comm, Option.map_eq_none_iff] at hplay
      rw [hplay]
    | some play =>
      rw [ht, Option.map_some, eq_comm, Option.map_eq_some_iff] at hplay
      obtain ⟨play', hu, hsmall⟩ := hplay
      rw [hu]
      exact congrArg Except.ok hsmall.symm

/-! ### Layouts -/

/-- The deed with what it keeps in small letters. -/
def Deed.small : Deed → Deed
  | speak speaker condition a => speak speaker condition a.small
  | d => d

/-- The operation with what it keeps in small letters. -/
def Operation.small (op : Operation) : Operation := ⟨op.span, op.deed.small⟩

/-- The entry with its numerals in small letters. -/
def ActEntry.small (a : ActEntry) : ActEntry :=
  ⟨smallWord a.numeral, a.position, a.scenes.map fun x => (smallWord x.1, x.2)⟩

/-- The script, its source and what it keeps of it in small letters. -/
def Script.small (s : Script) : Script :=
  ⟨s.source.map Char.toLower, s.operations.map Operation.small, s.acts.map ActEntry.small⟩

theorem Action.small_map {ε δ : Type} (f : ε → δ) (a : Action ε) : (a.map f).small = a.small.map f := by
  cases a <;> rfl

theorem ofSentence_small (speaker : String) (s : Sentence) :
    Operation.ofSentence speaker s.small = (Operation.ofSentence speaker s).small := by
  unfold Operation.ofSentence Operation.small Sentence.small
  rw [Deed.small, Action.small_map]

theorem ofEvent_small (e : Event) : Operation.ofEvent e.small = (Operation.ofEvent e).map Operation.small := by
  cases e with
  | line span speaker sentences =>
    show (sentences.map Sentence.small).map _ = (sentences.map _).map _
    rw [List.map_map, List.map_map]
    exact List.map_congr_left fun s _ => ofSentence_small _ s
  | exeunt span names => cases names <;> rfl
  | breakpoint span => rfl
  | entrance span names => rfl
  | exit span name => rfl

theorem Scene.operations_small (s : Scene) : s.small.operations = s.operations.map Operation.small := by
  unfold Scene.operations Scene.small
  rw [List.flatMap_map, List.map_flatMap]
  exact congrArg (List.flatMap · s.events) (funext ofEvent_small)

theorem Act.operations_small (a : Act) : a.small.operations = a.operations.map Operation.small := by
  unfold Act.operations Act.small
  rw [List.flatMap_map, List.map_flatMap]
  exact congrArg (List.flatMap · a.scenes) (funext Scene.operations_small)

theorem Script.sceneEntries_small (ss : List Scene) :
    ∀ n, sceneEntries n (ss.map Scene.small) = (sceneEntries n ss).map fun x => (smallWord x.1, x.2) := by
  induction ss with
  | nil => exact fun n => rfl
  | cons s ss ih =>
    intro n
    rw [List.map_cons, sceneEntries, sceneEntries, ih, List.map_cons, Scene.operations_small, List.length_map]
    rfl

theorem Script.actEntries_small (as : List Act) :
    ∀ n, actEntries n (as.map Act.small) = (actEntries n as).map ActEntry.small := by
  induction as with
  | nil => exact fun n => rfl
  | cons a as ih =>
    intro n
    rw [List.map_cons, actEntries, actEntries, ih, List.map_cons, Act.operations_small, List.length_map,
      show a.small.scenes = a.scenes.map Scene.small from rfl, sceneEntries_small]
    rfl

/-- A play in small letters is laid out as the play, in small letters. -/
theorem Script.small_ofActs (source : List Char) (as : List Act) :
    (ofActs source as).small = ofActs (source.map Char.toLower) (as.map Act.small) := by
  unfold ofActs Script.small
  rw [actEntries_small, List.flatMap_map, List.map_flatMap]
  congr 1
  exact congrArg (List.flatMap · as) (funext fun a => (Act.operations_small a).symm)

/-! ### Excerpts -/

namespace Source

open Text

theorem caseBlind_isLineBreak : CaseBlind isLineBreak := caseBlind_of_ascii (by decide +kernel)

/-- A break is a break in either case. -/
theorem toLower_eq_iff {c d : Char} (hd : d = '\r' ∨ d = '\n') : c.toLower = d ↔ c = d := by
  have hblind : CaseBlind fun c => (c == '\r', c == '\n') := caseBlind_of_ascii (by decide +kernel)
  obtain ⟨hr, hn⟩ := Prod.mk.inj (hblind c)
  rcases hd with rfl | rfl
  · rw [← beq_iff_eq, hr, beq_iff_eq]
  · rw [← beq_iff_eq, hn, beq_iff_eq]

theorem lines_cons {c : Char} {cs : List Char} (h : ∀ ds, c = '\r' → cs = '\n' :: ds → False) :
    lines (c :: cs) = if isLineBreak c then [c] :: lines cs
      else match lines cs with
        | [] => [[c]]
        | l :: ls => (c :: l) :: ls := by
  rw [lines.eq_def]
  split
  · next heq => cases heq
  · next heq =>
    cases heq
    exact (h _ rfl rfl).elim
  · next heq =>
    cases heq
    rfl

theorem no_break_toLower {c : Char} {cs : List Char} (h : ∀ ds, c = '\r' → cs = '\n' :: ds → False) :
    ∀ ds, c.toLower = '\r' → cs.map Char.toLower = '\n' :: ds → False := by
  intro ds hc hds
  cases cs with
  | nil => cases hds
  | cons d ds' =>
    have hd : d = '\n' := (toLower_eq_iff (.inr rfl)).mp (List.cons.inj hds).1
    exact h ds' ((toLower_eq_iff (.inl rfl)).mp hc) (by rw [hd])

theorem lines_toLower (cs : List Char) : lines (cs.map Char.toLower) = (lines cs).map (List.map Char.toLower) := by
  fun_induction lines cs with
  | case1 => rfl
  | case2 cs ih => exact congrArg (['\r', '\n'] :: ·) ih
  | case3 c cs hno hbreak ih =>
    rw [List.map_cons, lines_cons (no_break_toLower hno), if_pos (by rw [caseBlind_isLineBreak, hbreak]), ih]
    rfl
  | case4 c cs hno hbreak hnil ih =>
    rw [List.map_cons, lines_cons (no_break_toLower hno), if_neg (by rw [caseBlind_isLineBreak]; exact hbreak), ih,
      hnil]
    rfl
  | case5 c cs hno hbreak l ls hcons ih =>
    rw [List.map_cons, lines_cons (no_break_toLower hno), if_neg (by rw [caseBlind_isLineBreak]; exact hbreak), ih,
      hcons]
    rfl

theorem placeIn_map (f : Char → Char) (ls : List (List Char)) :
    ∀ n pos, placeIn n (ls.map (List.map f)) pos = placeIn n ls pos := by
  induction ls with
  | nil => exact fun n pos => rfl
  | cons l ls ih =>
    intro n pos
    rw [List.map_cons, placeIn, placeIn, List.length_map, ih]

theorem endLine_toLower (text : List Char) : endLine (text.map Char.toLower) = endLine text := by
  unfold endLine
  rw [List.isEmpty_map, lines_toLower, List.length_map, List.getLast?_map]
  cases text.getLast? with
  | none => rfl
  | some c =>
    by_cases hn : c = '\n'
    · subst hn
      rfl
    · by_cases hr : c = '\r'
      · subst hr
        rfl
      · have hn' : c.toLower ≠ '\n' := fun h => hn ((toLower_eq_iff (.inr rfl)).mp h)
        have hr' : c.toLower ≠ '\r' := fun h => hr ((toLower_eq_iff (.inl rfl)).mp h)
        simp [hn, hr, hn', hr']

theorem place?_toLower (text : List Char) (pos : Nat) : place? (text.map Char.toLower) pos = place? text pos := by
  unfold place?
  rw [List.length_map, endLine_toLower, lines_toLower, placeIn_map]

theorem lineOf_toLower (text : List Char) (pos : Nat) : lineOf (text.map Char.toLower) pos = lineOf text pos := by
  unfold lineOf
  rw [place?_toLower]

theorem placeOf_toLower (text : List Char) (pos : Nat) :
    placeOf (text.map Char.toLower) pos = placeOf text pos := by
  unfold placeOf
  rw [place?_toLower]

theorem slice_map {α β : Type} (f : α → β) (xs : List α) (lo hi : Int) :
    slice (xs.map f) lo hi = (slice xs lo hi).map f := by
  unfold slice
  dsimp only
  rw [List.length_map, ← List.map_drop, ← List.map_take]

theorem insertAt_toLower (cs new : List Char) (i : Int) :
    insertAt (cs.map Char.toLower) (new.map Char.toLower) i = (insertAt cs new i).map Char.toLower := by
  unfold insertAt
  dsimp only
  rw [List.length_map, ← List.map_take, ← List.map_drop, List.map_append, List.map_append]

theorem backOverBlanks_toLower (cs : List Char) (fuel : Nat) :
    ∀ i, backOverBlanks (cs.map Char.toLower) fuel i = backOverBlanks cs fuel i := by
  induction fuel with
  | zero => exact fun i => rfl
  | succ fuel ih =>
    intro i
    rw [backOverBlanks, backOverBlanks, at?_map]
    cases at? cs (i - 1) with
    | none => rfl
    | some c =>
      show (if isBlank c.toLower = true then _ else _) = _
      rw [caseBlind_isBlank c, ih]

theorem insertBeforeBlanks_toLower (cs new : List Char) (i : Int) :
    insertBeforeBlanks (cs.map Char.toLower) (new.map Char.toLower) i =
      (insertBeforeBlanks cs new i).map (List.map Char.toLower) := by
  unfold insertBeforeBlanks
  rw [List.length_map, backOverBlanks_toLower]
  cases backOverBlanks cs (2 * cs.length + 2) i with
  | none => rfl
  | some j => exact congrArg Except.ok (insertAt_toLower cs new j)

theorem endLineFeed_toLower (cs : List Char) :
    endLineFeed (cs.map Char.toLower) = (endLineFeed cs).map Char.toLower := by
  have hlast : (cs.map Char.toLower).getLast? = some '\n' ↔ cs.getLast? = some '\n' := by
    rw [List.getLast?_map]
    cases cs.getLast? with
    | none => simp
    | some c => simp [toLower_eq_iff]
  unfold endLineFeed
  simp only [hlast]
  split
  · rfl
  · rw [List.map_append]
    rfl

theorem linesBefore_toLower (ls : List (List Char)) (line : Nat) (amount : Int) :
    (linesBefore (ls.map (List.map Char.toLower)) line amount).flatten =
      (linesBefore ls line amount).flatten.map Char.toLower := by
  unfold linesBefore
  rw [slice_map, List.map_map, List.map_flatten, List.map_map]
  exact congrArg List.flatten (List.map_congr_left fun l _ => endLineFeed_toLower l)

theorem linesAfter_toLower (ls : List (List Char)) (line : Nat) (amount : Int) :
    (linesAfter (ls.map (List.map Char.toLower)) line amount).flatten =
      (linesAfter ls line amount).flatten.map Char.toLower := by
  unfold linesAfter
  rw [slice_map, List.map_map, List.map_flatten, List.map_map]
  exact congrArg List.flatten (List.map_congr_left fun l _ => endLineFeed_toLower l)

theorem markedLines_toLower (ls : List (List Char)) (p q : Place) :
    markedLines (ls.map (List.map Char.toLower)) p q =
      (markedLines ls p q).map (List.map (List.map Char.toLower)) := by
  unfold markedLines
  rw [slice_map]
  generalize slice ls p.line (q.line + 1) = item
  dsimp only
  rw [List.getLast?_map]
  cases item.getLast? with
  | none => rfl
  | some last =>
    dsimp only [Option.map_some]
    rw [List.length_map, List.length_map]
    generalize (if item.length < q.line + 1 - p.line then last.length else q.column) = column
    have hclose : insertBeforeBlanks (last.map Char.toLower) ['<', '<'] column =
        (insertBeforeBlanks last ['<', '<'] column).map (List.map Char.toLower) :=
      insertBeforeBlanks_toLower last ['<', '<'] column
    rw [hclose]
    cases insertBeforeBlanks last ['<', '<'] column with
    | error b => rfl
    | ok l =>
      have hitem : (item.map (List.map Char.toLower)).dropLast ++ [l.map Char.toLower] =
          (item.dropLast ++ [l]).map (List.map Char.toLower) := by
        rw [List.map_append, List.map_dropLast, List.map_singleton]
      simp only [Except.map, bind, Except.bind, hitem]
      cases item.dropLast ++ [l] with
      | nil => rfl
      | cons first rest =>
        exact congrArg (fun l => Except.ok (l :: _)) (insertAt_toLower first ['>', '>'] p.column)

theorem showSpan_toLower (text : List Char) (span : Span) (amount : Int) :
    showSpan (text.map Char.toLower) span amount = (showSpan text span amount).map (List.map Char.toLower) := by
  unfold showSpan
  rw [placeOf_toLower, placeOf_toLower, lines_toLower]
  cases placeOf text span.start with
  | error b => rfl
  | ok p =>
    cases placeOf text span.stop with
    | error b => rfl
    | ok q =>
      have hitem := markedLines_toLower (lines text) p q
      simp only [bind, Except.bind, hitem]
      cases markedLines (lines text) p q with
      | error b => rfl
      | ok item =>
        simp only [Except.map, linesBefore_toLower, linesAfter_toLower, ← List.map_flatten, ← List.map_append]
        rfl

end Source

end Playhouse
