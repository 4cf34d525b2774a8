import Playhouse.Proofs.ReadEquations

/-!
# Playhouse.Proofs.Yields — what the phrases of a grammar give

`Phrase.Takes` says by recursion over the phrase how a reading that comes to its end went: from where to where, and
with which yield. A property that the bodies of all rules hand on from the rules they call holds of every rule that
is read: `taken_of_read`. Whatever the text was, what comes out are the words that the phrase is made of, captured
texts, and trees of the rules that it calls: `Phrase.Gives`, and `tree_of_read` for properties of trees.
-/

namespace Playhouse.Grammar

/-! ### How a phrase is read -/

/-- Readings one after the other, each from where the one before it ended. -/
inductive Chain (R : Cursor → Yield → Cursor → Prop) : Cursor → List Yield → Cursor → Prop
  | nil (c : Cursor) : Chain R c [] c
  | cons {c c₁ c' : Cursor} {y : Yield} {ys : List Yield} : R c y c₁ → Chain R c₁ ys c' → Chain R c (y :: ys) c'

/-- How reading a phrase can come from one cursor to another, and with which yield, if reading a rule does as `R`
says. Of what was tried in vain nothing is left. -/
def Phrase.Takes (lx : Lexis) (R : Rule → Cursor → Tree → Cursor → Prop) : Phrase → Cursor → Yield → Cursor → Prop
  | empty, c, y, c' => y = .none ∧ c' = c
  | token letters, c, y, c' =>
    beginsWith letters (c.skip lx).rest = true ∧ y = .one (.word (String.ofList letters)) ∧
      c' = (c.skip lx).advance letters.length
  | pattern p, c, y, c' =>
    ∃ n, p.length? c.rest = some n ∧ y = .one (.word (String.ofList (c.rest.take n))) ∧ c' = c.advance n
  | endOfText, c, y, c' => y = .none ∧ c' = c.skip lx
  | call r, c, y, c' => ∃ t, R r c t c' ∧ y = .one t
  | seq p q, c, y, c' => ∃ u v c₁, p.Takes lx R c u c₁ ∧ q.Takes lx R c₁ v c' ∧ y = u.append v
  | alt p q, c, y, c' => p.Takes lx R c y c' ∨ q.Takes lx R c y c'
  | expect _ p, c, y, c' => p.Takes lx R c y c'
  | opt p, c, y, c' => p.Takes lx R c y c' ∨ y = .none ∧ c' = c
  | many p, c, y, c' => ∃ us, Chain (p.Takes lx R) c us c' ∧ y = .repeated us
  | many1 p, c, y, c' =>
    ∃ u us c₁, p.Takes lx R c u c₁ ∧ Chain (p.Takes lx R) c₁ us c' ∧ y = .repeated (u :: us)
  | notAhead _, c, y, c' => y = .none ∧ c' = c
  | label f p, c, y, c' => ∃ u, p.Takes lx R c u c' ∧ y = ⟨u.items, u.fields ++ [(f, u.tree)], u.gathered⟩
  | gather p, c, y, c' => ∃ u, p.Takes lx R c u c' ∧ y = ⟨u.items, u.fields, u.gathered ++ [u.tree]⟩

section Reading

variable {lx : Lexis} {call : List Rule → Rule → Reader Tree} {stack : List Rule}

theorem chain_of_readMany {p : Reader Yield} {R : Cursor → Yield → Cursor → Prop}
    (hp : ∀ {c seen y c' seen'}, p c seen = .done y c' seen' → R c y c') (limit : Nat) :
    ∀ {c seen us c' seen'}, readMany p stack limit c seen = .done us c' seen' → Chain R c us c' := by
  induction limit with
  | zero =>
    intro c seen us c' seen' h
    cases h
    exact .nil c
  | succ limit ih =>
    intro c seen us c' seen' h
    unfold readMany at h
    split at h
    · cases h
      exact .nil c
    · next y c₁ seen₁ hy =>
      split at h
      · cases h
      · split at h
        · next ys c₂ seen₂ hys =>
          cases h
          exact .cons (hp hy) (ih hys)
        · cases h

/-- A phrase that was read was read in one of the ways that there are. -/
theorem takes_of_read {R : Rule → Cursor → Tree → Cursor → Prop}
    (hcall : ∀ {stack r c seen t c' seen'}, call stack r c seen = .done t c' seen' → R r c t c') (p : Phrase) :
    ∀ {c seen y c' seen'}, p.read lx call stack c seen = .done y c' seen' → p.Takes lx R c y c' := by
  induction p with
  | empty =>
    intro c seen y c' seen' h
    cases h
    exact ⟨rfl, rfl⟩
  | token letters =>
    intro c seen y c' seen' h
    rw [read_token] at h
    split at h
    · next hbegins =>
      cases h
      exact ⟨(Bool.and_eq_true_iff.mp hbegins).1, rfl, rfl⟩
    · cases h
  | pattern p =>
    intro c seen y c' seen' h
    rw [read_pattern] at h
    split at h
    · next n hn =>
      cases h
      exact ⟨n, hn, rfl, rfl⟩
    · cases h
  | endOfText =>
    intro c seen y c' seen' h
    rw [read_endOfText] at h
    split at h
    · cases h
      exact ⟨rfl, rfl⟩
    · cases h
  | call r =>
    intro c seen y c' seen' h
    rw [read_call] at h
    obtain ⟨t, c₁, s₁, ht, h⟩ := done_of_andThen h
    cases h
    exact ⟨t, hcall ht, rfl⟩
  | seq p q ihp ihq =>
    intro c seen y c' seen' h
    rw [read_seq] at h
    obtain ⟨u, c₁, s₁, hu, h⟩ := done_of_andThen h
    obtain ⟨v, c₂, s₂, hv, h⟩ := done_of_andThen h
    cases h
    exact ⟨u, v, c₁, ihp hu, ihq hv, rfl⟩
  | alt p q ihp ihq =>
    intro c seen y c' seen' h
    rw [read_alt] at h
    obtain h | ⟨s₁, h⟩ := done_of_orElse h
    · exact .inl (ihp h)
    · exact .inr (ihq h)
  | expect expected p ih =>
    intro c seen y c' seen' h
    rw [read_expect] at h
    obtain h | ⟨s₁, h⟩ := done_of_orElse h
    · exact ih h
    · cases h
  | opt p ih =>
    intro c seen y c' seen' h
    rw [read_opt] at h
    obtain h | ⟨s₁, h⟩ := done_of_orElse h
    · exact .inl (ih h)
    · cases h
      exact .inr ⟨rfl, rfl⟩
  | many p ih =>
    intro c seen y c' seen' h
    rw [read_many] at h
    obtain ⟨us, c₁, s₁, hus, h⟩ := done_of_andThen h
    cases h
    exact ⟨us, chain_of_readMany (R := p.Takes lx R) ih _ hus, rfl⟩
  | many1 p ih =>
    intro c seen y c' seen' h
    rw [read_many1] at h
    obtain ⟨u, c₁, s₁, hu, h⟩ := done_of_andThen h
    obtain ⟨us, c₂, s₂, hus, h⟩ := done_of_andThen h
    cases h
    exact ⟨u, us, c₁, ih hu, chain_of_readMany (R := p.Takes lx R) ih _ hus, rfl⟩
  | notAhead p ih =>
    intro c seen y c' seen' h
    rw [read_notAhead] at h
    split at h
    · cases h
    · cases h
      exact ⟨rfl, rfl⟩
  | label f p ih =>
    intro c seen y c' seen' h
    rw [read_label] at h
    obtain ⟨u, c₁, s₁, hu, h⟩ := done_of_andThen h
    cases h
    exact ⟨u, ih hu, rfl⟩
  | gather p ih =>
    intro c seen y c' seen' h
    rw [read_gather] at h
    obtain ⟨u, c₁, s₁, hu, h⟩ := done_of_andThen h
    cases h
    exact ⟨u, ih hu, rfl⟩

/-- What the bodies of the rules hand on from the rules they call holds of every rule that is read. -/
theorem taken_of_read {R : Rule → Cursor → Tree → Cursor → Prop}
    (hbody : ∀ {r c y c'}, r.body.Takes lx R (c.skip lx) y c' → R r c (y.ruleTree r ⟨c.pos, c'.pos⟩) c')
    (depth : Nat) :
    ∀ {stack r c seen t c' seen'}, Rule.read lx depth stack r c seen = .done t c' seen' → R r c t c' := by
  induction depth with
  | zero =>
    intro stack r c seen t c' seen' h
    cases h
  | succ depth ih =>
    intro stack r c seen t c' seen' h
    obtain ⟨y, hy, rfl⟩ := done_of_rule_read h
    exact hbody (takes_of_read (R := R) ih _ hy)

end Reading

/-! ### What a phrase can give -/

/-- The yields that reading a phrase can give, if reading a rule gives trees as `R` says. -/
def Phrase.Gives (R : Rule → Tree → Prop) : Phrase → Yield → Prop
  | empty, y => y = .none
  | token letters, y => y = .one (.word (String.ofList letters))
  | pattern _, y => ∃ text, y = .one (.word text)
  | endOfText, y => y = .none
  | call r, y => ∃ t, R r t ∧ y = .one t
  | seq p q, y => ∃ u v, p.Gives R u ∧ q.Gives R v ∧ y = u.append v
  | alt p q, y => p.Gives R y ∨ q.Gives R y
  | expect _ p, y => p.Gives R y
  | opt p, y => p.Gives R y ∨ y = .none
  | many p, y => ∃ us, (∀ u ∈ us, p.Gives R u) ∧ y = .repeated us
  | many1 p, y => ∃ us, (∀ u ∈ us, p.Gives R u) ∧ us ≠ [] ∧ y = .repeated us
  | notAhead _, y => y = .none
  | label f p, y => ∃ u, p.Gives R u ∧ y = ⟨u.items, u.fields ++ [(f, u.tree)], u.gathered⟩
  | gather p, y => ∃ u, p.Gives R u ∧ y = ⟨u.items, u.fields, u.gathered ++ [u.tree]⟩

section Giving

variable {lx : Lexis} {R : Rule → Tree → Prop}

theorem Chain.each {T : Cursor → Yield → Cursor → Prop} {G : Yield → Prop} (hT : ∀ {c y c'}, T c y c' → G y)
    {c c' : Cursor} {us : List Yield} (h : Chain T c us c') : ∀ u ∈ us, G u := by
  induction h with
  | nil c => exact fun u hu => absurd hu List.not_mem_nil
  | cons hy _ ih => exact List.forall_mem_cons.mpr ⟨hT hy, ih⟩

/-- Reading a phrase gives what it can give. -/
theorem gives_of_takes (p : Phrase) : ∀ {c y c'}, p.Takes lx (fun r _ t _ => R r t) c y c' → p.Gives R y := by
  induction p with
  | empty | endOfText | notAhead => exact fun h => h.1
  | token letters => exact fun h => h.2.1
  | pattern p =>
    rintro c y c' ⟨n, -, rfl, -⟩
    exact ⟨_, rfl⟩
  | call r => exact fun h => h
  | seq p q ihp ihq =>
    rintro c y c' ⟨u, v, c₁, hu, hv, rfl⟩
    exact ⟨u, v, ihp hu, ihq hv, rfl⟩
  | alt p q ihp ihq => exact fun h => h.imp ihp ihq
  | expect expected p ih => exact fun h => ih h
  | opt p ih => exact fun h => h.imp ih And.left
  | many p ih =>
    rintro c y c' ⟨us, hus, rfl⟩
    exact ⟨us, hus.each (G := p.Gives R) ih, rfl⟩
  | many1 p ih =>
    rintro c y c' ⟨u, us, c₁, hu, hus, rfl⟩
    exact ⟨u :: us, List.forall_mem_cons.mpr ⟨ih hu, hus.each (G := p.Gives R) ih⟩, List.cons_ne_nil _ _, rfl⟩
  | label f p ih =>
    rintro c y c' ⟨u, hu, rfl⟩
    exact ⟨u, ih hu, rfl⟩
  | gather p ih =>
    rintro c y c' ⟨u, hu, rfl⟩
    exact ⟨u, ih hu, rfl⟩

/-- What the bodies of the rules turn into trees of some form, all rules give in that form. -/
theorem tree_of_read (hbody : ∀ {r y span}, r.body.Gives R y → R r (y.ruleTree r span)) (depth : Nat)
    {stack : List Rule} {r : Rule} {c c' : Cursor} {seen seen' : Option Failure} {t : Tree}
    (h : Rule.read lx depth stack r c seen = .done t c' seen') : R r t :=
  taken_of_read (R := fun r _ t _ => R r t) (fun hy => hbody (gives_of_takes _ hy)) depth h

end Giving

/-! ### Words and choices -/

section Phrases

variable {R : Rule → Tree → Prop} {y : Yield}

theorem gives_word {w : String} (h : (Phrase.word w).Gives R y) : y = .one (.word w) := by
  rw [show y = .one (.word (String.ofList w.toList)) from h, String.ofList_toList]

theorem gives_words (ws : List String) : ∀ {y}, (Phrase.words ws).Gives R y → y = ⟨ws.map .word, [], []⟩ := by
  induction ws with
  | nil => exact fun h => h
  | cons w ws ih =>
    intro y h
    cases ws with
    | nil => exact gives_word h
    | cons v ws =>
      obtain ⟨u, z, hu, hz, rfl⟩ := h
      rw [gives_word hu, ih hz]
      rfl

theorem gives_firstOf (ps : List Phrase) (hps : ps ≠ []) :
    (Phrase.firstOf ps).Gives R y → ∃ p ∈ ps, p.Gives R y := by
  induction ps with
  | nil => exact absurd rfl hps
  | cons p ps ih =>
    intro h
    cases ps with
    | nil => exact ⟨p, List.mem_singleton_self p, h⟩
    | cons q ps =>
      rcases h with h | h
      · exact ⟨p, List.mem_cons_self, h⟩
      · obtain ⟨p', hp', h'⟩ := ih (List.cons_ne_nil q ps) h
        exact ⟨p', List.mem_cons_of_mem p hp', h'⟩

theorem gives_rules {rs : List Rule} {expected : List Expected} (hrs : rs ≠ [])
    (h : (Phrase.ruleExpecting rs expected).Gives R y) : ∃ r ∈ rs, ∃ t, R r t ∧ y = .one t := by
  obtain ⟨p, hp, h⟩ := gives_firstOf _ (by simpa using hrs) h
  obtain ⟨r, hr, rfl⟩ := List.mem_map.mp hp
  exact ⟨r, hr, h⟩

theorem gives_entry {entries : List (List String)} (hne : entries ≠ []) (h : (Phrase.entryOf entries).Gives R y) :
    ∃ ws ∈ entries, y = ⟨ws.map .word, [], []⟩ := by
  obtain ⟨p, hp, h⟩ := gives_firstOf _ (by simpa using hne) h
  obtain ⟨ws, hws, rfl⟩ := List.mem_map.mp hp
  exact ⟨ws, hws, gives_words ws h⟩

/-- The phrase names no part of what it reads. -/
def Phrase.isUnlabelled : Phrase → Bool
  | empty | token _ | pattern _ | endOfText | call _ | notAhead _ => true
  | label _ _ => false
  | seq p q | alt p q => p.isUnlabelled && q.isUnlabelled
  | expect _ p | opt p | many p | many1 p | gather p => p.isUnlabelled

theorem fields_of_repeated {us : List Yield} (h : ∀ u ∈ us, u.fields = []) : (Yield.repeated us).fields = [] :=
  List.flatMap_eq_nil_iff.mpr h

theorem fields_of_unlabelled (p : Phrase) (hp : p.isUnlabelled = true) : ∀ {y}, p.Gives R y → y.fields = [] := by
  induction p with
  | empty | endOfText | notAhead =>
    rintro y rfl
    rfl
  | token letters =>
    rintro y rfl
    rfl
  | pattern p =>
    rintro y ⟨text, rfl⟩
    rfl
  | call r =>
    rintro y ⟨t, -, rfl⟩
    rfl
  | seq p q ihp ihq =>
    obtain ⟨hp, hq⟩ := Bool.and_eq_true_iff.mp hp
    rintro y ⟨u, v, hu, hv, rfl⟩
    show u.fields ++ v.fields = []
    rw [ihp hp hu, ihq hq hv, List.append_nil]
  | alt p q ihp ihq =>
    obtain ⟨hp, hq⟩ := Bool.and_eq_true_iff.mp hp
    rintro y (h | h)
    · exact ihp hp h
    · exact ihq hq h
  | expect expected p ih => exact fun h => ih hp h
  | opt p ih =>
    rintro y (h | rfl)
    · exact ih hp h
    · rfl
  | many p ih =>
    rintro y ⟨us, hus, rfl⟩
    exact fields_of_repeated fun u hu => ih hp (hus u hu)
  | many1 p ih =>
    rintro y ⟨us, hus, -, rfl⟩
    exact fields_of_repeated fun u hu => ih hp (hus u hu)
  | label f p ih => cases hp
  | gather p ih =>
    rintro y ⟨u, hu, rfl⟩
    show u.fields = []
    exact ih hp hu

end Phrases

end Playhouse.Grammar
