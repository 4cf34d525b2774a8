import Mathlib.Logic.Relation
import Playhouse.Proofs.Wording
import Playhouse.Proofs.Yields

/-!
# Playhouse.Proofs.Progress — reading comes to an end

A rule calls others, and they call it again: values are made of values, and lines, scenes and acts repeat what they
hold. Two things keep that from going on for ever. Every round of a repetition reads a character
(`Phrase.consumes`), and as long as nothing was read, rules call only rules of lower rank (`Phrase.descends`). So
what is left of the text, and then the rank, goes down with every call: `Visit.weight`.

* `Rule.readFreely` reads a rule without a bound that depends on the calls around it; it is the only reader that
follows the bodies of the rules (`readFreely_eq`, `eq_readFreely`). * `Visit.Calls`: reading one rule calls
another, along the text at hand. * `keeps_readFreely`: what holds wherever reading can stand and of all failures
raised there holds of its outcome. * Main statement: `reading_ends`.
-/

namespace Playhouse.Grammar

/-! ### What reading moves over -/

/-- All rules read something but three: lists of personae, numerals and free texts may be empty. -/
def Rule.consumes : Rule → Bool
  | dramatisPersonae | romanNumeral | textBeforePunctuation => false
  | _ => true

/-- Whichever way the phrase is read, something is. -/
def Phrase.consumes : Phrase → Bool
  | token letters => !letters.isEmpty
  | call r => r.consumes
  | seq p q => p.consumes || q.consumes
  | alt p q => p.consumes && q.consumes
  | expect _ p | many1 p | label _ p | gather p => p.consumes
  | empty | pattern _ | endOfText | opt _ | many _ | notAhead _ => false

theorem consumes_body (r : Rule) : r.consumes = true → r.body.consumes = true := by
  cases r <;> decide +kernel

/-- Reading has come from one cursor to another one of the same text, and further on if `strictly`. -/
structure Cursor.Reaches (c : Cursor) (strictly : Bool) (c' : Cursor) : Prop where
  same : c'.pos + c'.rest.length = c.pos + c.rest.length
  le : c.pos ≤ c'.pos
  lt : strictly = true → c.pos < c'.pos

namespace Cursor.Reaches

variable {a b : Bool} {c c₁ c' : Cursor}

theorem stay (c : Cursor) : c.Reaches false c := ⟨rfl, Nat.le_refl _, fun h => nomatch h⟩

theorem weaken (h : c.Reaches a c') : c.Reaches false c' := ⟨h.same, h.le, fun h => nomatch h⟩

theorem trans (h : c.Reaches a c₁) (h' : c₁.Reaches b c') : c.Reaches (a || b) c' := by
  refine ⟨h'.same.trans h.same, Nat.le_trans h.le h'.le, fun hab => ?_⟩
  cases Bool.or_eq_true_iff.mp hab with
  | inl ha => exact Nat.lt_of_lt_of_le (h.lt ha) h'.le
  | inr hb => exact Nat.lt_of_le_of_lt h.le (h'.lt hb)

theorem advance {n : Nat} (hn : n ≤ c.rest.length) : c.Reaches (0 < n) (c.advance n) := by
  refine ⟨?_, Nat.le_add_right _ _, fun h => Nat.lt_add_of_pos_right (of_decide_eq_true h)⟩
  show c.pos + n + (c.rest.drop n).length = c.pos + c.rest.length
  rw [List.length_drop]
  omega

theorem skip (lx : Lexis) (c : Cursor) : c.Reaches false (c.skip lx) :=
  (advance (List.takeWhile_prefix _).length_le).weaken

/-- What is passed is not left to be read. -/
theorem length_le (h : c.Reaches a c') : c'.rest.length ≤ c.rest.length := by
  have hsame := h.same
  have hle := h.le
  omega

theorem length_lt (h : c.Reaches true c') : c'.rest.length < c.rest.length := by
  have hsame := h.same
  have hlt := h.lt rfl
  omega

end Cursor.Reaches

section Reaching

variable {lx : Lexis} {R : Rule → Cursor → Tree → Cursor → Prop}

theorem reaches_of_chain {T : Cursor → Yield → Cursor → Prop} (hT : ∀ {c y c'}, T c y c' → c.Reaches false c')
    {c c' : Cursor} {us : List Yield} (h : Chain T c us c') : c.Reaches false c' := by
  induction h with
  | nil c => exact .stay c
  | cons hy _ ih => exact (hT hy).trans ih

theorem reaches_of_takes (hR : ∀ {r c t c'}, R r c t c' → c.Reaches r.consumes c') (p : Phrase) :
    ∀ {c y c'}, p.Takes lx R c y c' → c.Reaches p.consumes c' := by
  induction p with
  | empty | notAhead =>
    rintro c y c' ⟨-, rfl⟩
    exact .stay _
  | token letters =>
    rintro c y c' ⟨hbegins, -, rfl⟩
    have hpast := (Cursor.Reaches.skip lx c).trans (.advance (length_le_of_beginsWith hbegins))
    refine ⟨hpast.same, hpast.le, fun h => hpast.lt ?_⟩
    cases letters with
    | nil => cases h
    | cons l ls => rfl
  | pattern p =>
    rintro c y c' ⟨n, hn, -, rfl⟩
    exact (Cursor.Reaches.advance (Pattern.length?_le hn)).weaken
  | endOfText =>
    rintro c y c' ⟨-, rfl⟩
    exact .skip lx c
  | call r =>
    rintro c y c' ⟨t, ht, -⟩
    exact hR ht
  | seq p q ihp ihq =>
    rintro c y c' ⟨u, v, c₁, hu, hv, -⟩
    exact (ihp hu).trans (ihq hv)
  | alt p q ihp ihq =>
    rintro c y c' (h | h)
    · have hpast := ihp h
      exact ⟨hpast.same, hpast.le, fun hboth => hpast.lt (Bool.and_eq_true_iff.mp hboth).1⟩
    · have hpast := ihq h
      exact ⟨hpast.same, hpast.le, fun hboth => hpast.lt (Bool.and_eq_true_iff.mp hboth).2⟩
  | expect expected p ih => exact fun h => ih h
  | opt p ih =>
    rintro c y c' (h | ⟨-, rfl⟩)
    · exact (ih h).weaken
    · exact .stay _
  | many p ih =>
    rintro c y c' ⟨us, hus, -⟩
    exact reaches_of_chain (fun h => (ih h).weaken) hus
  | many1 p ih =>
    rintro c y c' ⟨u, us, c₁, hu, hus, -⟩
    have hpast := (ih hu).trans (reaches_of_chain (fun h => (ih h).weaken) hus)
    rwa [Bool.or_false] at hpast
  | label f p ih =>
    rintro c y c' ⟨u, hu, -⟩
    exact ih hu
  | gather p ih =>
    rintro c y c' ⟨u, hu, -⟩
    exact ih hu

/-- A reader of rules that moves on along the text, past at least one character where the rule has one. -/
def Advances (call : List Rule → Rule → Reader Tree) : Prop :=
  ∀ {stack r c seen t c' seen'}, call stack r c seen = .done t c' seen' → c.Reaches r.consumes c'

theorem advances_read (lx : Lexis) (depth : Nat) : Advances (Rule.read lx depth) := by
  intro stack r c seen t c' seen' h
  refine taken_of_read (R := fun r c _ c' => c.Reaches r.consumes c') (fun {r c y c'} hy => ?_) depth h
  have hpast := (Cursor.Reaches.skip lx c).trans (reaches_of_takes (fun h => h) _ hy)
  exact ⟨hpast.same, hpast.le, fun hr => hpast.lt (consumes_body r hr)⟩

theorem reaches_of_read {call : List Rule → Rule → Reader Tree} (hcall : Advances call) {p : Phrase}
    {stack : List Rule} {c c' : Cursor} {seen seen' : Option Failure} {y : Yield}
    (h : p.read lx call stack c seen = .done y c' seen') : c.Reaches p.consumes c' :=
  reaches_of_takes (fun h => h) p (takes_of_read (R := fun r c _ c' => c.Reaches r.consumes c') hcall p h)

end Reaching

/-! ### Which rules are called -/

/-- Where a rule stands among those that can be called before anything is read: it calls lower ones only. -/
def Rule.rank : Rule → Nat
  | possessive | positiveOrNeutralAdjective | positiveOrNeutralNoun | firstPersonValue | secondPersonValue => 1
  | characterName | binaryExpression | unaryExpression | question | assignment | goto | line | characterList => 1
  | dramatisPersona | play => 1
  | negativeNounPhrase | positiveNounPhrase | expression | sentence | event | dramatisPersonae => 2
  | nounPhrase | lineContents => 3
  | value => 4
  | replInput => 5
  | _ => 0

/-- The rules that the phrase can call before it has read anything are of a rank below `n`. -/
def Phrase.descends (n : Nat) : Phrase → Bool
  | empty | token _ | pattern _ | endOfText => true
  | call r => r.rank < n
  | seq p q => p.descends n && (p.consumes || q.descends n)
  | alt p q => p.descends n && q.descends n
  | expect _ p | opt p | many p | many1 p | notAhead p | label _ p | gather p => p.descends n

theorem descends_body (r : Rule) : r.body.descends r.rank = true := by
  cases r <;> decide +kernel

theorem rank_lt (r : Rule) : r.rank < ranks := by
  cases r <;> decide

/-- A rule being read: the rules around it, where it was entered, and the failure that had got furthest by then. -/
structure Visit where
  stack : List Rule
  rule : Rule
  cursor : Cursor
  seen : Option Failure

/-- What a reader of rules makes of a visit. -/
def Visit.readBy (call : List Rule → Rule → Reader Tree) (x : Visit) : Reading Tree :=
  call x.stack x.rule x.cursor x.seen

/-- What is left to be read, and then the rank. -/
def Visit.weight (x : Visit) : Nat := x.cursor.rest.length * ranks + x.rule.rank

/-- Reading the phrase from the cursor on calls the rule of the visit, and enters it there. -/
inductive Phrase.Makes (lx : Lexis) (call : List Rule → Rule → Reader Tree) (stack : List Rule) :
    Phrase → Cursor → Option Failure → Visit → Prop
  | call {r c seen} : Makes lx call stack (.call r) c seen ⟨stack, r, c, seen⟩
  | seqLeft {p q c seen x} : Makes lx call stack p c seen x → Makes lx call stack (.seq p q) c seen x
  | seqRight {p q c seen y c' seen' x} : p.read lx call stack c seen = .done y c' seen' →
      Makes lx call stack q c' seen' x → Makes lx call stack (.seq p q) c seen x
  | altLeft {p q c seen x} : Makes lx call stack p c seen x → Makes lx call stack (.alt p q) c seen x
  | altRight {p q c seen e seen' x} : p.read lx call stack c seen = .failed e seen' →
      Makes lx call stack q c seen' x → Makes lx call stack (.alt p q) c seen x
  | expect {expected p c seen x} : Makes lx call stack p c seen x →
      Makes lx call stack (.expect expected p) c seen x
  | opt {p c seen x} : Makes lx call stack p c seen x → Makes lx call stack (.opt p) c seen x
  | notAhead {p c seen x} : Makes lx call stack p c seen x → Makes lx call stack (.notAhead p) c seen x
  | label {f p c seen x} : Makes lx call stack p c seen x → Makes lx call stack (.label f p) c seen x
  | gather {p c seen x} : Makes lx call stack p c seen x → Makes lx call stack (.gather p) c seen x
  | manyFirst {p c seen x} : Makes lx call stack p c seen x → Makes lx call stack (.many p) c seen x
  | manyMore {p c seen y c' seen' x} : p.read lx call stack c seen = .done y c' seen' →
      Makes lx call stack (.many p) c' seen' x → Makes lx call stack (.many p) c seen x
  | many1First {p c seen x} : Makes lx call stack p c seen x → Makes lx call stack (.many1 p) c seen x
  | many1More {p c seen y c' seen' x} : p.read lx call stack c seen = .done y c' seen' →
      Makes lx call stack (.many p) c' seen' x → Makes lx call stack (.many1 p) c seen x

section Calling

variable {lx : Lexis} {call call' : List Rule → Rule → Reader Tree} {stack : List Rule}

theorem reaches_of_makes (hcall : Advances call) {p : Phrase} {c : Cursor} {seen : Option Failure} {x : Visit}
    (h : p.Makes lx call stack c seen x) : c.Reaches false x.cursor := by
  induction h with
  | call => exact .stay _
  | seqRight hread _ ih | manyMore hread _ ih | many1More hread _ ih =>
    exact ((reaches_of_read hcall hread).trans ih).weaken
  | seqLeft _ ih | altLeft _ ih | altRight _ _ ih | manyFirst _ ih | many1First _ ih => exact ih
  | expect _ ih | opt _ ih | notAhead _ ih | label _ ih | gather _ ih => exact ih

/-- Where a phrase begins it calls only rules of lower rank. -/
theorem rank_lt_of_makes (hcall : Advances call) {p : Phrase} {c : Cursor} {seen : Option Failure}
    {x : Visit} {n : Nat} (h : p.Makes lx call stack c seen x) :
    p.descends n = true → x.cursor.pos = c.pos → x.rule.rank < n := by
  induction h with
  | call => exact fun hp _ => of_decide_eq_true hp
  | seqRight hread hmakes ih =>
    intro hp hpos
    have hpast := reaches_of_read hcall hread
    have hle := hpast.le
    have hle' := (reaches_of_makes hcall hmakes).le
    cases Bool.or_eq_true_iff.mp (Bool.and_eq_true_iff.mp hp).2 with
    | inl hconsumes =>
      -- Something was read before: this is not where the phrase begins.
      have hlt := hpast.lt hconsumes
      omega
    | inr hdescends => exact ih hdescends (by omega)
  | manyMore hread hmakes ih | many1More hread hmakes ih =>
    intro hp hpos
    have hle := (reaches_of_read hcall hread).le
    have hle' := (reaches_of_makes hcall hmakes).le
    exact ih hp (by omega)
  | seqLeft _ ih | altLeft _ ih => exact fun hp => ih (Bool.and_eq_true_iff.mp hp).1
  | altRight _ _ ih => exact fun hp => ih (Bool.and_eq_true_iff.mp hp).2
  | expect _ ih | opt _ ih | notAhead _ ih | label _ ih | gather _ ih | manyFirst _ ih | many1First _ ih =>
    exact fun hp => ih hp

/-- Every call leaves less to be read, or is of lower rank. -/
theorem weight_lt_of_makes (hcall : Advances call) {x y : Visit}
    (h : x.rule.body.Makes lx call (x.rule :: x.stack) (x.cursor.skip lx) x.seen y) : y.weight < x.weight := by
  have hskip := Cursor.Reaches.skip lx x.cursor
  have hreaches := reaches_of_makes hcall h
  have hrank := rank_lt_of_makes hcall h (descends_body x.rule)
  have htop := rank_lt y.rule
  have hlength := hskip.length_le
  have hlength' := hreaches.length_le
  unfold Visit.weight
  by_cases hpos : y.cursor.pos = (x.cursor.skip lx).pos
  · have hlower := hrank hpos
    have hmul := Nat.mul_le_mul_right ranks (Nat.le_trans hlength' hlength)
    omega
  · have hlt : y.cursor.rest.length + 1 ≤ x.cursor.rest.length := by
      have hsame := hreaches.same
      have hle := hreaches.le
      omega
    have hmul := Nat.mul_le_mul_right ranks hlt
    rw [Nat.add_mul] at hmul
    omega

theorem readMany_congr {p : Phrase}
    (hp : ∀ {c seen}, (∀ x, p.Makes lx call stack c seen x → x.readBy call = x.readBy call') →
      p.read lx call stack c seen = p.read lx call' stack c seen) (limit : Nat) : ∀ {c seen},
    (∀ x, (Phrase.many p).Makes lx call stack c seen x → x.readBy call = x.readBy call') →
      readMany (p.read lx call stack) stack limit c seen =
        readMany (p.read lx call' stack) stack limit c seen := by
  induction limit with
  | zero => exact fun _ => rfl
  | succ limit ih =>
    intro c seen h
    unfold readMany
    rw [← hp fun x hx => h x (.manyFirst hx)]
    cases hread : p.read lx call stack c seen with
    | failed e seen' => rfl
    | done y c' seen' =>
      dsimp only
      rw [ih fun x hx => h x (.manyMore hread hx)]

/-- How a phrase is read depends on the calls that it makes, and on nothing else of the reader of rules. -/
theorem read_congr (p : Phrase) : ∀ {c seen},
    (∀ x, p.Makes lx call stack c seen x → x.readBy call = x.readBy call') →
      p.read lx call stack c seen = p.read lx call' stack c seen := by
  induction p with
  | empty | token | pattern | endOfText => exact fun _ => rfl
  | call r =>
    intro c seen h
    have heq : call stack r c seen = call' stack r c seen := h _ .call
    rw [read_call, read_call, heq]
  | seq p q ihp ihq =>
    intro c seen h
    rw [read_seq, read_seq, ← ihp fun x hx => h x (.seqLeft hx)]
    cases hread : p.read lx call stack c seen with
    | failed e seen' => rfl
    | done y c' seen' =>
      exact congrArg (Reading.andThen · fun z c s => .done (y.append z) c s)
        (ihq fun x hx => h x (.seqRight hread hx))
  | alt p q ihp ihq =>
    intro c seen h
    rw [read_alt, read_alt, ← ihp fun x hx => h x (.altLeft hx)]
    cases hread : p.read lx call stack c seen with
    | done y c' seen' => rfl
    | failed e seen' => exact ihq fun x hx => h x (.altRight hread hx)
  | expect expected p ih =>
    intro c seen h
    rw [read_expect, read_expect, ih fun x hx => h x (.expect hx)]
  | opt p ih =>
    intro c seen h
    rw [read_opt, read_opt, ih fun x hx => h x (.opt hx)]
  | many p ih =>
    intro c seen h
    rw [read_many, read_many, readMany_congr ih _ h]
  | many1 p ih =>
    intro c seen h
    rw [read_many1, read_many1, ← ih fun x hx => h x (.many1First hx)]
    cases hread : p.read lx call stack c seen with
    | failed e seen' => rfl
    | done y c' seen' =>
      exact congrArg (Reading.andThen · fun ys c s => .done (Yield.repeated (y :: ys)) c s)
        (readMany_congr ih _ fun x hx => h x (.many1More hread hx))
  | notAhead p ih =>
    intro c seen h
    rw [read_notAhead, read_notAhead, ih fun x hx => h x (.notAhead hx)]
  | label f p ih =>
    intro c seen h
    rw [read_label, read_label, ih fun x hx => h x (.label hx)]
  | gather p ih =>
    intro c seen h
    rw [read_gather, read_gather, ih fun x hx => h x (.gather hx)]

end Calling

/-! ### Reading without a bound -/

/-- Read a rule by reading its body, with `call` for the rules that it calls. -/
def Rule.follow (lx : Lexis) (call : List Rule → Rule → Reader Tree) (stack : List Rule) (r : Rule) :
    Reader Tree :=
  fun c seen =>
    match r.body.read lx call (r :: stack) (c.skip lx) seen with
    | .done y c' seen => .done (y.ruleTree r ⟨c.pos, c'.pos⟩) c' seen
    | .failed e seen => .failed e (some (furthest seen e))

/-- Read a rule wherever it stands, with as many rules nested as what is left of the text allows. -/
def Rule.readFreely (lx : Lexis) (stack : List Rule) (r : Rule) : Reader Tree :=
  fun c seen => r.read lx (callDepth c.rest) stack c seen

section Freely

variable {lx : Lexis}

theorem follow_congr {call call' : List Rule → Rule → Reader Tree} {stack : List Rule} {r : Rule} {c : Cursor}
    {seen : Option Failure}
    (h : ∀ x, r.body.Makes lx call (r :: stack) (c.skip lx) seen x → x.readBy call = x.readBy call') :
    r.follow lx call stack c seen = r.follow lx call' stack c seen := by
  unfold Rule.follow
  rw [read_congr r.body h]

theorem weight_lt_callDepth (x : Visit) : x.weight < callDepth x.cursor.rest := by
  have hrank := rank_lt x.rule
  unfold Visit.weight callDepth
  rw [Nat.add_mul]
  omega

/-- A bound above the weight is not felt. -/
theorem read_of_weight_lt (m : Nat) : ∀ {n : Nat} {x : Visit}, x.weight < m → x.weight < n →
    x.readBy (Rule.read lx m) = x.readBy (Rule.read lx n) := by
  induction m with
  | zero => exact fun hm => absurd hm (Nat.not_lt_zero _)
  | succ m ih =>
    intro n x hm hn
    cases n with
    | zero => exact absurd hn (Nat.not_lt_zero _)
    | succ n =>
      show x.rule.follow lx (Rule.read lx m) x.stack x.cursor x.seen =
        x.rule.follow lx (Rule.read lx n) x.stack x.cursor x.seen
      refine follow_congr fun y hy => ?_
      have hlt : y.weight < x.weight := weight_lt_of_makes (advances_read lx m) hy
      exact ih (by omega) (by omega)

theorem read_eq_readFreely {n : Nat} {x : Visit} (h : x.weight < n) :
    x.readBy (Rule.read lx n) = x.readBy (Rule.readFreely lx) :=
  read_of_weight_lt n h (weight_lt_callDepth x)

theorem advances_readFreely (lx : Lexis) : Advances (Rule.readFreely lx) :=
  fun h => advances_read lx _ h

/-- `readFreely` follows the bodies of the rules. -/
theorem readFreely_eq (stack : List Rule) (r : Rule) (c : Cursor) (seen : Option Failure) :
    r.readFreely lx stack c seen = r.follow lx (Rule.readFreely lx) stack c seen := by
  have hweight := weight_lt_callDepth ⟨stack, r, c, seen⟩
  calc r.readFreely lx stack c seen
      = r.read lx (callDepth c.rest + 1) stack c seen := (read_eq_readFreely (Nat.lt_succ_of_lt hweight)).symm
    _ = r.follow lx (Rule.read lx (callDepth c.rest)) stack c seen := rfl
    _ = r.follow lx (Rule.readFreely lx) stack c seen := by
        refine follow_congr fun y hy => read_eq_readFreely ?_
        have hlt : y.weight < Visit.weight ⟨stack, r, c, seen⟩ := weight_lt_of_makes (advances_read lx _) hy
        exact Nat.lt_trans hlt hweight

/-- Reading the one rule calls the other. -/
def Visit.Calls (lx : Lexis) (x y : Visit) : Prop :=
  x.rule.body.Makes lx (Rule.readFreely lx) (x.rule :: x.stack) (x.cursor.skip lx) x.seen y

theorem Visit.Calls.weight_lt {x y : Visit} (h : x.Calls lx y) : y.weight < x.weight :=
  weight_lt_of_makes (advances_readFreely lx) h

theorem wellFounded_calls (lx : Lexis) : WellFounded fun y x : Visit => x.Calls lx y :=
  Subrelation.wf (fun h => h.weight_lt) (InvImage.wf Visit.weight Nat.lt_wfRel.wf)

/-- No other reader follows the bodies of the rules. -/
theorem eq_readFreely {call : List Rule → Rule → Reader Tree}
    (h : ∀ stack r c seen, call stack r c seen = r.follow lx call stack c seen) (x : Visit) :
    x.readBy call = x.readBy (Rule.readFreely lx) := by
  induction x using (wellFounded_calls lx).induction with
  | _ x ih =>
    refine (h _ _ _ _).trans (Eq.trans ?_ (readFreely_eq _ _ _ _).symm)
    exact (follow_congr fun y hy => (ih y hy).symm).symm

end Freely

/-! ### Repetitions -/

/-- What is repeated in the phrase. -/
def Phrase.repetitions : Phrase → List Phrase
  | empty | token _ | pattern _ | endOfText | call _ => []
  | seq p q | alt p q => p.repetitions ++ q.repetitions
  | expect _ p | opt p | notAhead p | label _ p | gather p => p.repetitions
  | many p | many1 p => p :: p.repetitions

theorem repetitions_consume (r : Rule) : r.body.repetitions.all Phrase.consumes = true := by
  cases r <;> decide +kernel

example : (Rule.all.filter fun r => !r.body.repetitions.isEmpty) = [.act, .characterList, .dramatisPersonae,
    .lineContents, .negativeNounPhrase, .play, .positiveNounPhrase, .replInput, .scene] := by decide +kernel

theorem consumes_of_repetition {r : Rule} {p : Phrase} (h : p ∈ r.body.repetitions) : p.consumes = true :=
  List.all_eq_true.mp (repetitions_consume r) p h

/-- There are no more rounds than characters, so a bound above their number is not felt. -/
theorem readMany_of_length_lt {p : Reader Yield} {stack : List Rule}
    (hp : ∀ {c seen y c' seen'}, p c seen = .done y c' seen' → c.Reaches true c') (m : Nat) :
    ∀ {n : Nat} {c : Cursor} {seen : Option Failure}, c.rest.length < m → c.rest.length < n →
      readMany p stack m c seen = readMany p stack n c seen := by
  induction m with
  | zero => exact fun hm => absurd hm (Nat.not_lt_zero _)
  | succ m ih =>
    intro n c seen hm hn
    cases n with
    | zero => exact absurd hn (Nat.not_lt_zero _)
    | succ n =>
      unfold readMany
      cases hread : p c seen with
      | failed e seen' => rfl
      | done y c' seen' =>
        have hlt := (hp hread).length_lt
        dsimp only
        rw [ih (n := n) (by omega) (by omega)]

/-! ### Failures -/

/-- Neither of the failures of a reader that does not get on. -/
def Failure.IsProper (e : Failure) : Prop := e.missing ≠ .emptyRepetition ∧ e.missing ≠ .tooDeep

/-- `C` holds wherever reading can stand, `Q` of the failures that are raised there, and `S` of what is kept of
them. -/
structure Admits (lx : Lexis) (C : Cursor → Prop) (Q : Failure → Prop) (S : Option Failure → Prop) : Prop where
  skip : ∀ {c}, C c → C (c.skip lx)
  advance : ∀ {c n}, C c → n ≤ c.rest.length → C (c.advance n)
  raise : ∀ {c missing stack}, C c → Failure.IsProper ⟨missing, c.pos, stack⟩ → Q ⟨missing, c.pos, stack⟩
  record : ∀ {e seen}, Q e → S seen → S (some (furthest seen e))

/-- However reading ends, it ends in a place as `C` says, with failures as `Q` and `S` say. -/
def Reading.Keeps {α : Type} (C : Cursor → Prop) (Q : Failure → Prop) (S : Option Failure → Prop) :
    Reading α → Prop
  | .done _ c seen => C c ∧ S seen
  | .failed e seen => Q e ∧ S seen

section Failing

variable {lx : Lexis} {C : Cursor → Prop} {Q : Failure → Prop} {S : Option Failure → Prop} {α β : Type}
  {call : List Rule → Rule → Reader Tree} {stack : List Rule}

theorem Reading.Keeps.andThen {r : Reading α} {f : α → Reader β} (h : r.Keeps C Q S)
    (hf : ∀ {a c seen}, r = .done a c seen → C c → S seen → (f a c seen).Keeps C Q S) :
    (r.andThen f).Keeps C Q S := by
  cases r with
  | done a c seen => exact hf rfl h.1 h.2
  | failed e seen => exact h

theorem Reading.Keeps.orElse {r : Reading α} {f : Option Failure → Reading α} (h : r.Keeps C Q S)
    (hf : ∀ {e seen}, r = .failed e seen → S seen → (f seen).Keeps C Q S) : (r.orElse f).Keeps C Q S := by
  cases r with
  | done a c seen => exact h
  | failed e seen => exact hf rfl h.2

/-- Where the visit is made in such a place, it ends so. -/
def Visit.Kept (call : List Rule → Rule → Reader Tree) (C : Cursor → Prop) (Q : Failure → Prop)
    (S : Option Failure → Prop) (x : Visit) : Prop :=
  C x.cursor → S x.seen → (x.readBy call).Keeps C Q S

theorem keeps_readMany (hcall : Advances call) {p : Phrase} (hconsumes : p.consumes = true)
    (hp : ∀ {c seen}, (∀ x, p.Makes lx call stack c seen x → x.Kept call C Q S) → C c → S seen →
      (p.read lx call stack c seen).Keeps C Q S) (limit : Nat) :
    ∀ {c seen}, (∀ x, (Phrase.many p).Makes lx call stack c seen x → x.Kept call C Q S) → C c → S seen →
      (readMany (p.read lx call stack) stack limit c seen).Keeps C Q S := by
  induction limit with
  | zero => exact fun _ hc hseen => ⟨hc, hseen⟩
  | succ limit ih =>
    intro c seen h hc hseen
    have hfirst := hp (fun x hx => h x (.manyFirst hx)) hc hseen
    unfold readMany
    cases hread : p.read lx call stack c seen with
    | failed e seen' =>
      rw [hread] at hfirst
      exact ⟨hc, hfirst.2⟩
    | done y c' seen' =>
      rw [hread] at hfirst
      have hlt := (reaches_of_read hcall hread).lt hconsumes
      dsimp only
      rw [if_neg (Nat.ne_of_gt hlt)]
      have hmore := ih (fun x hx => h x (.manyMore hread hx)) hfirst.1 hfirst.2
      cases hmany : readMany (p.read lx call stack) stack limit c' seen' with
      | done ys c'' seen'' =>
        rw [hmany] at hmore
        exact hmore
      | failed e seen'' =>
        rw [hmany] at hmore
        exact hmore

theorem keeps_phrase (hadmits : Admits lx C Q S) (hcall : Advances call) (p : Phrase) :
    (∀ q ∈ p.repetitions, q.consumes = true) → ∀ {c seen},
      (∀ x, p.Makes lx call stack c seen x → x.Kept call C Q S) → C c → S seen →
        (p.read lx call stack c seen).Keeps C Q S := by
  induction p with
  | empty => exact fun _ _ _ _ hc hseen => ⟨hc, hseen⟩
  | token letters =>
    intro _ c seen _ hc hseen
    have hskip := hadmits.skip hc
    rw [read_token]
    split
    · next hbegins =>
      exact ⟨hadmits.advance hskip (length_le_of_beginsWith (Bool.and_eq_true_iff.mp hbegins).1), hseen⟩
    · exact ⟨hadmits.raise hskip (by simp [Failure.IsProper]), hseen⟩
  | pattern p =>
    intro _ c seen _ hc hseen
    rw [read_pattern]
    split
    · next n hn => exact ⟨hadmits.advance hc (Pattern.length?_le hn), hseen⟩
    · exact ⟨hadmits.raise hc (by simp [Failure.IsProper]), hseen⟩
  | endOfText =>
    intro _ c seen _ hc hseen
    have hskip := hadmits.skip hc
    rw [read_endOfText]
    split
    · exact ⟨hskip, hseen⟩
    · exact ⟨hadmits.raise hskip (by simp [Failure.IsProper]), hseen⟩
  | call r =>
    intro _ c seen h hc hseen
    rw [read_call]
    have hvisit : (call stack r c seen).Keeps C Q S := h _ .call hc hseen
    exact hvisit.andThen fun _ hc' hseen' => ⟨hc', hseen'⟩
  | seq p q ihp ihq =>
    intro hrep c seen h hc hseen
    obtain ⟨hp, hq⟩ := List.forall_mem_append.mp hrep
    rw [read_seq]
    refine (ihp hp (fun x hx => h x (.seqLeft hx)) hc hseen).andThen fun hread hc' hseen' => ?_
    exact (ihq hq (fun x hx => h x (.seqRight hread hx)) hc' hseen').andThen fun _ hc'' hseen'' => ⟨hc'', hseen''⟩
  | alt p q ihp ihq =>
    intro hrep c seen h hc hseen
    obtain ⟨hp, hq⟩ := List.forall_mem_append.mp hrep
    rw [read_alt]
    refine (ihp hp (fun x hx => h x (.altLeft hx)) hc hseen).orElse fun hread hseen' => ?_
    exact ihq hq (fun x hx => h x (.altRight hread hx)) hc hseen'
  | expect expected p ih =>
    intro hrep c seen h hc hseen
    rw [read_expect]
    exact (ih hrep (fun x hx => h x (.expect hx)) hc hseen).orElse
      fun _ hseen' => ⟨hadmits.raise hc (by simp [Failure.IsProper]), hseen'⟩
  | opt p ih =>
    intro hrep c seen h hc hseen
    rw [read_opt]
    exact (ih hrep (fun x hx => h x (.opt hx)) hc hseen).orElse fun _ hseen' => ⟨hc, hseen'⟩
  | many p ih =>
    intro hrep c seen h hc hseen
    obtain ⟨hconsumes, hp⟩ := List.forall_mem_cons.mp hrep
    rw [read_many]
    exact (keeps_readMany hcall hconsumes (ih hp) _ h hc hseen).andThen fun _ hc' hseen' => ⟨hc', hseen'⟩
  | many1 p ih =>
    intro hrep c seen h hc hseen
    obtain ⟨hconsumes, hp⟩ := List.forall_mem_cons.mp hrep
    rw [read_many1]
    refine (ih hp (fun x hx => h x (.many1First hx)) hc hseen).andThen fun hread hc' hseen' => ?_
    exact (keeps_readMany hcall hconsumes (ih hp) _ (fun x hx => h x (.many1More hread hx)) hc' hseen').andThen
      fun _ hc'' hseen'' => ⟨hc'', hseen''⟩
  | notAhead p ih =>
    intro hrep c seen h hc hseen
    have hahead := ih hrep (fun x hx => h x (.notAhead hx)) hc hseen
    rw [read_notAhead]
    cases hread : p.read lx call stack c seen with
    | failed e seen' =>
      rw [hread] at hahead
      exact ⟨hc, hahead.2⟩
    | done y c' seen' =>
      rw [hread] at hahead
      exact ⟨hadmits.raise hc (by simp [Failure.IsProper]), hahead.2⟩
  | label f p ih =>
    intro hrep c seen h hc hseen
    rw [read_label]
    exact (ih hrep (fun x hx => h x (.label hx)) hc hseen).andThen fun _ hc' hseen' => ⟨hc', hseen'⟩
  | gather p ih =>
    intro hrep c seen h hc hseen
    rw [read_gather]
    exact (ih hrep (fun x hx => h x (.gather hx)) hc hseen).andThen fun _ hc' hseen' => ⟨hc', hseen'⟩

theorem keeps_readFreely (hadmits : Admits lx C Q S) (x : Visit) : x.Kept (Rule.readFreely lx) C Q S := by
  induction x using (wellFounded_calls lx).induction with
  | _ x ih =>
    intro hc hseen
    have hbody :
        (x.rule.body.read lx (Rule.readFreely lx) (x.rule :: x.stack) (x.cursor.skip lx) x.seen).Keeps C Q S :=
      keeps_phrase hadmits (advances_readFreely lx) _ (fun _ => consumes_of_repetition) ih (hadmits.skip hc) hseen
    show (x.rule.readFreely lx x.stack x.cursor x.seen).Keeps C Q S
    rw [readFreely_eq]
    unfold Rule.follow
    split
    · next hread =>
      rw [hread] at hbody
      exact hbody
    · next hread =>
      rw [hread] at hbody
      exact ⟨hbody.1, hadmits.record hbody.1 hbody.2⟩

end Failing

/-! ### The end of reading -/

section End

variable {lx : Lexis}

theorem furthest_of {Q : Failure → Prop} {e : Failure} {seen : Option Failure} (he : Q e)
    (hseen : ∀ s ∈ seen, Q s) :
    Q (furthest seen e) := by
  unfold furthest
  split
  · exact he
  · next s =>
    split
    · exact he
    · exact hseen s rfl

theorem isProper_of_failed {x : Visit} {e : Failure} {seen : Option Failure}
    (h : x.readBy (Rule.readFreely lx) = .failed e seen) : e.IsProper := by
  have hadmits : Admits lx (fun _ => True) Failure.IsProper fun _ => True :=
    ⟨fun _ => trivial, fun _ _ => trivial, fun _ hproper => hproper, fun _ _ => trivial⟩
  have hkept := keeps_readFreely hadmits x trivial trivial
  rw [h] at hkept
  exact hkept.1

/-- What holds of all failures that can be raised in a text holds of the one that is reported. -/
theorem error_of_readRule {C : Cursor → Prop} {Q : Failure → Prop}
    (hadmits : Admits lx C Q fun seen => ∀ s ∈ seen, Q s) {r : Rule} {text : List Char} {e : Failure}
    (hstart : C (Cursor.start text)) (h : readRule lx r text = .error e) : Q e := by
  have hkept : (r.readFreely lx [] (Cursor.start text) none).Keeps C Q fun seen => ∀ s ∈ seen, Q s :=
    keeps_readFreely hadmits ⟨[], r, Cursor.start text, none⟩ hstart nofun
  unfold readRule at h
  split at h
  · cases h
  · next hread =>
    rw [show r.readFreely lx [] (Cursor.start text) none = _ from hread] at hkept
    cases h
    exact furthest_of hkept.1 hkept.2

/-- As long as nothing is read, calls lead to rules of lower rank. -/
theorem rank_lt_of_calls {x y : Visit} (h : Relation.TransGen (Visit.Calls lx) x y) :
    (x.cursor.skip lx).pos ≤ y.cursor.pos ∧
      (y.cursor.pos = (x.cursor.skip lx).pos → y.rule.rank < x.rule.rank) := by
  have hstep : ∀ {x y : Visit}, x.Calls lx y →
      (x.cursor.skip lx).pos ≤ y.cursor.pos ∧
      (y.cursor.pos = (x.cursor.skip lx).pos → y.rule.rank < x.rule.rank) :=
    fun h => ⟨(reaches_of_makes (advances_readFreely lx) h).le,
      rank_lt_of_makes (advances_readFreely lx) h (descends_body _)⟩
  induction h with
  | single hcalls => exact hstep hcalls
  | @tail y z _ hcalls ih =>
    obtain ⟨hle, hrank⟩ := ih
    obtain ⟨hle', hrank'⟩ := hstep hcalls
    have hskip := (Cursor.Reaches.skip lx y.cursor).le
    refine ⟨by omega, fun hpos => ?_⟩
    exact Nat.lt_trans (hrank' (by omega)) (hrank (by omega))

/-- **Reading ends.** The bodies of the rules determine one reader, which knows no bound on the nesting of rules;
at the beginning of a text every bound from `callDepth` on gives the same. Calls cannot go on for ever, and a rule
that comes back to itself has read something since it was entered. Every round of every repetition reads something,
so a bound on their number is not felt either. No visit fails for want of progress, and no such failure is
reported. -/
theorem reading_ends (lx : Lexis) :
    (∀ reader : List Rule → Rule → Reader Tree, reader = Rule.readFreely lx ↔
      ∀ stack r c seen, reader stack r c seen = r.follow lx reader stack c seen) ∧
    (∀ (r : Rule) (text : List Char) (depth : Nat), callDepth text ≤ depth →
      r.read lx depth [] (Cursor.start text) none = r.readFreely lx [] (Cursor.start text) none) ∧
    WellFounded (fun y x : Visit => x.Calls lx y) ∧
    (∀ x y, Relation.TransGen (Visit.Calls lx) x y → y.rule = x.rule → (x.cursor.skip lx).pos < y.cursor.pos) ∧
    (∀ r : Rule, ∀ p ∈ r.body.repetitions, ∀ stack c seen,
      (∀ y c' seen', p.read lx (Rule.readFreely lx) stack c seen = .done y c' seen' → c.pos < c'.pos) ∧
      ∀ limit, c.rest.length < limit → readMany (p.read lx (Rule.readFreely lx) stack) stack limit c seen =
        readMany (p.read lx (Rule.readFreely lx) stack) stack (c.rest.length + 1) c seen) ∧
    (∀ (r : Rule) stack c seen e seen', r.readFreely lx stack c seen = .failed e seen' → e.IsProper) ∧
    ∀ (r : Rule) (text : List Char) (e : Failure), readRule lx r text = .error e → e.IsProper := by
  refine ⟨fun reader => ⟨?_, fun h => ?_⟩, fun r text depth hdepth => ?_, wellFounded_calls lx,
    fun x y hcalls hrule => ?_,
    fun r p hp stack c seen => ?_, fun r stack c seen e seen' h => isProper_of_failed (x := ⟨stack, r, c, seen⟩) h,
    fun r text e h => ?_⟩
  · rintro rfl
    exact readFreely_eq
  · funext stack r c seen
    exact eq_readFreely h ⟨stack, r, c, seen⟩
  · have hweight := weight_lt_callDepth ⟨[], r, Cursor.start text, none⟩
    exact read_eq_readFreely (x := ⟨[], r, Cursor.start text, none⟩) (Nat.lt_of_lt_of_le hweight hdepth)
  · obtain ⟨hle, hrank⟩ := rank_lt_of_calls hcalls
    obtain hlt | heq := Nat.lt_or_eq_of_le hle
    · exact hlt
    · have hlower := hrank heq.symm
      rw [hrule] at hlower
      exact absurd hlower (Nat.lt_irrefl _)
  · have hreaches : ∀ {c seen y c' seen'}, p.read lx (Rule.readFreely lx) stack c seen = .done y c' seen' →
        c.Reaches true c' := by
      intro c seen y c' seen' h
      have hpast := reaches_of_read (advances_readFreely lx) h
      rwa [consumes_of_repetition hp] at hpast
    exact ⟨fun y c' seen' h => (hreaches h).lt rfl,
      fun limit hlimit => readMany_of_length_lt hreaches limit hlimit (Nat.lt_succ_self _)⟩
  · refine error_of_readRule (C := fun _ => True) ⟨fun _ => trivial, fun _ _ => trivial, ?_, ?_⟩ trivial h
    · exact fun _ hproper => hproper
    · rintro e seen he hseen s ⟨⟩
      exact furthest_of he hseen

/-- Where reading has come to. -/
def Reading.cursor? {α : Type} : Reading α → Option Cursor
  | .done _ c _ => some c
  | .failed _ _ => none

theorem done_of_cursor? {α : Type} {r : Reading α} {c : Cursor} (h : r.cursor? = some c) :
    ∃ a seen, r = .done a c seen := by
  cases r with
  | done a c' seen =>
    cases h
    exact ⟨a, seen, rfl⟩
  | failed e seen => cases h

/-- The first summand is a value inside of a value, ten characters after it. -/
theorem reading_ends_sum : let sum := Cursor.start "the sum of zero and zero".toList
    ∃ x : Visit, Relation.TransGen (Visit.Calls .usual) ⟨[], .value, sum, none⟩ x ∧ x.rule = .value ∧
      x.cursor.pos = 10 ∧ (sum.skip .usual).pos < x.cursor.pos := by
  intro sum
  -- A value, an expression, a binary expression, and in it, after its operation, a value again.
  obtain ⟨y, seen, hread⟩ : ∃ y seen, (Phrase.label .operation (.call .binaryOperation)).read .usual
      (Rule.readFreely .usual) [.binaryExpression, .expression, .value] (sum.skip .usual) none =
        .done y ⟨10, " zero and zero".toList⟩ seen := done_of_cursor? (by decide +kernel)
  have hnested : Relation.TransGen (Visit.Calls .usual) ⟨[], .value, sum, none⟩
      ⟨[.binaryExpression, .expression, .value], .value, ⟨10, " zero and zero".toList⟩, seen⟩ := by
    have hexpression : Visit.Calls .usual ⟨[], .value, sum, none⟩ ⟨[.value], .expression, sum, none⟩ :=
      .expect (.altLeft .call)
    have hbinary : Visit.Calls .usual ⟨[.value], .expression, sum, none⟩
        ⟨[.expression, .value], .binaryExpression, sum, none⟩ := .expect (.altLeft .call)
    exact ((Relation.TransGen.single hexpression).tail hbinary).tail (.seqRight hread (.seqLeft (.label .call)))
  exact ⟨_, hnested, rfl, rfl, (reading_ends .usual).2.2.2.1 _ _ hnested rfl⟩

end End

end Playhouse.Grammar
