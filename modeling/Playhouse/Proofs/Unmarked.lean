import Playhouse.Proofs.Numerals
import Playhouse.Proofs.Preparation
import Playhouse.Proofs.Wording

/-!
# Playhouse.Proofs.Unmarked — names and numerals have no colon

A performance that tells what it does marks what the play puts out with a colon. Nothing else that it tells of has
one. The names in a play are made of words of the grammar, and their canonical form brings no colon in; the
numerals of jumps are Roman. Titles, and what is recalled, are captured as they stand and may hold a colon, but
they are not told. Main statement: `unmarked_of_play`.
-/

namespace Playhouse

open Grammar Text

/-- The text has no colon. -/
def Unmarked (text : String) : Prop := ':' ∉ text.toList

instance (text : String) : Decidable (Unmarked text) := inferInstanceAs (Decidable (':' ∉ text.toList))

/-! ### Texts -/

@[simp] theorem unmarked_append {s t : String} : Unmarked (s ++ t) ↔ Unmarked s ∧ Unmarked t := by
  simp only [Unmarked, String.toList_append, List.mem_append, not_or]

theorem unmarked_intercalate {sep : String} {ts : List String} (hsep : Unmarked sep) (h : ∀ t ∈ ts, Unmarked t) :
    Unmarked (sep.intercalate ts) := by
  induction ts with
  | nil =>
    rw [String.intercalate_nil]
    decide
  | cons t ts ih =>
    obtain ⟨ht, hts⟩ := List.forall_mem_cons.mp h
    cases ts with
    | nil => simpa using ht
    | cons u us =>
      rw [String.intercalate_cons_cons, unmarked_append, unmarked_append]
      exact ⟨⟨ht, hsep⟩, ih hts⟩

theorem unmarked_ofList {cs : List Char} : Unmarked (String.ofList cs) ↔ ':' ∉ cs := by
  rw [Unmarked, String.toList_ofList]

/-- A number is written with digits and a sign. -/
theorem unmarked_toString (n : Int) : Unmarked (toString n) := by
  have hnat : ∀ m : Nat, Unmarked m.repr := by
    intro m hm
    rw [Nat.repr, String.toList_ofList] at hm
    exact absurd (Nat.isDigit_of_mem_toDigits (by decide) (by decide) hm) (by decide)
  cases n with
  | ofNat m => exact hnat m
  | negSucc m => exact unmarked_append.mpr ⟨by decide, hnat m.succ⟩

/-! ### The canonical form of a name -/

namespace Name

theorem ofNat_ne_colon {n : Nat} (h : n ≠ 58) : ':' ≠ Char.ofNat n := by
  intro hc
  by_cases hvalid : n.isValidChar
  · rw [show Char.ofNat n = Char.ofNatAux n hvalid from dif_pos hvalid] at hc
    exact h (congrArg Char.toNat hc).symm
  · rw [show Char.ofNat n = '\x00' from dif_neg hvalid] at hc
    exact absurd hc (by decide)

/-- Above the ASCII range, the rows of the case maps lead to code points above that of the colon. -/
theorem case_tables :
    (∀ x ∈ lowerSpecial ++ titleSpecial, ∀ n ∈ x.2, n ≠ 58) ∧
      ∀ s ∈ lowerShifts ++ titleShifts, (58 : Int) < s.first + s.delta := by
  have hall : ((lowerSpecial ++ titleSpecial).all fun x => x.2.all (· != 58)) = true ∧
      ((lowerShifts ++ titleShifts).all fun s => decide ((58 : Int) < s.first + s.delta)) = true := by
    decide +kernel
  simpa only [List.all_eq_true, bne_iff_ne, decide_eq_true_eq] using hall

theorem colon_mapCase {special : List (Nat × List Nat)} {shifts : List Shift} {c : Char}
    (hspecial : ∀ x ∈ special, ∀ n ∈ x.2, n ≠ 58) (hshifts : ∀ s ∈ shifts, (58 : Int) < s.first + s.delta)
    (hc : ':' ≠ c) : ':' ∉ mapCase special shifts c := by
  unfold mapCase
  split
  · next cs hcs =>
    intro hmem
    obtain ⟨n, hn, heq⟩ := List.mem_map.mp hmem
    exact ofNat_ne_colon (hspecial _ (mem_of_lookup hcs) n hn) heq.symm
  · split
    · next s hs =>
      have hdelta := hshifts s (List.mem_of_find?_eq_some hs)
      have hcovers := List.find?_some hs
      simp only [Shift.covers, Bool.and_eq_true, decide_eq_true_eq] at hcovers
      rw [List.mem_singleton]
      exact ofNat_ne_colon (by omega)
    · rwa [List.mem_singleton]

theorem colon_ascii {c : Char} (h : c.toNat < 128) (hc : ':' ≠ c) : ':' ≠ c.toLower ∧ ':' ≠ c.toUpper := by
  have hall := of_ascii (f := fun c => c == ':' || (c.toLower != ':' && c.toUpper != ':')) (by decide +kernel) h
  simp only [Bool.or_eq_true, beq_iff_eq, Bool.and_eq_true, bne_iff_ne] at hall
  obtain ⟨hlower, hupper⟩ := hall.resolve_left (Ne.symm hc)
  exact ⟨Ne.symm hlower, Ne.symm hupper⟩

theorem colon_lowerCase {c : Char} (hc : ':' ≠ c) : ':' ∉ lowerCase c := by
  obtain ⟨hspecial, hshifts⟩ := case_tables
  unfold lowerCase
  split
  · next h =>
    rw [List.mem_singleton]
    exact (colon_ascii h hc).1
  · exact colon_mapCase (List.forall_mem_append.mp hspecial).1 (List.forall_mem_append.mp hshifts).1 hc

theorem colon_titleCase {c : Char} (hc : ':' ≠ c) : ':' ∉ titleCase c := by
  obtain ⟨hspecial, hshifts⟩ := case_tables
  unfold titleCase
  split
  · next h =>
    rw [List.mem_singleton]
    exact (colon_ascii h hc).2
  · exact colon_mapCase (List.forall_mem_append.mp hspecial).2 (List.forall_mem_append.mp hshifts).2 hc

theorem colon_titleFrom {cs : List Char} : ∀ {before : List Char}, ':' ∉ cs → ':' ∉ titleFrom before cs := by
  induction cs with
  | nil => exact fun h => h
  | cons c cs ih =>
    intro before h
    rw [List.mem_cons, not_or] at h
    rw [titleFrom, List.mem_append, not_or]
    refine ⟨?_, ih h.2⟩
    split
    · unfold lowerWithin
      split
      · split <;> decide
      · exact colon_lowerCase h.1
    · exact colon_titleCase h.1

theorem colon_replaceFrom {old new cs : List Char} (hnew : ':' ∉ new) :
    ∀ skip, ':' ∉ cs → ':' ∉ replaceFrom old new skip cs := by
  induction cs with
  | nil =>
    intro skip h
    cases skip <;> exact h
  | cons c cs ih =>
    intro skip h
    rw [List.mem_cons, not_or] at h
    cases skip with
    | succ skip => exact ih skip h.2
    | zero =>
      rw [replaceFrom]
      split
      · rw [List.mem_append, not_or]
        exact ⟨hnew, ih _ h.2⟩
      · rw [List.mem_cons, not_or]
        exact ⟨h.1, ih 0 h.2⟩

theorem unmarked_normalizeWords {ws : List String} (h : ∀ w ∈ ws, Unmarked w) : Unmarked (normalizeWords ws) := by
  have hjoined : Unmarked (" ".intercalate ws) := unmarked_intercalate (by decide) h
  exact unmarked_ofList.mpr (colon_replaceFrom (by decide) 0 (colon_titleFrom hjoined))

end Name

/-! ### Trees -/

namespace Grammar

/-- Fields of texts that are captured as they stand. -/
def Field.isFree : Field → Bool
  | title | name | recallString => true
  | _ => false

/-- There is no colon in the words of the tree, captured texts in free fields apart. -/
inductive Tree.Unmarked : Tree → Prop
  | absent : Unmarked .absent
  | word {w : String} : Playhouse.Unmarked w → Unmarked (.word w)
  | list {ts : List Tree} : (∀ t ∈ ts, Unmarked t) → Unmarked (.list ts)
  | node {r : Rule} {span : Span} {fields : List (Field × Tree)} :
      (∀ x ∈ fields, x.1.isFree = false → Unmarked x.2) → Unmarked (.node r span fields)

namespace Tree.Unmarked

variable {t : Tree}

theorem field {r : Rule} {span : Span} {fields : List (Field × Tree)} {f : Field}
    (h : (Tree.node r span fields).Unmarked) (hf : f.isFree = false) (ht : fields.lookup f = some t) :
    t.Unmarked := by
  cases h with
  | node hfields => exact hfields _ (mem_of_lookup ht) hf

theorem members {ts : List Tree} (h : (Tree.list ts).Unmarked) : ∀ t ∈ ts, t.Unmarked := by
  cases h with
  | list hts => exact hts

theorem word_of {w : String} (h : t.Unmarked) (hw : t.word? = some w) : Playhouse.Unmarked w := by
  cases h with
  | word hword =>
    cases hw
    exact hword
  | absent => cases hw
  | list _ => cases hw
  | node _ => cases hw

theorem words_of {ws : List String} (h : t.Unmarked) (hws : t.words? = some ws) :
    ∀ w ∈ ws, Playhouse.Unmarked w := by
  cases h with
  | word hword =>
    cases hws
    exact List.forall_mem_singleton.mpr hword
  | list hts =>
    intro w hw
    obtain ⟨u, hu, hword⟩ := exists_of_mapM hws hw
    exact (hts u hu).word_of hword
  | absent => cases hws
  | node _ => cases hws

end Tree.Unmarked

/-! ### Reading -/

/-- Numerals and blanks have no colon. -/
def Pattern.isUnmarked : Pattern → Bool
  | numeral | blanks => true
  | untilStop | throughStop => false

/-- There is no colon in what the phrase puts into fields that are not free and in what it collects, and if
`whole`, none in all that it gives. -/
def Phrase.isUnmarked (whole : Bool) : Phrase → Bool
  | empty | endOfText | notAhead _ => true
  | token letters => !whole || !letters.contains ':'
  | pattern p => !whole || p.isUnmarked
  | call r => !whole || r != .textBeforePunctuation
  | seq p q | alt p q => p.isUnmarked whole && q.isUnmarked whole
  | expect _ p | opt p | many p | many1 p => p.isUnmarked whole
  | label f p => p.isUnmarked whole && (f.isFree || p.isUnmarked true)
  | gather p => p.isUnmarked whole && p.isUnmarked true

theorem isUnmarked_bodies :
    (Rule.all.all fun r => r == .textBeforePunctuation || r.body.isUnmarked r.fields.isEmpty) = true := by
  decide +kernel

theorem isUnmarked_body {r : Rule} (hr : r ≠ .textBeforePunctuation) :
    r.body.isUnmarked r.fields.isEmpty = true := by
  have hall := List.all_eq_true.mp isUnmarked_bodies r r.mem_all
  rw [Bool.or_eq_true, beq_iff_eq] at hall
  exact hall.resolve_left hr

theorem unmarked_pattern {p : Pattern} {cs : List Char} {n : Nat} (hp : p.isUnmarked = true)
    (hn : p.length? cs = some n) : Unmarked (String.ofList (cs.take n)) := by
  rw [unmarked_ofList]
  intro hmem
  cases p with
  | numeral =>
    cases hn
    have hcolon : (numeralLetters.all fun l => !isNumeralLetter l ':') = true := by decide
    obtain ⟨l, hl, hletter⟩ := letter_of_numeral (isNumeral_take cs) hmem
    simpa [hletter] using List.all_eq_true.mp hcolon l hl
  | blanks =>
    cases hn
    rw [← List.prefix_iff_eq_take.mp (List.takeWhile_prefix isBlank)] at hmem
    have hall : (cs.takeWhile isBlank).all isBlank = true := List.all_takeWhile
    exact absurd (List.all_eq_true.mp hall ':' hmem) (by decide)
  | untilStop => cases hp
  | throughStop => cases hp

/-- There is no colon in the trees of the yield: in its fields, in what is collected, and if `whole`, in all of
them. -/
structure Yield.Unmarked (whole : Bool) (y : Yield) : Prop where
  items : whole = true → ∀ t ∈ y.items, t.Unmarked
  fields : ∀ x ∈ y.fields, x.1.isFree = false → x.2.Unmarked
  gathered : ∀ t ∈ y.gathered, t.Unmarked

namespace Yield.Unmarked

variable {whole : Bool} {y z : Yield}

theorem none : Yield.none.Unmarked whole :=
  ⟨fun _ => List.forall_mem_nil _, List.forall_mem_nil _, List.forall_mem_nil _⟩

theorem one {t : Tree} (h : whole = true → t.Unmarked) : (Yield.one t).Unmarked whole :=
  ⟨fun hwhole _ ht => List.mem_singleton.mp ht ▸ h hwhole, List.forall_mem_nil _, List.forall_mem_nil _⟩

theorem append (hy : y.Unmarked whole) (hz : z.Unmarked whole) : (y.append z).Unmarked whole :=
  ⟨fun hwhole => List.forall_mem_append.mpr ⟨hy.items hwhole, hz.items hwhole⟩,
    List.forall_mem_append.mpr ⟨hy.fields, hz.fields⟩, List.forall_mem_append.mpr ⟨hy.gathered, hz.gathered⟩⟩

theorem tree (h : y.Unmarked true) : y.tree.Unmarked := by
  have hitems := h.items rfl
  unfold Yield.tree
  generalize y.items = ts at hitems
  cases ts with
  | nil => exact .absent
  | cons t ts =>
    cases ts with
    | nil => exact hitems t List.mem_cons_self
    | cons u us => exact .list hitems

theorem repeated {us : List Yield} (h : ∀ u ∈ us, u.Unmarked whole) : (Yield.repeated us).Unmarked whole := by
  refine ⟨fun hwhole t ht => ?_, fun x hx => ?_, fun t ht => ?_⟩
  · subst hwhole
    rw [List.mem_singleton.mp ht]
    refine .list fun u hu => ?_
    obtain ⟨v, hv, rfl⟩ := List.mem_map.mp hu
    exact (h v hv).tree
  · obtain ⟨u, hu, hx⟩ := List.mem_flatMap.mp hx
    exact (h u hu).fields x hx
  · obtain ⟨u, hu, ht⟩ := List.mem_flatMap.mp ht
    exact (h u hu).gathered t ht

theorem ruleTree {r : Rule} {span : Span} (h : y.Unmarked r.fields.isEmpty) : (y.ruleTree r span).Unmarked := by
  unfold Yield.ruleTree
  split
  · next hfields =>
    rw [hfields] at h
    split
    · exact h.tree
    · exact .list h.gathered
  · refine .node fun x hx hfree => ?_
    obtain ⟨f, -, rfl⟩ := List.mem_map.mp hx
    cases hf : y.fields.lookup f with
    | none => exact .absent
    | some t => exact h.fields _ (mem_of_lookup hf) hfree

end Yield.Unmarked

/-- What a phrase gives has no colon where the phrase brings none in, if the rules it calls bring none in. -/
theorem unmarked_of_takes {lx : Lexis} (p : Phrase) : ∀ {whole : Bool} {c y c'}, p.isUnmarked whole = true →
    p.Takes lx (fun r _ t _ => r ≠ .textBeforePunctuation → t.Unmarked) c y c' → y.Unmarked whole := by
  induction p with
  | empty | endOfText | notAhead =>
    rintro whole c y c' - ⟨rfl, -⟩
    exact .none
  | token letters =>
    rintro whole c y c' hp ⟨-, rfl, -⟩
    refine .one fun hwhole => .word (unmarked_ofList.mpr ?_)
    simpa [Phrase.isUnmarked, hwhole] using hp
  | pattern p =>
    rintro whole c y c' hp ⟨n, hn, rfl, -⟩
    refine .one fun hwhole => .word (unmarked_pattern ?_ hn)
    simpa [Phrase.isUnmarked, hwhole] using hp
  | call r =>
    rintro whole c y c' hp ⟨t, ht, rfl⟩
    refine .one fun hwhole => ht ?_
    simpa [Phrase.isUnmarked, hwhole] using hp
  | seq p q ihp ihq =>
    rintro whole c y c' hp ⟨u, v, c₁, hu, hv, rfl⟩
    obtain ⟨hp, hq⟩ := Bool.and_eq_true_iff.mp hp
    exact (ihp hp hu).append (ihq hq hv)
  | alt p q ihp ihq =>
    rintro whole c y c' hp (h | h)
    · exact ihp (Bool.and_eq_true_iff.mp hp).1 h
    · exact ihq (Bool.and_eq_true_iff.mp hp).2 h
  | expect expected p ih => exact fun hp h => ih hp h
  | opt p ih =>
    rintro whole c y c' hp (h | ⟨rfl, -⟩)
    · exact ih hp h
    · exact .none
  | many p ih =>
    rintro whole c y c' hp ⟨us, hus, rfl⟩
    exact .repeated (hus.each (G := Yield.Unmarked whole) (ih hp))
  | many1 p ih =>
    rintro whole c y c' hp ⟨u, us, c₁, hu, hus, rfl⟩
    exact .repeated (List.forall_mem_cons.mpr ⟨ih hp hu, hus.each (G := Yield.Unmarked whole) (ih hp)⟩)
  | label f p ih =>
    rintro whole c y c' hp ⟨u, hu, rfl⟩
    obtain ⟨hp, hfree⟩ := Bool.and_eq_true_iff.mp hp
    have hy := ih hp hu
    refine ⟨hy.items, List.forall_mem_append.mpr ⟨hy.fields, List.forall_mem_singleton.mpr fun hf => ?_⟩,
      hy.gathered⟩
    rw [hf, Bool.false_or] at hfree
    exact (ih hfree hu).tree
  | gather p ih =>
    rintro whole c y c' hp ⟨u, hu, rfl⟩
    obtain ⟨hp, hwhole⟩ := Bool.and_eq_true_iff.mp hp
    have hy := ih hp hu
    exact ⟨hy.items, hy.fields,
      List.forall_mem_append.mpr ⟨hy.gathered, List.forall_mem_singleton.mpr (ih hwhole hu).tree⟩⟩

/-- The trees of all rules but the one that captures text have no colon, what is in free fields apart. -/
theorem unmarked_of_read {lx : Lexis} {depth : Nat} {stack : List Rule} {r : Rule} {c c' : Cursor}
    {seen seen' : Option Failure} {t : Tree} (h : Rule.read lx depth stack r c seen = .done t c' seen')
    (hr : r ≠ .textBeforePunctuation) : t.Unmarked :=
  taken_of_read (R := fun r _ t _ => r ≠ .textBeforePunctuation → t.Unmarked)
    (fun hy hr => (unmarked_of_takes _ (isUnmarked_body hr) hy).ruleTree) depth h hr

end Grammar

/-! ### Plays -/

/-- There is no colon in the names and the numeral that are told of the deed. -/
def Deed.Unmarked : Deed → Prop
  | enter names | exeunt names => ∀ name ∈ names, Playhouse.Unmarked name
  | exit name => Playhouse.Unmarked name
  | speak _ _ (.goto _ numeral) => Playhouse.Unmarked numeral
  | speak _ _ _ | exeuntAll | breakpoint => True

section Plays

variable {t : Grammar.Tree}

theorem unmarked_of_names {names : List (List String)} (h : t.Unmarked) (hnames : namesOfTree? t = some names) :
    ∀ name ∈ names.map Name.normalizeWords, Unmarked name := by
  simp only [namesOfTree?, Option.bind_eq_bind, Option.bind_eq_some_iff] at hnames
  obtain ⟨ts, hts, hnames⟩ := hnames
  intro name hname
  obtain ⟨ws, hws, rfl⟩ := List.mem_map.mp hname
  obtain ⟨u, hu, hwords⟩ := exists_member Tree.Unmarked.members h hts hnames hws
  exact Name.unmarked_normalizeWords (hu.words_of hwords)

theorem unmarked_of_sentence {s : Sentence} (speaker : String) (h : t.Unmarked)
    (hs : Sentence.ofTree? t = some s) :
    (Operation.ofSentence speaker s).deed.Unmarked := by
  unfold Sentence.ofTree? at hs
  split at hs
  · simp only [Option.bind_eq_bind, Option.bind_eq_some_iff, Option.pure_def, Option.some.injEq] at hs
    obtain ⟨_, _, _, _, u, hu, a, ha, rfl⟩ := hs
    cases a with
    | goto target numeral =>
      have hgoto : u.Unmarked := h.field rfl hu
      unfold Action.ofTree? at ha
      split at ha
      all_goals
        simp only [Option.bind_eq_bind, Option.bind_eq_some_iff, Option.pure_def, Option.some.injEq,
          Option.map_eq_some_iff, reduceCtorEq, and_false, exists_false] at ha
      obtain ⟨_, _, _, _, _, _, v, hv, w, hw, _, hnumeral, heq⟩ := ha
      obtain ⟨-, rfl⟩ := Action.goto.inj heq
      cases v with
      | node r span fields => exact ((hgoto.field rfl hv).field rfl hw).word_of hnumeral
      | absent | word _ | list _ => cases hw
    | question comparison words x y | assignment x | input medium | output medium | push x | pop recalled =>
      trivial
  · cases hs

theorem unmarked_of_event {e : Event} {op : Operation} (h : t.Unmarked) (he : Event.ofTree? t = some e)
    (hop : op ∈ Operation.ofEvent e) : op.deed.Unmarked := by
  unfold Event.ofTree? at he
  split at he
  · simp only [Option.bind_eq_bind, Option.bind_eq_some_iff, Option.pure_def, Option.some.injEq] at he
    obtain ⟨_, _, _, _, u, hu, us, hus, ss, hss, rfl⟩ := he
    obtain ⟨s, hs, rfl⟩ := List.mem_map.mp hop
    obtain ⟨v, hv, hsentence⟩ := exists_member Tree.Unmarked.members (h.field rfl hu) hus hss hs
    exact unmarked_of_sentence _ hv hsentence
  · cases he
    rw [List.mem_singleton.mp hop]
    trivial
  · simp only [Option.bind_eq_bind, Option.bind_eq_some_iff, Option.pure_def, Option.some.injEq] at he
    obtain ⟨u, hu, names, hnames, rfl⟩ := he
    rw [List.mem_singleton.mp hop]
    exact unmarked_of_names (h.field rfl hu) hnames
  · simp only [Option.bind_eq_bind, Option.bind_eq_some_iff, Option.pure_def, Option.some.injEq] at he
    obtain ⟨u, hu, ws, hws, rfl⟩ := he
    rw [List.mem_singleton.mp hop]
    exact Name.unmarked_normalizeWords ((h.field rfl hu).words_of hws)
  · simp only [Option.bind_eq_bind, Option.bind_eq_some_iff] at he
    obtain ⟨u, hu, he⟩ := he
    split at he
    · cases he
      rw [List.mem_singleton.mp hop]
      trivial
    · simp only [Option.bind_eq_some_iff, Option.pure_def, Option.some.injEq] at he
      obtain ⟨names, hnames, rfl⟩ := he
      rw [List.mem_singleton.mp hop]
      exact unmarked_of_names (h.field rfl hu) hnames
  · cases he

theorem unmarked_of_cast {play : Play} (h : t.Unmarked) (hplay : Play.ofTree? t = some play) :
    ∀ name ∈ play.castNames, Unmarked name := by
  unfold Play.ofTree? at hplay
  split at hplay
  · simp only [Option.bind_eq_bind, Option.bind_eq_some_iff, Option.pure_def, Option.some.injEq] at hplay
    obtain ⟨_, _, _, _, u, hu, us, hus, ps, hps, _, _, _, _, _, _, rfl⟩ := hplay
    intro name hname
    obtain ⟨persona, hpersona, rfl⟩ := List.mem_map.mp hname
    obtain ⟨v, hv, hof⟩ := exists_member Tree.Unmarked.members (h.field rfl hu) hus hps hpersona
    unfold Persona.ofTree? at hof
    split at hof
    · simp only [Option.bind_eq_bind, Option.bind_eq_some_iff, Option.pure_def, Option.some.injEq] at hof
      obtain ⟨w, hw, ws, hws, rfl⟩ := hof
      exact Name.unmarked_normalizeWords ((hv.field rfl hw).words_of hws)
    · cases hof
  · cases hplay

end Plays

/-- **Names and numerals have no colon.** However a play is written, there is none in the names of its cast, in
those that its stage directions name and in the numerals of its jumps. -/
theorem unmarked_of_play {text : List Char} {play : Play} (h : readAs .play Play.ofTree? text = .ok play) :
    (∀ name ∈ play.castNames, Unmarked name) ∧ ∀ op ∈ play.acts.flatMap Act.operations, op.deed.Unmarked := by
  obtain ⟨t, c, seen, hread, hplay⟩ := exists_tree_of_readAs h
  have ht : t.Unmarked := unmarked_of_read hread (by decide)
  refine ⟨unmarked_of_cast ht hplay, fun op hop => ?_⟩
  have hfree : ∀ f ∈ [Field.acts, .scenes, .events], f.isFree = false := by decide
  obtain ⟨u, e, hu, he, hop⟩ :=
    event_of_play Tree.Unmarked.members (fun h hf ht => h.field (hfree _ hf) ht) ht hplay hop
  exact unmarked_of_event hu he hop

end Playhouse
