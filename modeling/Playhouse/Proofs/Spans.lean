import Playhouse.Proofs.Excerpts
import Playhouse.Proofs.Preparation
import Playhouse.Proofs.Remembering
import Playhouse.Proofs.Wording

/-!
# Playhouse.Proofs.Spans — where operations are written

Sentences and stage directions end in a mark: a stop, an exclamation mark, a question mark or a bracket. Values end
in a word. So whatever stands before and after them, their spans are stretches of the text that do not end in a
blank, and every operation of a play that was read from a text can be shown in that text, with the values it speaks
of, which are written inside of it. Main statement: `written_of_readAs`.
-/

namespace Playhouse.Grammar

open Text Source

/-! ### Phrases that end in a mark or in a word -/

/-- The marks that sentences and stage directions end in, and the letters that words end in. -/
def endings : List Char := "!.?]Iabcdefghijklmnopqrstuvwxyz".toList

/-- Sentences, what they say, the values they speak of, and stage directions. -/
def Rule.isClosed : Rule → Bool
  | question | assignment | goto | output | input | push | pop | sentence => true
  | breakpoint | entrance | exit | exeunt => true
  | value | expression | unaryExpression | binaryExpression | nounPhrase | negativeNounPhrase |
      positiveNounPhrase => true
  | negativeNoun | neutralNoun | positiveNoun | positiveOrNeutralNoun | character | characterName | nothing => true
  | firstPersonValue | firstPerson | firstPersonReflexive => true
  | secondPersonValue | secondPerson | secondPersonReflexive => true
  | _ => false

/-- The phrase ends in a mark or a letter, whichever way it is read. -/
def Phrase.isClosed : Phrase → Bool
  | token letters => letters.getLast?.any (endings.contains ·)
  | call r => r.isClosed
  | seq _ q => q.isClosed
  | alt p q => p.isClosed && q.isClosed
  | expect _ p | label _ p | gather p => p.isClosed
  | empty | pattern _ | endOfText | opt _ | many _ | many1 _ | notAhead _ => false

theorem isClosed_body (r : Rule) : r.isClosed = true → r.body.isClosed = true := by
  cases r <;> decide +kernel

theorem not_blank_of_ending {m c : Char} (hm : m ∈ endings) (h : sameLetter m c = true) : isBlank c = false :=
  isBlank_eq_false_of (f := fun c => endings.any fun m => sameLetter m c) (by decide +kernel)
    (List.any_eq_true.mpr ⟨m, hm, h⟩)

theorem letter_of_beginsWith {ts : List Char} : ∀ {cs : List Char} {k : Nat} {m : Char}, beginsWith ts cs = true →
    ts[k]? = some m → ∃ c, cs[k]? = some c ∧ sameLetter m c = true := by
  induction ts with
  | nil => exact fun _ hk => nomatch hk
  | cons t ts ih =>
    intro cs k m h hk
    cases cs with
    | nil => cases h
    | cons c cs =>
      obtain ⟨hc, hcs⟩ := Bool.and_eq_true_iff.mp h
      cases k with
      | zero =>
        cases hk
        exact ⟨c, rfl, hc⟩
      | succ k =>
        obtain ⟨d, hd, hsame⟩ := ih hcs (show ts[k]? = some m from hk)
        exact ⟨d, hd, hsame⟩

/-! ### Cursors of a text -/

/-- The cursor stands in the text. -/
structure Cursor.Of (c : Cursor) (text : List Char) : Prop where
  le : c.pos ≤ text.length
  rest : c.rest = text.drop c.pos

namespace Cursor.Of

variable {c : Cursor} {text : List Char}

theorem start (text : List Char) : (Cursor.start text).Of text := ⟨Nat.zero_le _, rfl⟩

theorem advance (h : c.Of text) {n : Nat} (hn : n ≤ c.rest.length) : (c.advance n).Of text := by
  rw [h.rest, List.length_drop] at hn
  have hle := h.le
  refine ⟨?_, ?_⟩
  · show c.pos + n ≤ text.length
    omega
  · show c.rest.drop n = text.drop (c.pos + n)
    rw [h.rest, List.drop_drop]

theorem skip (h : c.Of text) (lx : Lexis) : (c.skip lx).Of text := h.advance (List.takeWhile_prefix _).length_le

end Cursor.Of

/-- Reading has come from one cursor of a text to another, past a mark or a word if `closed`. -/
structure Passed (text : List Char) (closed : Bool) (c c' : Cursor) : Prop where
  here : c'.Of text
  le : c.pos ≤ c'.pos
  solid : closed = true → Solid text ⟨c.pos, c'.pos⟩

namespace Passed

variable {text : List Char} {a b : Bool} {c c' c'' : Cursor}

theorem stay (h : c.Of text) : Passed text false c c := ⟨h, Nat.le_refl _, fun h => nomatch h⟩

theorem weaken (h : Passed text a c c') : Passed text false c c' := ⟨h.here, h.le, fun h => nomatch h⟩

/-- The end of the second part is the end of both. -/
theorem trans (h : Passed text a c c') (h' : Passed text b c' c'') : Passed text b c c'' := by
  refine ⟨h'.here, Nat.le_trans h.le h'.le, fun hb => ?_⟩
  have hsolid := h'.solid hb
  exact ⟨Nat.lt_of_le_of_lt h.le hsolid.lt, hsolid.le, hsolid.inked⟩

theorem advance (h : c.Of text) {n : Nat} (hn : n ≤ c.rest.length) : Passed text false c (c.advance n) :=
  ⟨h.advance hn, Nat.le_add_right _ _, fun h => nomatch h⟩

theorem skip (h : c.Of text) (lx : Lexis) : Passed text false c (c.skip lx) :=
  advance h (List.takeWhile_prefix _).length_le

end Passed

/-- A word is passed with all its letters, and with the mark or letter at its end. -/
theorem passed_token {text letters : List Char} {c : Cursor} (h : c.Of text)
    (hbegins : beginsWith letters c.rest = true) :
    Passed text (Phrase.token letters).isClosed c (c.advance letters.length) := by
  have hlength := length_le_of_beginsWith hbegins
  refine ⟨h.advance hlength, Nat.le_add_right _ _, fun hclosed => ?_⟩
  unfold Phrase.isClosed at hclosed
  cases hlast : letters.getLast? with
  | none =>
    rw [hlast] at hclosed
    cases hclosed
  | some m =>
    rw [hlast, Option.any_some, List.contains_iff_mem] at hclosed
    rw [List.getLast?_eq_getElem?] at hlast
    obtain ⟨d, hd, hsame⟩ := letter_of_beginsWith hbegins hlast
    have hpos : 0 < letters.length := by
      obtain ⟨hlt, -⟩ := List.getElem?_eq_some_iff.mp hlast
      omega
    rw [h.rest, List.getElem?_drop] at hd
    refine ⟨Nat.lt_add_of_pos_right hpos, (h.advance hlength).le, d, ?_, not_blank_of_ending hclosed hsame⟩
    rw [← hd]
    show text[c.pos + letters.length - 1]? = _
    congr 1
    omega

/-! ### Trees -/

/-- A stretch of the text that does not end in a blank, from `lo` on and not beyond `hi`. -/
structure Located (text : List Char) (lo hi : Nat) (s : Span) : Prop where
  solid : Solid text s
  start : lo ≤ s.start
  stop : s.stop ≤ hi

/-- The tree was read between `lo` and `hi`: the spans of its nodes lie there, and those of the nodes inside of
them in turn. Sentences, values and stage directions are solid. -/
inductive Tree.Written (text : List Char) : Nat → Nat → Tree → Prop
  | absent {lo hi : Nat} : Written text lo hi .absent
  | word {lo hi : Nat} (w : String) : Written text lo hi (.word w)
  | list {lo hi : Nat} {ts : List Tree} : (∀ t ∈ ts, Written text lo hi t) → Written text lo hi (.list ts)
  | node {lo hi : Nat} {r : Rule} {span : Span} {fields : List (Field × Tree)} : lo ≤ span.start → span.stop ≤ hi →
      (r.isClosed = true → Solid text span) → (∀ x ∈ fields, Written text span.start span.stop x.2) →
        Written text lo hi (.node r span fields)

/-- All trees of the yield were read between `lo` and `hi`. -/
structure Yield.Written (text : List Char) (lo hi : Nat) (y : Yield) : Prop where
  items : ∀ t ∈ y.items, t.Written text lo hi
  fields : ∀ x ∈ y.fields, x.2.Written text lo hi
  gathered : ∀ t ∈ y.gathered, t.Written text lo hi

section Writing

variable {text : List Char} {lo lo' hi hi' : Nat} {y z : Yield}

theorem Tree.Written.mono {t : Tree} (h : t.Written text lo hi) (hlo : lo' ≤ lo) (hhi : hi ≤ hi') :
    t.Written text lo' hi' := by
  induction h with
  | absent => exact .absent
  | word w => exact .word w
  | list _ ih => exact .list fun t ht => ih t ht hlo hhi
  | node hstart hstop hsolid hfields _ =>
    exact .node (Nat.le_trans hlo hstart) (Nat.le_trans hstop hhi) hsolid hfields

theorem Yield.Written.mono (h : y.Written text lo hi) (hlo : lo' ≤ lo) (hhi : hi ≤ hi') : y.Written text lo' hi' :=
  ⟨fun t ht => (h.items t ht).mono hlo hhi, fun x hx => (h.fields x hx).mono hlo hhi,
    fun t ht => (h.gathered t ht).mono hlo hhi⟩

theorem written_none : Yield.none.Written text lo hi := ⟨nofun, nofun, nofun⟩

theorem written_one {t : Tree} (h : t.Written text lo hi) : (Yield.one t).Written text lo hi :=
  ⟨fun _ ht => List.mem_singleton.mp ht ▸ h, nofun, nofun⟩

theorem written_append (hy : y.Written text lo hi) (hz : z.Written text lo hi) : (y.append z).Written text lo hi :=
  ⟨List.forall_mem_append.mpr ⟨hy.items, hz.items⟩, List.forall_mem_append.mpr ⟨hy.fields, hz.fields⟩,
    List.forall_mem_append.mpr ⟨hy.gathered, hz.gathered⟩⟩

theorem written_tree (h : y.Written text lo hi) : y.tree.Written text lo hi := by
  have hitems := h.items
  unfold Yield.tree
  generalize y.items = ts at hitems
  cases ts with
  | nil => exact .absent
  | cons t ts =>
    cases ts with
    | nil => exact hitems t List.mem_cons_self
    | cons u us => exact .list hitems

theorem written_repeated {us : List Yield} (h : ∀ u ∈ us, u.Written text lo hi) :
    (Yield.repeated us).Written text lo hi := by
  refine ⟨fun t ht => ?_, fun x hx => ?_, fun t ht => ?_⟩
  · rw [List.mem_singleton.mp ht]
    refine .list fun u hu => ?_
    obtain ⟨v, hv, rfl⟩ := List.mem_map.mp hu
    exact written_tree (h v hv)
  · obtain ⟨u, hu, hx⟩ := List.mem_flatMap.mp hx
    exact (h u hu).fields x hx
  · obtain ⟨u, hu, ht⟩ := List.mem_flatMap.mp ht
    exact (h u hu).gathered t ht

theorem written_ruleTree {r : Rule} (h : y.Written text lo hi) (hsolid : r.isClosed = true → Solid text ⟨lo, hi⟩) :
    (y.ruleTree r ⟨lo, hi⟩).Written text lo hi := by
  unfold Yield.ruleTree
  split
  · split
    · exact written_tree h
    · exact .list h.gathered
  · refine .node (Nat.le_refl _) (Nat.le_refl _) hsolid fun x hx => ?_
    obtain ⟨f, -, rfl⟩ := List.mem_map.mp hx
    cases hf : y.fields.lookup f with
    | none => exact .absent
    | some t => exact h.fields _ (mem_of_lookup hf)

end Writing

/-! ### Reading -/

section Reading

variable {text : List Char} {lx : Lexis}

theorem written_of_chain {T : Cursor → Yield → Cursor → Prop}
    (hT : ∀ {c y c'}, c.Of text → T c y c' → y.Written text c.pos c'.pos ∧ Passed text false c c') {c c' : Cursor}
    {us : List Yield} (h : Chain T c us c') :
    c.Of text → (∀ u ∈ us, u.Written text c.pos c'.pos) ∧ Passed text false c c' := by
  induction h with
  | nil c => exact fun hc => ⟨nofun, .stay hc⟩
  | cons hy _ ih =>
    intro hc
    obtain ⟨hwritten, hpassed⟩ := hT hc hy
    obtain ⟨hrest, hpassed'⟩ := ih hpassed.here
    refine ⟨List.forall_mem_cons.mpr ⟨hwritten.mono (Nat.le_refl _) hpassed'.le, fun u hu => ?_⟩,
      hpassed.trans hpassed'⟩
    exact (hrest u hu).mono hpassed.le (Nat.le_refl _)

/-- What is read of a text was read where reading passed, and ends in a mark or a word where it has to. -/
theorem written_of_takes {R : Rule → Cursor → Tree → Cursor → Prop}
    (hR : ∀ {r c t c'}, c.Of text → R r c t c' → t.Written text c.pos c'.pos ∧ Passed text r.isClosed c c')
    (p : Phrase) :
    ∀ {c y c'}, c.Of text → p.Takes lx R c y c' → y.Written text c.pos c'.pos ∧ Passed text p.isClosed c c' := by
  induction p with
  | empty | notAhead =>
    rintro c y c' hc ⟨rfl, rfl⟩
    exact ⟨written_none, .stay hc⟩
  | token letters =>
    rintro c y c' hc ⟨hbegins, rfl, rfl⟩
    exact ⟨written_one (.word _), (Passed.skip hc lx).trans (passed_token (hc.skip lx) hbegins)⟩
  | pattern p =>
    rintro c y c' hc ⟨n, hn, rfl, rfl⟩
    exact ⟨written_one (.word _), .advance hc (Pattern.length?_le hn)⟩
  | endOfText =>
    rintro c y c' hc ⟨rfl, rfl⟩
    exact ⟨written_none, .skip hc lx⟩
  | call r =>
    rintro c y c' hc ⟨t, ht, rfl⟩
    obtain ⟨hwritten, hpassed⟩ := hR hc ht
    exact ⟨written_one hwritten, hpassed⟩
  | seq p q ihp ihq =>
    rintro c y c' hc ⟨u, v, c₁, hu, hv, rfl⟩
    obtain ⟨hwritten, hpassed⟩ := ihp hc hu
    obtain ⟨hwritten', hpassed'⟩ := ihq hpassed.here hv
    refine ⟨written_append ?_ ?_, hpassed.trans hpassed'⟩
    · exact hwritten.mono (Nat.le_refl _) hpassed'.le
    · exact hwritten'.mono hpassed.le (Nat.le_refl _)
  | alt p q ihp ihq =>
    rintro c y c' hc (h | h)
    · obtain ⟨hwritten, hpassed⟩ := ihp hc h
      exact ⟨hwritten, hpassed.here, hpassed.le, fun hclosed => hpassed.solid (Bool.and_eq_true_iff.mp hclosed).1⟩
    · obtain ⟨hwritten, hpassed⟩ := ihq hc h
      exact ⟨hwritten, hpassed.here, hpassed.le, fun hclosed => hpassed.solid (Bool.and_eq_true_iff.mp hclosed).2⟩
  | expect expected p ih => exact fun hc h => ih hc h
  | opt p ih =>
    rintro c y c' hc (h | ⟨rfl, rfl⟩)
    · exact (ih hc h).imp_right Passed.weaken
    · exact ⟨written_none, .stay hc⟩
  | many p ih =>
    rintro c y c' hc ⟨us, hus, rfl⟩
    obtain ⟨hwritten, hpassed⟩ := written_of_chain (fun hc h => (ih hc h).imp_right Passed.weaken) hus hc
    exact ⟨written_repeated hwritten, hpassed⟩
  | many1 p ih =>
    rintro c y c' hc ⟨u, us, c₁, hu, hus, rfl⟩
    have hchain : Chain (p.Takes lx R) c (u :: us) c' := .cons hu hus
    obtain ⟨hwritten, hpassed⟩ := written_of_chain (fun hc h => (ih hc h).imp_right Passed.weaken) hchain hc
    exact ⟨written_repeated hwritten, hpassed⟩
  | label f p ih =>
    rintro c y c' hc ⟨u, hu, rfl⟩
    obtain ⟨hwritten, hpassed⟩ := ih hc hu
    refine ⟨⟨hwritten.items, ?_, hwritten.gathered⟩, hpassed⟩
    exact List.forall_mem_append.mpr
      ⟨hwritten.fields, fun x hx => List.mem_singleton.mp hx ▸ written_tree hwritten⟩
  | gather p ih =>
    rintro c y c' hc ⟨u, hu, rfl⟩
    obtain ⟨hwritten, hpassed⟩ := ih hc hu
    refine ⟨⟨hwritten.items, hwritten.fields, ?_⟩, hpassed⟩
    exact List.forall_mem_append.mpr
      ⟨hwritten.gathered, fun x hx => List.mem_singleton.mp hx ▸ written_tree hwritten⟩

/-- The spans of sentences, values and stage directions of a text are solid, and lie inside of each other as the
trees do. -/
theorem written_of_rule (depth : Nat) {stack : List Rule} {r : Rule} {c c' : Cursor} {seen seen' : Option Failure}
    {t : Tree} (hc : c.Of text) (h : Rule.read lx depth stack r c seen = .done t c' seen') :
    t.Written text c.pos c'.pos ∧ Passed text r.isClosed c c' := by
  refine taken_of_read (R := fun r c t c' => c.Of text → t.Written text c.pos c'.pos ∧ Passed text r.isClosed c c')
    ?_ depth h hc
  intro r c y c' hy hc
  obtain ⟨hwritten, hpassed⟩ := written_of_takes (fun hc ht => ht hc) _ (hc.skip lx) hy
  have hskip := Passed.skip hc lx
  have hfrom := hskip.trans hpassed
  have hsolid : r.isClosed = true → Solid text ⟨c.pos, c'.pos⟩ := fun hr => hfrom.solid (isClosed_body r hr)
  exact ⟨written_ruleTree (hwritten.mono hskip.le (Nat.le_refl _)) hsolid, hfrom.here, hfrom.le, hsolid⟩

end Reading

/-! ### From trees to operations -/

section Parts

variable {text : List Char} {lo hi : Nat} {r : Rule} {s x : Span} {fields : List (Field × Tree)} {t : Tree}

theorem Tree.Written.here (h : (Tree.node r s fields).Written text lo hi) (hr : r.isClosed = true) :
    Located text lo hi s := by
  cases h with
  | node hstart hstop hsolid _ => exact ⟨hsolid hr, hstart, hstop⟩

theorem Tree.Written.field {f : Field} (h : (Tree.node r s fields).Written text lo hi)
    (hf : fields.lookup f = some t) : t.Written text s.start s.stop := by
  cases h with
  | node _ _ _ hfields => exact hfields _ (mem_of_lookup hf)

/-- What lies in a part of a tree lies where the tree does. -/
theorem Tree.Written.inside (h : (Tree.node r s fields).Written text lo hi) (hx : Located text s.start s.stop x) :
    Located text lo hi x := by
  cases h with
  | node hstart hstop _ _ => exact ⟨hx.solid, Nat.le_trans hstart hx.start, Nat.le_trans hx.stop hstop⟩

theorem Tree.Written.members {ts : List Tree} (h : (Tree.list ts).Written text lo hi) :
    ∀ t ∈ ts, t.Written text lo hi := by
  cases h with
  | list hts => exact hts

end Parts

end Playhouse.Grammar

namespace Playhouse

open Grammar Source

/-- Where an expression and its parts are written. -/
def Expression.spans : Expression → List Span
  | firstPerson s | secondPerson s | character s _ | nounPhrase s _ _ _ | nothing s _ => [s]
  | unary s _ x _ => s :: x.spans
  | binary s _ x y _ => s :: (x.spans ++ y.spans)

/-- Where the values are written that an action speaks of. -/
def Action.spans : Action Expression → List Span
  | question _ _ x y => x.spans ++ y.spans
  | assignment x | push x => x.spans
  | input _ | output _ | pop _ | goto _ _ => []

/-- Where an operation is written, and the values that it speaks of. -/
def Operation.spans (op : Operation) : List Span :=
  op.span ::
    match op.deed with
    | .speak _ _ a => a.spans
    | _ => []

theorem Expression.spans_forget (e : Expression) : e.forget.spans = e.spans := by
  induction e with
  | firstPerson s | secondPerson s | character s name | nounPhrase s sign k memo | nothing s memo => rfl
  | unary s op x memo ih => simp only [forget, spans, ih]
  | binary s op x y memo ihx ihy => simp only [forget, spans, ihx, ihy]

theorem Operation.spans_forget (op : Operation) : op.forget.spans = op.spans := by
  obtain ⟨span, deed⟩ := op
  cases deed with
  | speak speaker condition a =>
    cases a with
    | question comparison words x y =>
      show span :: (x.forget.spans ++ y.forget.spans) = span :: (x.spans ++ y.spans)
      rw [x.spans_forget, y.spans_forget]
    | assignment x | push x =>
      show span :: x.forget.spans = span :: x.spans
      rw [x.spans_forget]
    | input medium | output medium | pop recalled | goto target numeral => rfl
  | enter names | exit name | exeunt names | exeuntAll | breakpoint => rfl

section Operations

variable {text : List Char} {lo hi : Nat} {t : Tree}

/-- A value is written in words, and so are its parts. -/
theorem located_of_value (h : t.Written text lo hi) : ∀ {v : Value}, Value.ofTree? t = some v →
    ∀ s ∈ (Expression.ofValue v).spans, Located text lo hi s := by
  induction t using Value.ofTree?.induct generalizing lo hi with
  | case1 span fields | case2 span fields | case3 span fields | case6 span fields =>
    intro v hv
    unfold Value.ofTree? at hv
    simp only [Option.bind_eq_bind, Option.bind_eq_some_iff, Option.pure_def, Option.some.injEq] at hv
    obtain ⟨_, _, _, _, rfl⟩ := hv
    exact List.forall_mem_singleton.mpr (h.here rfl)
  | case4 span fields | case5 span fields =>
    intro v hv
    unfold Value.ofTree? Value.nounPhraseOf? at hv
    simp only [Option.bind_eq_bind, Option.bind_eq_some_iff, Option.pure_def, Option.some.injEq] at hv
    obtain ⟨_, _, _, _, _, _, _, _, _, _, rfl⟩ := hv
    exact List.forall_mem_singleton.mpr (h.here rfl)
  | case7 span fields hx =>
    intro v hv
    unfold Value.ofTree? at hv
    split at hv
    · cases hv
    · next heq =>
      rw [hx] at heq
      cases heq
  | case8 span fields x hx ih =>
    intro v hv
    unfold Value.ofTree? at hv
    split at hv
    · cases hv
    · next heq =>
      cases hx.symm.trans heq
      simp only [Option.bind_eq_bind, Option.bind_eq_some_iff, Option.pure_def, Option.some.injEq] at hv
      obtain ⟨_, _, _, _, _, _, w, hw, rfl⟩ := hv
      exact List.forall_mem_cons.mpr ⟨h.here rfl, fun s hs => h.inside (ih (h.field hx) hw s hs)⟩
  | case9 span fields x y hx hy ihx ihy =>
    intro v hv
    unfold Value.ofTree? at hv
    split at hv
    · next heq heq' =>
      cases hx.symm.trans heq
      cases hy.symm.trans heq'
      simp only [Option.bind_eq_bind, Option.bind_eq_some_iff, Option.pure_def, Option.some.injEq] at hv
      obtain ⟨_, _, _, _, _, _, w, hw, w', hw', rfl⟩ := hv
      refine List.forall_mem_cons.mpr ⟨h.here rfl, List.forall_mem_append.mpr ?_⟩
      exact ⟨fun s hs => h.inside (ihx (h.field hx) hw s hs), fun s hs => h.inside (ihy (h.field hy) hw' s hs)⟩
    · cases hv
  | case10 span fields hxy =>
    intro v hv
    unfold Value.ofTree? at hv
    split at hv
    · next heq heq' => exact absurd heq' (hxy _ _ heq)
    · cases hv
  | case11 t h1 h2 h3 h4 h5 h6 h7 h8 =>
    intro v hv
    rw [Value.ofTree?.eq_9 t h1 h2 h3 h4 h5 h6 h7 h8] at hv
    cases hv

theorem located_of_action {a : Action Value} (h : t.Written text lo hi) (ha : Action.ofTree? t = some a) :
    ∀ s ∈ (a.map Expression.ofValue).spans, Located text lo hi s := by
  unfold Action.ofTree? at ha
  split at ha
  · simp only [Option.bind_eq_bind, Option.bind_eq_some_iff, Option.pure_def, Option.some.injEq] at ha
    obtain ⟨_, _, _, _, x, hx, v, hv, y, hy, w, hw, rfl⟩ := ha
    refine List.forall_mem_append.mpr ⟨fun s hs => h.inside ?_, fun s hs => h.inside ?_⟩
    · exact located_of_value (h.field hx) hv s hs
    · exact located_of_value (h.field hy) hw s hs
  · simp only [Option.bind_eq_bind, Option.bind_eq_some_iff, Option.pure_def, Option.some.injEq] at ha
    obtain ⟨x, hx, v, hv, rfl⟩ := ha
    exact fun s hs => h.inside (located_of_value (h.field hx) hv s hs)
  · obtain ⟨medium, -, rfl⟩ := Option.map_eq_some_iff.mp ha
    exact nofun
  · obtain ⟨medium, -, rfl⟩ := Option.map_eq_some_iff.mp ha
    exact nofun
  · simp only [Option.bind_eq_bind, Option.bind_eq_some_iff, Option.pure_def, Option.some.injEq] at ha
    obtain ⟨x, hx, v, hv, rfl⟩ := ha
    exact fun s hs => h.inside (located_of_value (h.field hx) hv s hs)
  · simp only [Option.bind_eq_bind, Option.bind_eq_some_iff, Option.pure_def, Option.some.injEq] at ha
    obtain ⟨_, _, _, _, rfl⟩ := ha
    exact nofun
  · simp only [Option.bind_eq_bind, Option.bind_eq_some_iff, Option.pure_def, Option.some.injEq] at ha
    obtain ⟨_, _, _, _, _, _, _, _, _, _, _, _, rfl⟩ := ha
    exact nofun
  · cases ha

/-- The operation is written in the text, and the values that it speaks of inside of it. -/
def Operation.IsWritten (text : List Char) (op : Operation) : Prop :=
  ∀ s ∈ op.spans, Located text op.span.start op.span.stop s

theorem written_of_sentence {s : Sentence} (speaker : String) (h : t.Written text lo hi)
    (hs : Sentence.ofTree? t = some s) : (Operation.ofSentence speaker s).IsWritten text := by
  unfold Sentence.ofTree? at hs
  split at hs
  · next span fields =>
    simp only [Option.bind_eq_bind, Option.bind_eq_some_iff, Option.pure_def, Option.some.injEq] at hs
    obtain ⟨_, _, _, _, u, hu, a, ha, rfl⟩ := hs
    have hsolid := (h.here rfl).solid
    exact List.forall_mem_cons.mpr ⟨⟨hsolid, Nat.le_refl _, Nat.le_refl _⟩, located_of_action (h.field hu) ha⟩
  · cases hs

/-- A stage direction is written where its tree is. -/
theorem written_of_direction {r : Rule} {span : Span} {fields : List (Field × Grammar.Tree)} {deed : Deed}
    (h : (Grammar.Tree.node r span fields).Written text lo hi) (hr : r.isClosed = true)
    (hdeed : ∀ speaker condition a, deed ≠ .speak speaker condition a) :
    Operation.IsWritten text ⟨span, deed⟩ := by
  have hhere : Located text span.start span.stop span := ⟨(h.here hr).solid, Nat.le_refl _, Nat.le_refl _⟩
  cases deed with
  | speak speaker condition a => exact absurd rfl (hdeed speaker condition a)
  | enter names | exit name | exeunt names | exeuntAll | breakpoint => exact List.forall_mem_singleton.mpr hhere

theorem written_of_event {e : Event} {op : Operation} (h : t.Written text lo hi) (he : Event.ofTree? t = some e)
    (hop : op ∈ Operation.ofEvent e) : op.IsWritten text := by
  unfold Event.ofTree? at he
  split at he
  · next span fields =>
    simp only [Option.bind_eq_bind, Option.bind_eq_some_iff, Option.pure_def, Option.some.injEq] at he
    obtain ⟨_, _, _, _, u, hu, us, hus, ss, hss, rfl⟩ := he
    obtain ⟨s, hs, rfl⟩ := List.mem_map.mp hop
    obtain ⟨v, hv, hsentence⟩ := exists_member Tree.Written.members (h.field hu) hus hss hs
    exact written_of_sentence _ hv hsentence
  · cases he
    rw [List.mem_singleton.mp hop]
    exact written_of_direction h rfl nofun
  · simp only [Option.bind_eq_bind, Option.bind_eq_some_iff, Option.pure_def, Option.some.injEq] at he
    obtain ⟨_, _, _, _, rfl⟩ := he
    rw [List.mem_singleton.mp hop]
    exact written_of_direction h rfl nofun
  · simp only [Option.bind_eq_bind, Option.bind_eq_some_iff, Option.pure_def, Option.some.injEq] at he
    obtain ⟨_, _, _, _, rfl⟩ := he
    rw [List.mem_singleton.mp hop]
    exact written_of_direction h rfl nofun
  · simp only [Option.bind_eq_bind, Option.bind_eq_some_iff] at he
    obtain ⟨u, hu, he⟩ := he
    split at he
    · cases he
      rw [List.mem_singleton.mp hop]
      exact written_of_direction h rfl nofun
    · simp only [Option.bind_eq_some_iff, Option.pure_def, Option.some.injEq] at he
      obtain ⟨_, _, rfl⟩ := he
      rw [List.mem_singleton.mp hop]
      exact written_of_direction h rfl nofun
  · cases he

end Operations

/-- **Every operation can be shown.** The operations of a play are written in stretches of its text that do not end
in a blank, and the values that they speak of in such stretches inside of them. -/
theorem written_of_readAs {text : List Char} {play : Play} (h : readAs .play Play.ofTree? text = .ok play)
    {op : Operation} (hop : op ∈ play.acts.flatMap Act.operations) : op.IsWritten text := by
  obtain ⟨t, c, seen, hread, hplay⟩ := exists_tree_of_readAs h
  obtain ⟨hwritten, -⟩ := written_of_rule (callDepth text) (Cursor.Of.start text) hread
  obtain ⟨u, e, ⟨lo, hi, hu⟩, he, hop⟩ := event_of_play (W := fun t => ∃ lo hi, t.Written text lo hi)
    (fun ⟨lo, hi, h⟩ t ht => ⟨lo, hi, h.members t ht⟩) (fun ⟨_, _, h⟩ _ ht => ⟨_, _, h.field ht⟩)
    ⟨_, _, hwritten⟩ hplay hop
  exact written_of_event hu he hop

/-- Whatever a performance of the text has come to, its operations are written there. -/
theorem written_of_script {text : List Char} {play : Play} {s : Script}
    (h : readAs .play Play.ofTree? text = .ok play) (hs : s.forget = Script.ofActs text play.acts) {n : Int}
    {op : Operation} (hop : s.operation? n = some op) : op.IsWritten text := by
  have hmem : op.forget ∈ play.acts.flatMap Act.operations := by
    rw [show play.acts.flatMap Act.operations = s.operations.map Operation.forget from
      (congrArg Script.operations hs).symm]
    exact List.mem_map_of_mem (List.mem_of_getElem? (clampIndex_of_at? hop))
  have hwritten := written_of_readAs h hmem
  unfold Operation.IsWritten at hwritten
  rw [op.spans_forget] at hwritten
  exact hwritten

theorem solid_of_script {text : List Char} {play : Play} {s : Script}
    (h : readAs .play Play.ofTree? text = .ok play) (hs : s.forget = Script.ofActs text play.acts) {n : Int}
    {op : Operation} (hop : s.operation? n = some op) : ∀ x ∈ op.spans, Solid text x :=
  fun x hx => (written_of_script h hs hop x hx).solid

/-- In whatever a performance of the text has come to, its operations can be shown. -/
theorem exists_showSpan_of_script {text : List Char} {play : Play} {s : Script}
    (h : readAs .play Play.ofTree? text = .ok play) (hs : s.forget = Script.ofActs text play.acts) {n : Int}
    {op : Operation} (hop : s.operation? n = some op) (amount : Int) :
    ∃ context, showSpan s.source op.span amount = .ok context := by
  have hsource : s.source = text := congrArg Script.source hs
  rw [hsource]
  exact exists_showSpan (solid_of_script h hs hop op.span List.mem_cons_self) amount

end Playhouse
