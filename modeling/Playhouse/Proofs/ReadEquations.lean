import Playhouse.Grammar.Reading

/-!
# Playhouse.Proofs.ReadEquations — how a phrase is read from its parts

Reading a phrase is reading its parts one after the other, or the second where the first cannot be read: `andThen`
and `orElse`. There is one equation for each form of phrases, and what was read in the end tells what was read on
the way (`done_of_andThen`, `done_of_orElse`). Everything about reading rests on these equations and not on
`Phrase.read` itself.
-/

namespace Playhouse.Grammar

/-! ### One after the other, or else -/

section Sequences

variable {α β : Type} {r : Reading α}

/-- Go on reading after something was read. -/
def Reading.andThen (r : Reading α) (f : α → Reader β) : Reading β :=
  match r with
  | .done a c seen => f a c seen
  | .failed e seen => .failed e seen

/-- Read something else where nothing could be read. -/
def Reading.orElse (r : Reading α) (f : Option Failure → Reading α) : Reading α :=
  match r with
  | .done a c seen => .done a c seen
  | .failed _ seen => f seen

theorem done_of_andThen {f : α → Reader β} {b : β} {c : Cursor} {s : Option Failure}
    (h : r.andThen f = .done b c s) :
    ∃ a c₁ s₁, r = .done a c₁ s₁ ∧ f a c₁ s₁ = .done b c s := by
  cases r with
  | done a c₁ s₁ => exact ⟨a, c₁, s₁, rfl, h⟩
  | failed e s₁ => cases h

theorem done_of_orElse {f : Option Failure → Reading α} {a : α} {c : Cursor} {s : Option Failure}
    (h : r.orElse f = .done a c s) : r = .done a c s ∨ ∃ s₁, f s₁ = .done a c s := by
  cases r with
  | done a₁ c₁ s₁ => exact .inl h
  | failed e s₁ => exact .inr ⟨s₁, h⟩

end Sequences

/-! ### The equations -/

section Equations

variable {lx : Lexis} {call : List Rule → Rule → Reader Tree} {stack : List Rule} {p q : Phrase} {c : Cursor}
  {seen : Option Failure}

-- The equations of `read` are worked out here, once, and not by all of the following at the same time.
attribute [local simp] Phrase.read

theorem read_seq : (Phrase.seq p q).read lx call stack c seen =
    (p.read lx call stack c seen).andThen fun y c s => (q.read lx call stack c s).andThen fun z c s =>
      .done (y.append z) c s := by
  cases h : p.read lx call stack c seen with
  | failed e s => simp only [Phrase.read, h, Reading.andThen]
  | done y c₁ s₁ => cases hq : q.read lx call stack c₁ s₁ <;> simp only [Phrase.read, h, hq, Reading.andThen]

theorem read_alt : (Phrase.alt p q).read lx call stack c seen =
    (p.read lx call stack c seen).orElse fun s => q.read lx call stack c s := by
  cases h : p.read lx call stack c seen <;> simp only [Phrase.read, h, Reading.orElse]

theorem read_expect {expected : List Expected} : (Phrase.expect expected p).read lx call stack c seen =
    (p.read lx call stack c seen).orElse fun s => .failed ⟨.oneOf expected, c.pos, stack⟩ s := by
  cases h : p.read lx call stack c seen <;> simp only [Phrase.read, h, Reading.orElse]

theorem read_opt : (Phrase.opt p).read lx call stack c seen =
    (p.read lx call stack c seen).orElse fun s => .done .none c s := by
  cases h : p.read lx call stack c seen <;> simp only [Phrase.read, h, Reading.orElse]

theorem read_many : (Phrase.many p).read lx call stack c seen =
    (readMany (p.read lx call stack) stack (c.rest.length + 1) c seen).andThen fun ys c s =>
      .done (.repeated ys) c s := by
  cases h : readMany (p.read lx call stack) stack (c.rest.length + 1)
    c seen <;> simp only [Phrase.read, h, Reading.andThen]

theorem read_many1 : (Phrase.many1 p).read lx call stack c seen =
    (p.read lx call stack c seen).andThen fun y c s =>
      (readMany (p.read lx call stack) stack (c.rest.length + 1) c s).andThen fun ys c s =>
        .done (.repeated (y :: ys)) c s := by
  cases h : p.read lx call stack c seen with
  | failed e s => simp only [Phrase.read, h, Reading.andThen]
  | done y c' s =>
    cases hmany : readMany (p.read lx call stack) stack (c'.rest.length + 1) c' s <;>
      simp only [Phrase.read, h, hmany, Reading.andThen]

theorem read_gather : (Phrase.gather p).read lx call stack c seen =
    (p.read lx call stack c seen).andThen fun y c s => .done ⟨y.items, y.fields, y.gathered ++ [y.tree]⟩ c s := by
  cases h : p.read lx call stack c seen <;> simp only [Phrase.read, h, Reading.andThen]

theorem read_notAhead : (Phrase.notAhead p).read lx call stack c seen =
    match p.read lx call stack c seen with
    | .done _ _ s => .failed ⟨.unwanted, c.pos, stack⟩ s
    | .failed _ s => .done .none c s := rfl

theorem read_label {f : Field} : (Phrase.label f p).read lx call stack c seen =
    (p.read lx call stack c seen).andThen fun y c s =>
      .done ⟨y.items, y.fields ++ [(f, y.tree)], y.gathered⟩ c s := by
  cases h : p.read lx call stack c seen <;> simp only [Phrase.read, h, Reading.andThen]

theorem read_call {r : Rule} : (Phrase.call r).read lx call stack c seen =
    (call stack r c seen).andThen fun t c s => .done (.one t) c s := by
  cases h : call stack r c seen <;> simp only [Phrase.read, h, Reading.andThen]

theorem read_token {letters : List Char} : (Phrase.token letters).read lx call stack c seen =
    if beginsWith letters (c.skip lx).rest && !isCutOff lx letters ((c.skip lx).rest.drop letters.length) then
      .done (.one (.word (String.ofList letters)))
        ⟨(c.skip lx).pos + letters.length, (c.skip lx).rest.drop letters.length⟩ seen
    else .failed ⟨.word letters, (c.skip lx).pos, stack⟩ seen := rfl

theorem read_pattern {p : Pattern} : (Phrase.pattern p).read lx call stack c seen =
    match p.length? c.rest with
    | some n => .done (.one (.word (String.ofList (c.rest.take n)))) (c.advance n) seen
    | none => .failed ⟨.pattern, c.pos, stack⟩ seen := rfl

theorem read_endOfText : Phrase.endOfText.read lx call stack c seen =
    if (c.skip lx).rest.isEmpty then .done .none (c.skip lx) seen
    else .failed ⟨.endOfText, (c.skip lx).pos, stack⟩ seen := rfl

theorem rule_read_of_done {depth : Nat} {r : Rule} {y : Yield} {c' : Cursor} {s : Option Failure}
    (h : r.body.read lx (Rule.read lx depth) (r :: stack) (c.skip lx) seen = .done y c' s) :
    Rule.read lx (depth + 1) stack r c seen = .done (y.ruleTree r ⟨c.pos, c'.pos⟩) c' s := by
  rw [Rule.read, h]

theorem done_of_rule_read {depth : Nat} {r : Rule} {t : Tree} {c' : Cursor} {s : Option Failure}
    (h : Rule.read lx (depth + 1) stack r c seen = .done t c' s) :
    ∃ y, r.body.read lx (Rule.read lx depth) (r :: stack) (c.skip lx) seen = .done y c' s ∧
      t = y.ruleTree r ⟨c.pos, c'.pos⟩ := by
  rw [Rule.read] at h
  cases hr : r.body.read lx (Rule.read lx depth) (r :: stack) (c.skip lx) seen with
  | done y c₁ s₁ =>
    rw [hr] at h
    cases h
    exact ⟨y, rfl, rfl⟩
  | failed e s₁ =>
    rw [hr] at h
    cases h

end Equations

end Playhouse.Grammar
