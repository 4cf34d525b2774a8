import Playhouse.Fault
import Playhouse.Grammar.Rule

/-!
# Playhouse.Grammar.Tree — what is read from a text

A word or a captured text is a leaf. A rule with fields gives a node, which knows the span it was read from; the
span begins before the blanks that precede the first word. Repetitions and rules of several words give lists.
-/

namespace Playhouse.Grammar

/-- A tree read from a text. A field that was not read is `absent`. -/
inductive Tree where
  | absent
  | word (w : String)
  | list (ts : List Tree)
  | node (rule : Rule) (span : Span) (fields : List (Field × Tree))
  deriving Repr

namespace Tree

/-- Several trees as one: a single tree stands for itself. -/
def merge : List Tree → Tree
  | [] => absent
  | [t] => t
  | ts => list ts

@[simp] theorem merge_nil : merge [] = absent := rfl

@[simp] theorem merge_singleton (t : Tree) : merge [t] = t := rfl

/-- The tree in a field of a node. -/
def field? (f : Field) : Tree → Option Tree
  | node _ _ fields => fields.lookup f
  | _ => none

/-- The text of a leaf. -/
def word? : Tree → Option String
  | word w => some w
  | _ => none

/-- The words of a leaf or of a list of leaves. -/
def words? : Tree → Option (List String)
  | word w => some [w]
  | list ts => ts.mapM word?
  | _ => none

/-- The members of a list. -/
def members? : Tree → Option (List Tree)
  | list ts => some ts
  | _ => none

theorem sizeOf_lookup {fields : List (Field × Tree)} {f : Field} {t : Tree} (h : fields.lookup f = some t) :
    sizeOf t < sizeOf fields := by
  induction fields with
  | nil => simp at h
  | cons p ps ih =>
    obtain ⟨g, u⟩ := p
    rw [List.lookup_cons] at h
    split at h
    · obtain rfl := Option.some.inj h
      simp +arith
    · have := ih h
      simp +arith at this ⊢
      omega

end Tree

end Playhouse.Grammar
