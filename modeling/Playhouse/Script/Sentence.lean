import Playhouse.Script.Value

/-!
# Playhouse.Script.Sentence — sentences and events

A sentence is an action under an optional condition. An event is a line, which one character speaks, or a stage
direction.
-/

namespace Playhouse

open Grammar

/-- The condition of a sentence on the truth flag. -/
inductive Condition where
  | ifSo
  | ifNot
  deriving DecidableEq, Repr

/-- The condition holds of the flag. -/
def Condition.holds : Condition → Bool → Bool
  | ifSo, flag => flag
  | ifNot, flag => !flag

/-- What a question asks of two values. -/
inductive Comparison where
  | greater
  | less
  | equal
  deriving DecidableEq, Repr

/-- The answer to a question. -/
def Comparison.apply : Comparison → Int → Int → Bool
  | greater, a, b => b < a
  | less, a, b => a < b
  | equal, a, b => a == b

/-- Numbers or characters are read and written. -/
inductive Medium where
  | number
  | character
  deriving DecidableEq, Repr

/-- Where a jump goes. -/
inductive Target where
  | act
  | scene
  deriving DecidableEq, Repr

/-- A target as it is printed. -/
def Target.text : Target → String
  | act => "Act"
  | scene => "Scene"

/-- What a sentence does. The values it speaks of have type `ε`. -/
inductive Action (ε : Type) where
  | question (comparison : Comparison) (words : List String) (first second : ε)
  | assignment (value : ε)
  | input (medium : Medium)
  | output (medium : Medium)
  | push (value : ε)
  | pop (recalled : String)
  | goto (target : Target) (destination : String)
  deriving DecidableEq, Repr

/-- The kind of an action, as it is printed. -/
def Action.kind {ε : Type} : Action ε → String
  | question _ _ _ _ => "question"
  | assignment _ => "assignment"
  | input _ => "input"
  | output _ => "output"
  | push _ => "push"
  | pop _ => "pop"
  | goto _ _ => "goto"

/-- Replace the values that an action speaks of. -/
def Action.map {ε δ : Type} (f : ε → δ) : Action ε → Action δ
  | question c ws x y => question c ws (f x) (f y)
  | assignment x => assignment (f x)
  | input m => input m
  | output m => output m
  | push x => push (f x)
  | pop s => pop s
  | goto t d => goto t d

/-- A sentence, as it is written. -/
structure Sentence where
  span : Span
  condition : Option Condition
  action : Action Value
  deriving DecidableEq, Repr

/-- An event, as it is written. Names are lists of words. -/
inductive Event where
  | line (span : Span) (speaker : List String) (sentences : List Sentence)
  | breakpoint (span : Span)
  | entrance (span : Span) (characters : List (List String))
  | exit (span : Span) (character : List String)
  | exeunt (span : Span) (characters : Option (List (List String)))
  deriving DecidableEq, Repr

/-- Where an event is written. -/
def Event.span : Event → Span
  | line s _ _ | breakpoint s | entrance s _ | exit s _ | exeunt s _ => s

/-- The condition that a tree describes; no condition is no tree. -/
def Condition.ofTree? : Tree → Option (Option Condition)
  | .absent => some none
  | .node .positiveIf _ _ => some (some ifSo)
  | .node .negativeIf _ _ => some (some ifNot)
  | _ => none

/-- The comparison that a tree describes, and its words. -/
def Comparison.ofTree? : Tree → Option (Comparison × List String)
  | .node .positiveComparative _ fields => do return (greater, ← (← fields.lookup .comparison).words?)
  | .node .negativeComparative _ fields => do return (less, ← (← fields.lookup .comparison).words?)
  | .node .neutralComparative _ fields => do return (equal, ← (← fields.lookup .comparison).words?)
  | _ => none

/-- The medium of input or output: numbers if the field `f` was read, characters if it was `g`. -/
def Medium.ofFields? (fields : List (Field × Tree)) (f g : Field) : Option Medium :=
  match fields.lookup f, fields.lookup g with
  | some (.list _), _ => some .number
  | _, some (.list _) => some .character
  | _, _ => none

/-- The target that a word names. -/
def Target.ofWord? : String → Option Target
  | "act" => some act
  | "scene" => some scene
  | _ => none

/-- The action that a tree describes. -/
def Action.ofTree? : Tree → Option (Action Value)
  | .node .question _ fields => do
    let (comparison, words) ← Comparison.ofTree? (← fields.lookup .comparative)
    let first ← Value.ofTree? (← fields.lookup .firstValue)
    let second ← Value.ofTree? (← fields.lookup .secondValue)
    return question comparison words first second
  | .node .assignment _ fields => do return assignment (← Value.ofTree? (← fields.lookup .value))
  | .node .input _ fields => (Medium.ofFields? fields .inputNumber .inputChar).map input
  | .node .output _ fields => (Medium.ofFields? fields .outputNumber .outputChar).map output
  | .node .push _ fields => do return push (← Value.ofTree? (← fields.lookup .value))
  | .node .pop _ fields => do return pop (← (← fields.lookup .recallString).word?)
  | .node .goto _ fields => do
    let target ← Target.ofWord? (← (← fields.lookup .target).word?)
    let destination ← (← (← fields.lookup .destination).field? .value).word?
    return goto target destination
  | _ => none

/-- The sentence that a tree describes. -/
def Sentence.ofTree? : Tree → Option Sentence
  | .node .sentence span fields => do
    let condition ← Condition.ofTree? (← fields.lookup .condition)
    let action ← Action.ofTree? (← fields.lookup .operation)
    return ⟨span, condition, action⟩
  | _ => none

/-- The names in a list of characters. -/
def namesOfTree? (t : Tree) : Option (List (List String)) := do (← t.members?).mapM Tree.words?

/-- The event that a tree describes. -/
def Event.ofTree? : Tree → Option Event
  | .node .line span fields => do
    let speaker ← (← fields.lookup .character).words?
    let sentences ← (← (← fields.lookup .contents).members?).mapM Sentence.ofTree?
    return line span speaker sentences
  | .node .breakpoint span _ => some (breakpoint span)
  | .node .entrance span fields => do return entrance span (← namesOfTree? (← fields.lookup .characters))
  | .node .exit span fields => do return exit span (← (← fields.lookup .character).words?)
  | .node .exeunt span fields => do
    match ← fields.lookup .characters with
    | .absent => return exeunt span none
    | t => return exeunt span (some (← namesOfTree? t))
  | _ => none

end Playhouse
