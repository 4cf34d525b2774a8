import Playhouse.Expression
import Playhouse.Script.Play
import Playhouse.Source.Excerpt

/-!
# Playhouse.Script — a play laid out as operations

The events of a play become one list of operations, one for each sentence of a line and one for each stage
direction. Acts and scenes are remembered by their numerals and by the position of their first operation.
-/

namespace Playhouse

/-- What an operation does. -/
inductive Deed where
  | enter (names : List String)
  | exit (name : String)
  | exeunt (names : List String)
  | exeuntAll
  | breakpoint
  | speak (speaker : String) (condition : Option Condition) (action : Action Expression)
  deriving DecidableEq, Repr

/-- A deed and where it is written. -/
structure Operation where
  span : Span
  deed : Deed
  deriving DecidableEq, Repr

namespace Operation

/-- The operation is a breakpoint. -/
def isBreakpoint (op : Operation) : Bool := op.deed == .breakpoint

/-- The operation of a sentence that `speaker` says. -/
def ofSentence (speaker : String) (s : Sentence) : Operation :=
  ⟨s.span, .speak speaker s.condition (s.action.map Expression.ofValue)⟩

/-- The operations of an event. -/
def ofEvent : Event → List Operation
  | .line _ speaker sentences => sentences.map (ofSentence (Name.normalizeWords speaker))
  | .breakpoint s => [⟨s, .breakpoint⟩]
  | .entrance s names => [⟨s, .enter (names.map Name.normalizeWords)⟩]
  | .exit s name => [⟨s, .exit (Name.normalizeWords name)⟩]
  | .exeunt s none => [⟨s, .exeuntAll⟩]
  | .exeunt s (some names) => [⟨s, .exeunt (names.map Name.normalizeWords)⟩]

/-- The operation with another action. -/
def withAction (op : Operation) (a : Action Expression) : Operation :=
  match op.deed with
  | .speak speaker condition _ => ⟨op.span, .speak speaker condition a⟩
  | _ => op

end Operation

/-- An act in the layout: its numeral, the position of its first operation, and its scenes. -/
structure ActEntry where
  numeral : String
  position : Nat
  scenes : List (String × Nat)
  deriving DecidableEq, Repr

/-- A play laid out as operations. -/
structure Script where
  source : List Char
  operations : List Operation
  acts : List ActEntry
  deriving DecidableEq, Repr

namespace Script

/-- Lay out scenes after the operations `ops`, with the entries of the scenes before them. -/
def layScenes (act : String) (entries : List (String × Nat)) (ops : List Operation) :
    List Scene → Except Fault (List (String × Nat) × List Operation)
  | [] => .ok (entries, ops)
  | s :: ss =>
    if s.number.text ∈ entries.map Prod.fst then
      .error (.error (.repeatedScene s.number.text act) (some s.number.span))
    else
      layScenes act (entries ++ [(s.number.text, ops.length)]) (ops ++ s.events.flatMap Operation.ofEvent) ss

/-- Lay out acts after the operations `ops`, with the entries of the acts before them. -/
def layActs (entries : List ActEntry) (ops : List Operation) :
    List Act → Except Fault (List ActEntry × List Operation)
  | [] => .ok (entries, ops)
  | a :: as =>
    if a.number.text ∈ entries.map ActEntry.numeral then
      .error (.error (.repeatedAct a.number.text) (some a.number.span))
    else
      match layScenes a.number.text [] ops a.scenes with
      | .error f => .error f
      | .ok (scenes, ops') => layActs (entries ++ [⟨a.number.text, ops.length, scenes⟩]) ops' as

/-- Lay out a play. Fails at the first numeral that is not unique. -/
def ofPlay (source : List Char) (p : Play) : Except Fault Script :=
  match layActs [] [] p.acts with
  | .error f => .error f
  | .ok (acts, ops) => .ok ⟨source, ops, acts⟩

/-- The last of the acts that begins at or before a position, or the first act. -/
def lastActFrom (position : Int) (act : ActEntry) : List ActEntry → ActEntry
  | [] => act
  | b :: bs => if position < b.position then act else lastActFrom position b bs

/-- The act that a position belongs to. None if there are no acts. -/
def actAt? (s : Script) (position : Int) : Option ActEntry :=
  match s.acts with
  | [] => none
  | a :: as => some (lastActFrom position a as)

/-- The act of a numeral. -/
def act? (s : Script) (numeral : String) : Option ActEntry := s.acts.find? fun a => a.numeral == numeral

/-- The operation at a position; negative positions count from the end. -/
def operation? (s : Script) (position : Int) : Option Operation := Source.at? s.operations position

/-- The script with another action at a position. -/
def remember (s : Script) (position : Int) (a : Action Expression) : Script :=
  { s with operations := s.operations.modify (Source.clampIndex s.operations.length position) (·.withAction a) }

end Script

/-- The names of the personae after `names`, which are those of the personae before them. Fails at the first one
that is repeated. -/
def Play.castFrom (names : List String) : List Persona → Except Fault (List String)
  | [] => .ok names
  | p :: ps =>
    let name := Name.normalizeWords p.name
    if name ∈ names then .error (.error (.repeatedPersona name) (some p.span))
    else castFrom (names ++ [name]) ps

/-- The stage at the beginning of a play. -/
def Play.stage (p : Play) : Except Fault Stage := (Play.castFrom [] p.personae).map Stage.ofCast

end Playhouse
