import Playhouse.Script.Sentence

/-!
# Playhouse.Script.Play — plays, and what is typed at the console

A play has a title, the dramatis personae, and acts that consist of scenes. A line of the console shows a
character, asks for a value, or gives an event or sentences to perform.
-/

namespace Playhouse

open Grammar

/-- A numeral, as it is written. -/
structure Numbering where
  span : Span
  text : String
  deriving DecidableEq, Repr

/-- A scene, as it is written. -/
structure Scene where
  number : Numbering
  name : String
  events : List Event
  deriving DecidableEq, Repr

/-- An act, as it is written. -/
structure Act where
  number : Numbering
  name : String
  scenes : List Scene
  deriving DecidableEq, Repr

/-- One of the dramatis personae. -/
structure Persona where
  span : Span
  name : List String
  deriving DecidableEq, Repr

/-- A play, as it is written. -/
structure Play where
  title : String
  personae : List Persona
  acts : List Act
  deriving DecidableEq, Repr

/-- A line of the console. -/
inductive ConsoleLine where
  | display (name : List String)
  | value (speaker : Option (List String)) (v : Value)
  | event (e : Event)
  | sentences (ss : List Sentence)
  deriving DecidableEq, Repr

/-- The numeral that a tree describes. -/
def Numbering.ofTree? : Tree → Option Numbering
  | .node .romanNumeral span fields => do return ⟨span, ← (← fields.lookup .value).word?⟩
  | _ => none

/-- The scene that a tree describes. -/
def Scene.ofTree? : Tree → Option Scene
  | .node .scene _ fields => do
    let number ← Numbering.ofTree? (← fields.lookup .number)
    let name ← (← fields.lookup .name).word?
    let events ← (← (← fields.lookup .events).members?).mapM Event.ofTree?
    return ⟨number, name, events⟩
  | _ => none

/-- The act that a tree describes. -/
def Act.ofTree? : Tree → Option Act
  | .node .act _ fields => do
    let number ← Numbering.ofTree? (← fields.lookup .number)
    let name ← (← fields.lookup .name).word?
    let scenes ← (← (← fields.lookup .scenes).members?).mapM Scene.ofTree?
    return ⟨number, name, scenes⟩
  | _ => none

/-- The persona that a tree describes. -/
def Persona.ofTree? : Tree → Option Persona
  | .node .dramatisPersona span fields => do return ⟨span, ← (← fields.lookup .character).words?⟩
  | _ => none

/-- The play that a tree describes. -/
def Play.ofTree? : Tree → Option Play
  | .node .play _ fields => do
    let title ← (← fields.lookup .title).word?
    let personae ← (← (← fields.lookup .dramatisPersonae).members?).mapM Persona.ofTree?
    let acts ← (← (← fields.lookup .acts).members?).mapM Act.ofTree?
    return ⟨title, personae, acts⟩
  | _ => none

/-- The speaker that a tree names, if any. -/
def speakerOfTree? : Tree → Option (Option (List String))
  | .absent => some none
  | t => t.words?.map some

/-- The console line that a tree describes. -/
def ConsoleLine.ofTree? : Tree → Option ConsoleLine
  | .node .replInput _ fields => do
    match ← fields.lookup .event, ← fields.lookup .sentences, ← fields.lookup .value with
    | .absent, .absent, .absent => return display (← (← fields.lookup .displayCharacter).words?)
    | .absent, .absent, v =>
      let speaker ← speakerOfTree? (← fields.lookup .expressionCharacter)
      return value speaker (← Value.ofTree? v)
    | .absent, ss, _ => return sentences (← (← ss.members?).mapM Sentence.ofTree?)
    | e, _, _ => return event (← Event.ofTree? e)
  | _ => none

end Playhouse
