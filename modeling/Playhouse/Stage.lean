import Playhouse.Character

/-!
# Playhouse.Stage — who is on stage, and who speaks to whom

The cast is kept in the order of the dramatis personae, the stage in the order of entrance. Whom a character speaks
to is looked up in a table that is updated with every entrance and exit: it is empty unless exactly two are on
stage.
-/

namespace Playhouse

/-- The state of a play: the truth flag, the cast, who is on stage, and the table of opposites. -/
structure Stage where
  flag : Bool := false
  cast : List (String × Character)
  present : List String := []
  opposites : List (String × String) := []
  deriving DecidableEq, Repr

/-- Something done on a stage. What was changed before a fault stays changed. -/
abbrev StageM := EStateM Fault Stage

namespace Stage

/-- Write `v` under `k` in a table. -/
def tableSet {α : Type} (k : String) (v : α) : List (String × α) → List (String × α)
  | [] => [(k, v)]
  | (k', v') :: rest => if k' = k then (k, v) :: rest else (k', v') :: tableSet k v rest

/-- The names of the cast. -/
def names (s : Stage) : List String := s.cast.map Prod.fst

/-- The table of opposites after a change of who is on stage. -/
def updateOpposites (s : Stage) : Stage :=
  match s.present with
  | [a, b] => { s with opposites := tableSet b a (tableSet a b s.opposites) }
  | _ => { s with opposites := [] }

/-- Put a character on stage; one who is there stays in place. -/
def arrive (s : Stage) (name : String) : Stage :=
  updateOpposites { s with present := if name ∈ s.present then s.present else s.present ++ [name] }

/-- Take a character off the stage. -/
def leave (s : Stage) (name : String) : Stage :=
  updateOpposites { s with present := s.present.filter (· ≠ name) }

/-- The character of a name. -/
def character (s : Stage) (name : String) : Except Fault Character :=
  match s.cast.lookup name with
  | some c => .ok c
  | none => .error (.error (.notInitialized name) none)

/-- Replace the character of a name. -/
def setCharacter (s : Stage) (name : String) (c : Character) : Stage :=
  { s with cast := tableSet name c s.cast }

/-- Fails unless the character is on stage. -/
def checkPresent (s : Stage) (name : String) : Except Fault Unit :=
  if name ∈ s.present then .ok ()
  else if name ∈ s.names then .error (.error (.notOnStage name) none)
  else .error (.error (.notInitialized name) none)

/-- Fails unless the character is off stage. -/
def checkAway (s : Stage) (name : String) : Except Fault Unit :=
  if name ∈ s.present then .error (.error (.alreadyOnStage name) none)
  else if name ∈ s.names then .ok ()
  else .error (.error (.notInitialized name) none)

/-- The one a character speaks to. -/
def opposite (s : Stage) (name : String) : Except Fault String :=
  match s.opposites.lookup name with
  | some other => .ok other
  | none =>
    if name ∉ s.present then .error (.error (.notOnStage name) none)
    else if 2 < s.present.length then .error (.error .ambiguousPronoun none)
    else .error (.error (.talkingToNobody name) none)

/-- A stage with a cast of which nobody has entered. -/
def ofCast (names : List String) : Stage := ⟨false, names.map (·, {}), [], []⟩

/-- A line of the text of a stage. -/
def entryText (p : String × Character) : Except Breakdown String := do
  return "  " ++ p.1 ++ " = " ++ (← p.2.text)

/-- Those on stage, in the order of entrance. -/
def onStage (s : Stage) : List (String × Character) :=
  s.present.filterMap fun name => (s.cast.lookup name).map (name, ·)

/-- Those off stage, in the order of the cast. -/
def offStage (s : Stage) : List (String × Character) := s.cast.filter fun p => p.1 ∉ s.present

/-- The truth flag as it is printed. -/
def flagText (b : Bool) : String := if b then "True" else "False"

/-- The flag, and all characters with what they hold. -/
def text (s : Stage) : Except Breakdown String := do
  let present ← s.onStage.mapM entryText
  let away ← s.offStage.mapM entryText
  return "\n".intercalate
    (["global boolean = " ++ flagText s.flag, "on stage:"] ++ present ++ ["off stage:"] ++ away)

end Stage

namespace StageM

/-- Something that only looks at the stage. -/
def check {α : Type} (f : Stage → Except Fault α) : StageM α := fun s =>
  match f s with
  | .ok a => .ok a s
  | .error e => .error e s

/-- All of them enter, provided that all are off stage. -/
def enter (names : List String) : StageM Unit := do
  names.forM fun name => check (·.checkAway name)
  names.forM fun name => modify (·.arrive name)

/-- One of those on stage goes. -/
def remove (name : String) : StageM Unit := fun s =>
  if name ∈ s.present then .ok () (s.leave name) else .error (.breakdown (.nobodyToRemove name)) s

/-- All of them go, one after the other, provided that all are on stage. -/
def exeunt (names : List String) : StageM Unit := do
  names.forM fun name => check (·.checkPresent name)
  names.forM remove

/-- Everyone goes. -/
def exeuntAll : StageM Unit := do
  (← get).present.forM remove

/-- One character goes. -/
def exit (name : String) : StageM Unit := do
  check (·.checkPresent name)
  remove name

end StageM

end Playhouse
