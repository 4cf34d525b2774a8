import Playhouse.Console
import Playhouse.Proofs.Phrasing
import Playhouse.Proofs.Preparation

/-!
# Playhouse.Proofs.Naming — names at the console

A name that is typed at the console is taken for the character it names, whatever else begins with a name
(`readAs_name`). The names that a play declares can all be typed so (`name_of_persona`).
-/

namespace Playhouse

open Grammar Lexicon Phrase

namespace Grammar.Phrase

variable {N : Nat} {p : Phrase} {text : List Char}

theorem reads_notAhead (hp : p.Refuses N text) : (notAhead p).Reads N text text (· = .none) := by
  intro n hn stack c seen hc
  obtain ⟨e, s, hread⟩ := hp.failed hn stack seen hc
  refine ⟨.none, c, s, ?_, hc.moves, rfl⟩
  rw [read_notAhead, hread]

theorem reads_endOfText : endOfText.Reads N [] [] (· = .none) := by
  intro n hn stack c seen hc
  have hrest : (c.skip .usual).rest = [] := hc
  refine ⟨.none, c.skip .usual, seen, ?_, ⟨hc.skip, pos_le_skip c, fun hlt => absurd hlt (Nat.lt_irrefl _)⟩, rfl⟩
  rw [read_endOfText, hrest]
  rfl

end Grammar.Phrase

/-- A name as it is typed. -/
def typedName (name : List String) : List Char := (" ".intercalate name).toList

theorem typedName_append (name : List String) (more : List Char) : typedName name ++ more = joined name more := by
  unfold typedName
  induction name with
  | nil => rfl
  | cons w ws ih =>
    cases ws with
    | nil => simp [joined]
    | cons v ws =>
      rw [joined, ← ih]
      simp [String.intercalate_cons_cons]

/-- What is read at the console where a name and nothing else is typed. -/
theorem reads_replInput_name {name : List String} (h : name ∈ characters) :
    Rule.replInput.Reads 2 (joined name ['\n']) [] fun t => ConsoleLine.ofTree? t = some (.display name) := by
  have hline : Apart ['\n'] := .inr ⟨'\n', [], .inr rfl, rfl⟩
  have hne := (proper_of_entries (r := .character) h).1
  have hname : Rule.character.Reads 1 (joined name ['\n']) [] (· = entryTree name) :=
    reads_entries_joined h fun _ _ hb => hb.closesEach hline
  have hcolon : (word ":").Refuses 1 [] :=
    refuses_token (w := []) (Apart.closes (.inl rfl) (by decide)) (by decide)
  have hoption := reads_seq (reads_notAhead (refuses_seq_right hname hcolon))
    (reads_seq (reads_label (f := .displayCharacter) hname) reads_endOfText)
  refine (reads_call (r := .replInput) rfl (reads_firstOption hoption)).imp ?_
  rintro y ⟨_, span, ⟨_, _, rfl, ⟨_, _, ⟨_, ⟨t, rfl, rfl⟩, rfl⟩, rfl, rfl⟩, rfl⟩, rfl⟩
  refine ⟨_, ?_, rfl⟩
  show (do return ConsoleLine.display (← (entryTree name).words?)) = _
  rw [words?_entryTree hne]
  rfl

/-- **A name at the console shows the character.** -/
theorem readAs_name {name : List String} (h : name ∈ characters) :
    readAs .replInput ConsoleLine.ofTree? (typedName name ++ ['\n']) = .ok (.display name) := by
  obtain ⟨hne, hproper⟩ := proper_of_entries (r := .character) h
  rw [typedName_append]
  obtain ⟨t, ht, hline⟩ := parse_of_reads (reads_replInput_name h) (flush_joined hne hproper _) (by
    unfold callDepth ranks
    omega)
  exact readAs_of_parse ht hline

/-! ### The names that a play declares -/

namespace Grammar

/-- The personae in a tree of the rule have names of the language. -/
def Rule.Declares : Rule → Tree → Prop
  | character => fun t => ∃ name ∈ characters, t.words? = some name
  | dramatisPersona => fun t => ∀ q, Persona.ofTree? t = some q → q.name ∈ characters
  | dramatisPersonae => fun t => ∀ ps, membersOf? Persona.ofTree? t = some ps → ∀ q ∈ ps, q.name ∈ characters
  | play => fun t => ∀ p, Play.ofTree? t = some p → ∀ q ∈ p.personae, q.name ∈ characters
  | _ => fun _ => True

variable {y : Yield} {span : Span}

theorem declares_character (h : Phrase.character.Gives Rule.Declares y) :
    Rule.character.Declares (y.ruleTree .character span) := by
  obtain ⟨name, hname, rfl⟩ := gives_entry (List.cons_ne_nil _ _) h
  rw [ruleTree_of_fieldless rfl rfl]
  exact ⟨name, hname, words?_merge (proper_of_entries (r := .character) hname).1⟩

theorem declares_dramatisPersona (h : Phrase.dramatisPersona.Gives Rule.Declares y) :
    Rule.dramatisPersona.Declares (y.ruleTree .dramatisPersona span) := by
  obtain ⟨_, _, ⟨_, ⟨t, ⟨name, hname, ht⟩, rfl⟩, rfl⟩, _, rfl⟩ := h
  intro q hq
  have hpersona : (do return Persona.mk span (← t.words?)) = some q := hq
  rw [ht] at hpersona
  cases hpersona
  exact hname

theorem declares_dramatisPersonae (h : Phrase.dramatisPersonae.Gives Rule.Declares y) :
    Rule.dramatisPersonae.Declares (y.ruleTree .dramatisPersonae span) := by
  have hall := gathered_of_many (by rintro z ⟨_, rfl⟩; rfl) h
  intro ps hps q hq
  have htrees : y.gathered.mapM Persona.ofTree? = some ps := by
    obtain ⟨us, hus, rfl⟩ := h
    cases us with
    | nil => exact hps
    | cons u us =>
      obtain ⟨b, _, ⟨_, rfl⟩, ⟨_, ⟨t, -, rfl⟩, rfl⟩, rfl⟩ := hus u List.mem_cons_self
      exact hps
  obtain ⟨t, ht, hpersona⟩ := exists_of_mapM htrees hq
  exact hall t ht q hpersona

theorem declares_play (h : Phrase.play.Gives Rule.Declares y) : Rule.play.Declares (y.ruleTree .play span) := by
  obtain ⟨_, _, ⟨_, ⟨title, -, rfl⟩, rfl⟩, ⟨z, _, hz, ⟨_, _, ⟨_, ⟨d, hd, rfl⟩, rfl⟩, -, rfl⟩, rfl⟩, rfl⟩ := h
  intro p hp q hq
  rw [ruleTree_of_fields rfl] at hp
  simp only [Yield.append, Yield.one, fields_of_unlabelled _ rfl hz] at hp
  unfold Play.ofTree? at hp
  simp only [Option.bind_eq_bind, Option.bind_eq_some_iff, Option.pure_def, Option.some.injEq] at hp
  obtain ⟨_, -, _, -, t, ht, ts, hts, ps, hps, _, -, _, -, _, -, rfl⟩ := hp
  obtain rfl : d = t := Option.some.inj ht
  refine hd ps ?_ q hq
  unfold membersOf?
  rw [hts]
  exact hps

theorem declares_of_read {lx : Lexis} {depth : Nat} {stack : List Rule} {r : Rule} {c c' : Cursor}
    {seen seen' : Option Failure} {t : Tree} (h : r.read lx depth stack c seen = .done t c' seen') :
    r.Declares t := by
  refine tree_of_read (R := Rule.Declares) (fun {r y span} hy => ?_) depth h
  cases r with
  | character => exact declares_character hy
  | dramatisPersona => exact declares_dramatisPersona hy
  | dramatisPersonae => exact declares_dramatisPersonae hy
  | play => exact declares_play hy
  | _ => trivial

end Grammar

/-- **A play declares names of the language only.** -/
theorem name_of_persona {text : List Char} {play : Play} (h : readAs .play Play.ofTree? text = .ok play)
    {q : Persona} (hq : q ∈ play.personae) : q.name ∈ characters := by
  obtain ⟨t, c, seen, hread, hplay⟩ := exists_tree_of_readAs h
  exact declares_of_read hread play hplay q hq

end Playhouse
