import Playhouse.Performance.Run
import Playhouse.Proofs.Directions
import Playhouse.Proofs.Forms
import Playhouse.Proofs.Layout

/-!
# Playhouse.Proofs.Preparation — a text that is a play can be prepared

Between the grammar and a performance stand the tables that say what a tree means, then the layout of the script
and the cast. Nothing is missing in the tables: a text that the grammar takes for a play is prepared, unless a
numeral or a persona is repeated in it. Main statement: `play_prepared`.
-/

namespace Playhouse

open Grammar

/-! ### Repeated personae -/

/-- The fault of the first persona whose name stood before. -/
inductive FirstRepeatedPersona (ps : List Persona) : Fault → Prop
  | mk {before after : List Persona} {q : Persona} : ps = before ++ q :: after →
      (before.map fun b => Name.normalizeWords b.name).Nodup →
      Name.normalizeWords q.name ∈ before.map (fun b => Name.normalizeWords b.name) →
      FirstRepeatedPersona ps (.error (.repeatedPersona (Name.normalizeWords q.name)) (some q.span))

/-- The names are gathered as they stand, or there is a first one that is repeated. `done` are the personae
before. -/
theorem castFrom_cases : ∀ (ps done : List Persona), (done.map fun q => Name.normalizeWords q.name).Nodup →
    ((done ++ ps).map fun q => Name.normalizeWords q.name).Nodup ∨
      ∃ f, FirstRepeatedPersona (done ++ ps) f ∧
        Play.castFrom (done.map fun q => Name.normalizeWords q.name) ps = .error f
  | [], done, hd => by
    left
    rw [List.append_nil]
    exact hd
  | q :: ps, done, hd => by
    by_cases hq : Name.normalizeWords q.name ∈ done.map fun b => Name.normalizeWords b.name
    · right
      refine ⟨_, .mk rfl hd hq, ?_⟩
      unfold Play.castFrom
      exact if_pos hq
    · have hnodup : ((done ++ [q]).map fun b => Name.normalizeWords b.name).Nodup := by
        rw [List.map_append, List.map_singleton, ← List.concat_eq_append]
        exact List.Nodup.concat hq hd
      have hcast : Play.castFrom (done.map fun b => Name.normalizeWords b.name) (q :: ps) =
          Play.castFrom ((done ++ [q]).map fun b => Name.normalizeWords b.name) ps := by
        rw [List.map_append, List.map_singleton]
        conv_lhs => unfold Play.castFrom
        exact if_neg hq
      rw [hcast, List.append_cons]
      exact castFrom_cases ps (done ++ [q]) hnodup

/-- The cast is set up as the personae stand, or fails for the first one that is repeated. -/
theorem Play.stage_cases (p : Play) :
    (p.castNames.Nodup ∧ p.stage = .ok (Stage.ofCast p.castNames)) ∨
      ∃ f, FirstRepeatedPersona p.personae f ∧ p.stage = .error f := by
  rcases castFrom_cases p.personae [] List.nodup_nil with hn | ⟨f, hf, h⟩
  · exact .inl ⟨hn, stage_of_nodup hn⟩
  · right
    refine ⟨f, hf, ?_⟩
    unfold Play.stage
    rw [show Play.castFrom [] p.personae = .error f from h]
    rfl

/-! ### From the text to the performance -/

/-- What may be wrong with a play that the grammar accepts. The numerals are looked at before the personae. -/
inductive Play.Repetition (p : Play) : Fault → Prop
  | numeral {f : Fault} : FirstRepeated p.acts f → p.Repetition f
  | persona {f : Fault} : NumeralsDiffer p.acts → FirstRepeatedPersona p.personae f → p.Repetition f

theorem Performance.ofPlay_cases (source : List Char) (play : Play) (desk : InputDesk) (style : OutputStyle)
    (streams : Streams) :
    (NumeralsDiffer play.acts ∧ play.castNames.Nodup ∧ Performance.ofPlay source play desk style streams =
        .ok ⟨Script.ofActs source play.acts, Stage.ofCast play.castNames, 0, desk, style, streams, []⟩) ∨
      ∃ f, play.Repetition f ∧ Performance.ofPlay source play desk style streams = .error f := by
  unfold Performance.ofPlay
  rcases Script.ofPlay_cases source play with ⟨hacts, hscript⟩ | ⟨f, hf, hscript⟩
  · rw [hscript]
    rcases play.stage_cases with ⟨hcast, hstage⟩ | ⟨f, hf, hstage⟩
    · rw [hstage]
      exact .inl ⟨hacts, hcast, rfl⟩
    · rw [hstage]
      exact .inr ⟨f, .persona hacts hf, rfl⟩
  · rw [hscript]
    exact .inr ⟨f, .numeral hf, rfl⟩

namespace Grammar

/-- The trees of a rule: whatever it reads anywhere in a text, with any rules around it. -/
def Rule.Produces (r : Rule) (t : Tree) : Prop :=
  ∃ lx depth stack c seen c' seen', r.read lx depth stack c seen = .done t c' seen'

theorem Rule.Produces.formed {r : Rule} {t : Tree} (h : r.Produces t) : r.Formed t := by
  obtain ⟨lx, depth, stack, c, seen, c', seen', h⟩ := h
  exact formed_of_read h

theorem exists_read_of_parse {r : Rule} {text : List Char} {t : Tree} (h : parse r text = .ok t) :
    ∃ c seen, r.read .usual (callDepth text) [] (Cursor.start text) none = .done t c seen := by
  unfold parse readRule at h
  cases hread : r.read .usual (callDepth text) [] (Cursor.start text) none with
  | failed e seen =>
    rw [hread] at h
    cases h
  | done t' c seen =>
    rw [hread] at h
    cases h
    exact ⟨c, seen, rfl⟩

theorem produces_of_parse {r : Rule} {text : List Char} {t : Tree} (h : parse r text = .ok t) : r.Produces t := by
  obtain ⟨c, seen, hread⟩ := exists_read_of_parse h
  exact ⟨_, _, _, _, _, c, seen, hread⟩

end Grammar

theorem readAs_of_parse {α : Type} {r : Rule} {ofTree? : Tree → Option α} {text : List Char} {t : Tree} {a : α}
    (h : parse r text = .ok t) (ha : ofTree? t = some a) : readAs r ofTree? text = .ok a := by
  unfold readAs
  rw [h]
  dsimp only
  rw [ha]

theorem exists_parse_of_readAs {α : Type} {r : Rule} {ofTree? : Tree → Option α} {text : List Char} {a : α}
    (h : readAs r ofTree? text = .ok a) : ∃ t, parse r text = .ok t ∧ ofTree? t = some a := by
  unfold readAs at h
  split at h
  · cases h
  · next t ht =>
    split at h
    · next a' ha =>
      cases h
      exact ⟨t, ht, ha⟩
    · cases h

theorem exists_tree_of_readAs {α : Type} {r : Rule} {ofTree? : Tree → Option α} {text : List Char} {a : α}
    (h : readAs r ofTree? text = .ok a) :
    ∃ t c seen, r.read .usual (callDepth text) [] (Cursor.start text) none = .done t c seen ∧
      ofTree? t = some a := by
  obtain ⟨t, ht, ha⟩ := exists_parse_of_readAs h
  obtain ⟨c, seen, hread⟩ := exists_read_of_parse ht
  exact ⟨t, c, seen, hread, ha⟩

/-- What is opened is the performance of a play, with the input and the output that were asked for. -/
theorem Performance.opened_of_ofText {source : List Char} {inputName outputName : String} {streams : Streams}
    {p : Performance} (h : Performance.ofText source inputName outputName streams = .ok p) :
    ∃ desk style play, InputDesk.ofName inputName streams.reader = .ok desk ∧
      OutputStyle.ofName outputName = .ok style ∧
      readAs .play Play.ofTree? source = .ok play ∧ Performance.ofPlay source play desk style streams = .ok p ∧
      p = ⟨Script.ofActs source play.acts, Stage.ofCast play.castNames, 0, desk, style, streams, []⟩ := by
  unfold Performance.ofText at h
  cases hdesk : InputDesk.ofName inputName streams.reader with
  | error b =>
    rw [hdesk] at h
    cases h
  | ok desk =>
    cases hstyle : OutputStyle.ofName outputName with
    | error b =>
      rw [hdesk, hstyle] at h
      cases h
    | ok style =>
      cases hread : readAs .play Play.ofTree? source with
      | error e =>
        rw [hdesk, hstyle, hread] at h
        cases h
      | ok play =>
        rw [hdesk, hstyle, hread] at h
        replace h : (Performance.ofPlay source play desk style streams).mapError (Report.ofPreparation source) =
          .ok p := h
        rcases Performance.ofPlay_cases source play desk style streams with ⟨-, -, hok⟩ | ⟨f, -, herror⟩
        · rw [hok] at h
          cases h
          exact ⟨desk, style, play, rfl, rfl, rfl, hok, rfl⟩
        · rw [herror] at h
          cases h

/-- What is printed and read does not matter for the opening. -/
theorem Performance.ofText_of_streams {source : List Char} {inputName outputName : String} {streams : Streams}
    {p : Performance} (h : Performance.ofText source inputName outputName streams = .ok p) (streams' : Streams)
    (hreader : streams'.reader = streams.reader) :
    Performance.ofText source inputName outputName streams' = .ok { p with streams := streams' } := by
  obtain ⟨desk, style, play, hdesk, hstyle, hplay, hopened, -⟩ := opened_of_ofText h
  have hother : Performance.ofPlay source play desk style streams' = .ok { p with streams := streams' } := by
    unfold Performance.ofPlay at hopened ⊢
    cases hscript : Script.ofPlay source play with
    | error f =>
      rw [hscript] at hopened
      cases hopened
    | ok script =>
      cases hstage : play.stage with
      | error f =>
        rw [hscript, hstage] at hopened
        cases hopened
      | ok stage =>
        rw [hscript, hstage] at hopened
        cases hopened
        rfl
  unfold Performance.ofText
  rw [hreader, hdesk, hstyle, hplay]
  show (Performance.ofPlay source play desk style streams').mapError (Report.ofPreparation source) = _
  rw [hother]
  rfl

/-! ### Where operations come from -/

section Parts

variable {W : Tree → Prop} {t : Tree} {op : Operation}

theorem exists_member {α : Type} {g : Tree → Option α} {ts : List Tree} {as : List α} {a : α}
    (hlist : ∀ {ts : List Tree}, W (.list ts) → ∀ t ∈ ts, W t) (h : W t) (ht : t.members? = some ts)
    (has : ts.mapM g = some as) (ha : a ∈ as) : ∃ u, W u ∧ g u = some a := by
  cases t with
  | list us =>
    cases ht
    obtain ⟨u, hu, hgu⟩ := exists_of_mapM has ha
    exact ⟨u, hlist h u hu, hgu⟩
  | absent => cases ht
  | word w => cases ht
  | node r span fields => cases ht

variable (hlist : ∀ {ts : List Tree}, W (.list ts) → ∀ t ∈ ts, W t)
  (hfield : ∀ {r span fields f t}, W (.node r span fields) → f ∈ [Field.acts, .scenes, .events] →
    fields.lookup f = some t → W t)

include hlist hfield

theorem event_of_scene {s : Scene} (h : W t) (hs : Scene.ofTree? t = some s) (hop : op ∈ s.operations) :
    ∃ u e, W u ∧ Event.ofTree? u = some e ∧ op ∈ Operation.ofEvent e := by
  unfold Scene.ofTree? at hs
  split at hs
  · simp only [Option.bind_eq_bind, Option.bind_eq_some_iff, Option.pure_def, Option.some.injEq] at hs
    obtain ⟨_, _, _, _, _, _, _, _, u, hu, us, hus, es, hes, rfl⟩ := hs
    obtain ⟨e, he, hop⟩ := List.mem_flatMap.mp hop
    obtain ⟨v, hv, hevent⟩ := exists_member hlist (hfield h (by simp) hu) hus hes he
    exact ⟨v, e, hv, hevent, hop⟩
  · cases hs

theorem event_of_act {a : Act} (h : W t) (ha : Act.ofTree? t = some a) (hop : op ∈ a.operations) :
    ∃ u e, W u ∧ Event.ofTree? u = some e ∧ op ∈ Operation.ofEvent e := by
  unfold Act.ofTree? at ha
  split at ha
  · simp only [Option.bind_eq_bind, Option.bind_eq_some_iff, Option.pure_def, Option.some.injEq] at ha
    obtain ⟨_, _, _, _, _, _, _, _, u, hu, us, hus, ss, hss, rfl⟩ := ha
    obtain ⟨s, hs, hop⟩ := List.mem_flatMap.mp hop
    obtain ⟨v, hv, hscene⟩ := exists_member hlist (hfield h (by simp) hu) hus hss hs
    exact event_of_scene hlist hfield hv hscene hop
  · cases ha

/-- Every operation of a play comes from an event. What is handed down from the tree of the play to its acts, from
these to their scenes and from these to their events holds of the tree of that event. -/
theorem event_of_play {play : Play} (h : W t) (hplay : Play.ofTree? t = some play)
    (hop : op ∈ play.acts.flatMap Act.operations) :
    ∃ u e, W u ∧ Event.ofTree? u = some e ∧ op ∈ Operation.ofEvent e := by
  unfold Play.ofTree? at hplay
  split at hplay
  · simp only [Option.bind_eq_bind, Option.bind_eq_some_iff, Option.pure_def, Option.some.injEq] at hplay
    obtain ⟨_, _, _, _, _, _, _, _, _, _, u, hu, us, hus, as, has, rfl⟩ := hplay
    obtain ⟨a, ha, hop⟩ := List.mem_flatMap.mp hop
    obtain ⟨v, hv, hact⟩ := exists_member hlist (hfield h (by simp) hu) hus has ha
    exact event_of_act hlist hfield hv hact hop
  · cases hplay

end Parts

/-- **What the grammar accepts has a meaning.** A text that is a play by the grammar is prepared for a performance
with any input, output and streams, unless an act, a scene within its act or a persona is repeated, which is then
told. Events, sentences, values, comparatives and the operations of values that are read anywhere are all known. -/
theorem play_prepared :
    (∀ (text : List Char) (t : Tree), parse .play text = .ok t →
      ∃ play, Play.ofTree? t = some play ∧ readAs .play Play.ofTree? text = .ok play ∧
        ∀ (desk : InputDesk) (style : OutputStyle) (streams : Streams),
          (NumeralsDiffer play.acts ∧ play.castNames.Nodup ∧ Performance.ofPlay text play desk style streams =
              .ok ⟨Script.ofActs text play.acts, Stage.ofCast play.castNames, 0, desk, style, streams, []⟩) ∨
            ∃ f, play.Repetition f ∧ Performance.ofPlay text play desk style streams = .error f) ∧
      (∀ t, Rule.event.Produces t → ∃ e, Event.ofTree? t = some e) ∧
      (∀ t, Rule.sentence.Produces t → ∃ s, Sentence.ofTree? t = some s) ∧
      (∀ t, Rule.value.Produces t → ∃ v, Value.ofTree? t = some v) ∧
      (∀ r ∈ [Rule.positiveComparative, Rule.neutralComparative, Rule.negativeComparative],
        ∀ t, r.Produces t → ∃ c, Comparison.ofTree? t = some c) ∧
      (∀ t, Rule.binaryOperation.Produces t → ∃ op, t.words?.bind binaryOperator? = some op) ∧
      ∀ t, Rule.unaryOperation.Produces t → ∃ op, t.words?.bind unaryOperator? = some op := by
  refine ⟨?_, ?_, ?_, ?_, ?_, ?_, ?_⟩
  · intro text t h
    obtain ⟨play, hplay⟩ := (produces_of_parse h).formed
    exact ⟨play, hplay, readAs_of_parse h hplay, Performance.ofPlay_cases text play⟩
  · intro t h
    exact h.formed
  · intro t h
    exact h.formed
  · intro t h
    exact h.formed
  · intro r hr t h
    simp only [List.mem_cons, List.not_mem_nil, or_false] at hr
    rcases hr with rfl | rfl | rfl <;> exact h.formed
  · intro t h
    exact h.formed
  · intro t h
    exact h.formed

/-- A play with a stage direction and a line that assigns, asks and jumps. -/
def courtshipText : List Char :=
  ("T. Romeo, x. Juliet, y. Act I: a. Scene I: b. [Enter Romeo and Juliet] Romeo: You are the sum of me and " ++
    "twice a cat. Am I better than you? If so, let us return to scene I.").toList

/-- Texts for each rule that a table is there for. -/
def courtshipParts : List (Rule × String) :=
  [(.event, "[Exit Romeo]"), (.sentence, "Am I better than you?"),
    (.value, "the sum of me and you"), (.positiveComparative, "better than"),
    (.binaryOperation, "the sum of"), (.unaryOperation, "twice")]

/-- The play has four operations and is prepared. -/
def courtshipPrepared : Bool :=
  match readAs .play Play.ofTree? courtshipText with
  | .error _ => false
  | .ok play =>
    (play.acts.flatMap Act.operations).length == 4 &&
      (Performance.ofPlay courtshipText play (.basic []) .basic ⟨[], none, "", ""⟩).isOk

theorem courtship_read :
    courtshipPrepared = true ∧ ∀ x ∈ courtshipParts, (parse x.1 x.2.toList).isOk = true := by decide +kernel

theorem exists_courtship_part (r : Rule) (text : String) (h : (r, text) ∈ courtshipParts) :
    ∃ t, parse r text.toList = .ok t ∧ r.Produces t := by
  have hok : (parse r text.toList).isOk = true := courtship_read.2 (r, text) h
  cases ht : parse r text.toList with
  | error e =>
    rw [ht] at hok
    cases hok
  | ok t => exact ⟨t, rfl, produces_of_parse ht⟩

theorem play_prepared_courtship :
    (∃ t play p, parse .play courtshipText = .ok t ∧ Play.ofTree? t = some play ∧
        (play.acts.flatMap Act.operations).length = 4 ∧
        Performance.ofPlay courtshipText play (.basic []) .basic ⟨[], none, "", ""⟩ = .ok p) ∧
      (∃ t e, parse .event "[Exit Romeo]".toList = .ok t ∧ Event.ofTree? t = some e) ∧
      (∃ t s, parse .sentence "Am I better than you?".toList = .ok t ∧ Sentence.ofTree? t = some s) ∧
      (∃ t v, parse .value "the sum of me and you".toList = .ok t ∧ Value.ofTree? t = some v) ∧
      (∃ t c, parse .positiveComparative "better than".toList = .ok t ∧ Comparison.ofTree? t = some c) ∧
      (∃ t op, parse .binaryOperation "the sum of".toList = .ok t ∧ t.words?.bind binaryOperator? = some op) ∧
      ∃ t op, parse .unaryOperation "twice".toList = .ok t ∧ t.words?.bind unaryOperator? = some op := by
  obtain ⟨hplay, hevent, hsentence, hvalue, hcomparative, hbinary, hunary⟩ := play_prepared
  refine ⟨?_, ?_, ?_, ?_, ?_, ?_, ?_⟩
  · have hprepared := courtship_read.1
    unfold courtshipPrepared at hprepared
    split at hprepared
    · cases hprepared
    · next play hread =>
      obtain ⟨hlength, hok⟩ := Bool.and_eq_true_iff.mp hprepared
      obtain ⟨t, ht, htree⟩ := exists_parse_of_readAs hread
      obtain ⟨play', hplay', -, hcases⟩ := hplay courtshipText t ht
      obtain rfl : play' = play := Option.some.inj (hplay'.symm.trans htree)
      rcases hcases (.basic []) .basic ⟨[], none, "", ""⟩ with ⟨-, -, hopened⟩ | ⟨f, -, herror⟩
      · exact ⟨t, play', _, ht, hplay', eq_of_beq hlength, hopened⟩
      · rw [herror] at hok
        cases hok
  · obtain ⟨t, ht, hproduced⟩ := exists_courtship_part .event "[Exit Romeo]" (by simp [courtshipParts])
    obtain ⟨e, he⟩ := hevent t hproduced
    exact ⟨t, e, ht, he⟩
  · obtain ⟨t, ht, hproduced⟩ := exists_courtship_part .sentence "Am I better than you?" (by simp [courtshipParts])
    obtain ⟨s, hs⟩ := hsentence t hproduced
    exact ⟨t, s, ht, hs⟩
  · obtain ⟨t, ht, hproduced⟩ := exists_courtship_part .value "the sum of me and you" (by simp [courtshipParts])
    obtain ⟨v, hv⟩ := hvalue t hproduced
    exact ⟨t, v, ht, hv⟩
  · obtain ⟨t, ht, hproduced⟩ :=
      exists_courtship_part .positiveComparative "better than" (by simp [courtshipParts])
    obtain ⟨c, hc⟩ := hcomparative _ List.mem_cons_self t hproduced
    exact ⟨t, c, ht, hc⟩
  · obtain ⟨t, ht, hproduced⟩ := exists_courtship_part .binaryOperation "the sum of" (by simp [courtshipParts])
    obtain ⟨op, hop⟩ := hbinary t hproduced
    exact ⟨t, op, ht, hop⟩
  · obtain ⟨t, ht, hproduced⟩ := exists_courtship_part .unaryOperation "twice" (by simp [courtshipParts])
    obtain ⟨op, hop⟩ := hunary t hproduced
    exact ⟨t, op, ht, hop⟩

end Playhouse
