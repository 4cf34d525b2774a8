import Playhouse.Proofs.Table
import Playhouse.Script

/-!
# Playhouse.Proofs.Layout — how a play is laid out

The layout of a play is worked out in one pass over its acts and scenes, with the operations laid so far as the
only measure of position. Here it is said without that pass: the operations are those of the events one after the
other, an act or scene begins after the operations of everything before it (`ActStart`, `SceneStart`), and a layout
exists unless a numeral is repeated. Acts without operations begin where the next one does, so that the act of a
position has to be the last one that begins there. Main statement: `script_layout`.
-/

namespace Playhouse

/-- How many operations an event gives: one for each sentence of a line, one for anything else. -/
def Event.parts : Event → Nat
  | .line _ _ sentences => sentences.length
  | _ => 1

theorem length_ofEvent (e : Event) : (Operation.ofEvent e).length = e.parts := by
  cases e with
  | line span speaker sentences => exact List.length_map _
  | exeunt span names => cases names <;> rfl
  | breakpoint span => rfl
  | entrance span names => rfl
  | exit span name => rfl

/-- The operations of a scene. -/
def Scene.operations (s : Scene) : List Operation := s.events.flatMap Operation.ofEvent

/-- The operations of an act. -/
def Act.operations (a : Act) : List Operation := a.scenes.flatMap Scene.operations

/-- The act `a` begins after `n` operations of the acts `as`. -/
def ActStart (as : List Act) (a : Act) (n : Nat) : Prop :=
  ∃ before after, as = before ++ a :: after ∧ n = (before.flatMap Act.operations).length

/-- The scene `s` begins after `n` operations of the scenes `ss`. -/
def SceneStart (ss : List Scene) (s : Scene) (n : Nat) : Prop :=
  ∃ before after, ss = before ++ s :: after ∧ n = (before.flatMap Scene.operations).length

theorem ActStart.mem {as : List Act} {a : Act} {n : Nat} (h : ActStart as a n) : a ∈ as := by
  obtain ⟨before, after, rfl, -⟩ := h
  exact List.mem_append_right _ List.mem_cons_self

theorem exists_start_of_mem {as : List Act} {a : Act} (h : a ∈ as) : ∃ n, ActStart as a n := by
  obtain ⟨before, after, rfl⟩ := List.append_of_mem h
  exact ⟨_, before, after, rfl, rfl⟩

/-- The numerals of the acts are different, and so are those of the scenes within each act. -/
def NumeralsDiffer (as : List Act) : Prop :=
  (as.map fun a => a.number.text).Nodup ∧ ∀ a ∈ as, (a.scenes.map fun s => s.number.text).Nodup

instance : DecidablePred NumeralsDiffer := fun _ => inferInstanceAs (Decidable (_ ∧ _))

/-- The fault of the first numeral, in the order of the source, that stood before: as that of an act, or as that of
a scene of the same act. -/
inductive FirstRepeated (as : List Act) : Fault → Prop
  | act {before after : List Act} {a : Act} : as = before ++ a :: after → NumeralsDiffer before →
      a.number.text ∈ before.map (fun b => b.number.text) →
      FirstRepeated as (.error (.repeatedAct a.number.text) (some a.number.span))
  | scene {before after : List Act} {a : Act} {earlier later : List Scene} {s : Scene} :
      as = before ++ a :: after → NumeralsDiffer before →
      a.number.text ∉ before.map (fun b => b.number.text) →
      a.scenes = earlier ++ s :: later → (earlier.map fun t => t.number.text).Nodup →
      s.number.text ∈ earlier.map (fun t => t.number.text) →
      FirstRepeated as (.error (.repeatedScene s.number.text a.number.text) (some s.number.span))

theorem FirstRepeated.not_numeralsDiffer {as : List Act} {f : Fault} (h : FirstRepeated as f) :
    ¬ NumeralsDiffer as := by
  intro hd
  cases h with
  | act has _ ha =>
    have hn := hd.1
    rw [has, List.map_append, List.map_cons, List.nodup_middle, List.nodup_cons] at hn
    exact hn.1 (List.mem_append_left _ ha)
  | @scene _ _ a _ _ _ has _ _ hscenes _ hs =>
    have hn := hd.2 a (has ▸ List.mem_append_right _ List.mem_cons_self)
    rw [hscenes, List.map_append, List.map_cons, List.nodup_middle, List.nodup_cons] at hn
    exact hn.1 (List.mem_append_left _ hs)

namespace Script

/-! ### The entries of a layout -/

/-- The entries of scenes that begin after `n` operations. -/
def sceneEntries (n : Nat) : List Scene → List (String × Nat)
  | [] => []
  | s :: ss => (s.number.text, n) :: sceneEntries (n + s.operations.length) ss

/-- The entries of acts that begin after `n` operations. -/
def actEntries (n : Nat) : List Act → List ActEntry
  | [] => []
  | a :: as => ⟨a.number.text, n, sceneEntries n a.scenes⟩ :: actEntries (n + a.operations.length) as

theorem sceneEntries_keys (ss : List Scene) :
    ∀ n, (sceneEntries n ss).map Prod.fst = ss.map fun s => s.number.text := by
  induction ss with
  | nil => exact fun n => rfl
  | cons s ss ih =>
    intro n
    rw [sceneEntries, List.map_cons, List.map_cons, ih]

theorem actEntries_keys (as : List Act) :
    ∀ n, (actEntries n as).map ActEntry.numeral = as.map fun a => a.number.text := by
  induction as with
  | nil => exact fun n => rfl
  | cons a as ih =>
    intro n
    rw [actEntries, List.map_cons, List.map_cons, ih]

theorem sceneEntries_append (ss ts : List Scene) :
    ∀ n, sceneEntries n (ss ++ ts) = sceneEntries n ss ++
      sceneEntries (n + (ss.flatMap Scene.operations).length) ts := by
  induction ss with
  | nil => exact fun n => rfl
  | cons s ss ih =>
    intro n
    rw [List.cons_append, sceneEntries, sceneEntries, ih, List.flatMap_cons, List.length_append, Nat.add_assoc,
      List.cons_append]

theorem actEntries_append (as bs : List Act) :
    ∀ n, actEntries n (as ++ bs) = actEntries n as ++ actEntries (n + (as.flatMap Act.operations).length) bs := by
  induction as with
  | nil => exact fun n => rfl
  | cons a as ih =>
    intro n
    rw [List.cons_append, actEntries, actEntries, ih, List.flatMap_cons, List.length_append, Nat.add_assoc,
      List.cons_append]

theorem sceneEntries_position (ss : List Scene) :
    ∀ n, ∀ x ∈ sceneEntries n ss, x.2 ≤ n + (ss.flatMap Scene.operations).length := by
  induction ss with
  | nil => exact fun n x hx => absurd hx List.not_mem_nil
  | cons s ss ih =>
    intro n x hx
    rw [List.flatMap_cons, List.length_append]
    rcases List.mem_cons.mp hx with rfl | hx
    · show n ≤ n + _
      omega
    · have := ih _ x hx
      omega

/-- Entries are positions between the operations laid before and those laid after. -/
theorem actEntries_position (as : List Act) :
    ∀ n, ∀ e ∈ actEntries n as, n ≤ e.position ∧ e.position ≤ n + (as.flatMap Act.operations).length := by
  induction as with
  | nil => exact fun n e he => absurd he List.not_mem_nil
  | cons a as ih =>
    intro n e he
    rw [List.flatMap_cons, List.length_append]
    rcases List.mem_cons.mp he with rfl | he
    · constructor
      · exact Nat.le_refl n
      · show n ≤ n + _
        omega
    · obtain ⟨h1, h2⟩ := ih _ e he
      omega

theorem actEntries_scenes (as : List Act) :
    ∀ n, ∀ e ∈ actEntries n as, ∀ x ∈ e.scenes, x.2 ≤ n + (as.flatMap Act.operations).length := by
  induction as with
  | nil => exact fun n e he => absurd he List.not_mem_nil
  | cons a as ih =>
    intro n e he x hx
    rw [List.flatMap_cons, List.length_append]
    rcases List.mem_cons.mp he with rfl | he
    · have hle : x.2 ≤ n + a.operations.length := sceneEntries_position a.scenes n x hx
      omega
    · have := ih _ e he x hx
      omega

/-! ### The pass over scenes and acts -/

theorem layScenes_cases (act : String) :
    ∀ (ss : List Scene) (entries : List (String × Nat)) (ops : List Operation), (entries.map Prod.fst).Nodup →
    ((entries.map Prod.fst ++ ss.map fun s => s.number.text).Nodup ∧
      layScenes act entries ops ss =
        .ok (entries ++ sceneEntries ops.length ss, ops ++ ss.flatMap Scene.operations)) ∨
    ∃ before s after, ss = before ++ s :: after ∧
      (entries.map Prod.fst ++ before.map fun s => s.number.text).Nodup ∧
      s.number.text ∈ entries.map Prod.fst ++ before.map (fun s => s.number.text) ∧
      layScenes act entries ops ss = .error (.error (.repeatedScene s.number.text act) (some s.number.span))
  | [], entries, ops, hn => by
    left
    simpa [layScenes, sceneEntries] using hn
  | s :: ss, entries, ops, hn => by
    by_cases hs : s.number.text ∈ entries.map Prod.fst
    · right
      refine ⟨[], s, ss, rfl, by simpa using hn, by simpa using hs, ?_⟩
      rw [layScenes, if_pos hs]
    · have hlay : layScenes act entries ops (s :: ss) =
          layScenes act (entries ++ [(s.number.text, ops.length)]) (ops ++ s.operations) ss := by
        rw [layScenes, if_neg hs]
        rfl
      have hn' : ((entries ++ [(s.number.text, ops.length)]).map Prod.fst).Nodup := by
        rw [List.map_append, List.map_singleton, ← List.concat_eq_append]
        exact List.Nodup.concat hs hn
      have hkeys : ∀ ks, (entries ++ [(s.number.text, ops.length)]).map Prod.fst ++ ks =
          entries.map Prod.fst ++ s.number.text :: ks := by
        intro ks
        rw [List.map_append, List.map_singleton, List.append_assoc, List.singleton_append]
      -- the scene is one of those before now, with its numeral at the end of theirs
      rcases layScenes_cases act ss _ (ops ++ s.operations) hn' with ⟨hd, h⟩ | ⟨before, t, after, rfl, hd, ht, h⟩
      · left
        rw [hkeys] at hd
        refine ⟨hd, ?_⟩
        rw [hlay, h, sceneEntries, List.length_append, List.flatMap_cons, List.append_assoc, List.append_assoc]
        rfl
      · right
        rw [hkeys] at hd ht
        exact ⟨s :: before, t, after, rfl, hd, ht, hlay.trans h⟩

theorem numeralsDiffer_concat {a : Act} {as : List Act} (h : NumeralsDiffer as)
    (hna : a.number.text ∉ as.map fun b => b.number.text) (ha : (a.scenes.map fun s => s.number.text).Nodup) :
    NumeralsDiffer (as ++ [a]) := by
  constructor
  · rw [List.map_append, List.map_singleton, ← List.concat_eq_append]
    exact List.Nodup.concat hna h.1
  · intro b hb
    rcases List.mem_append.mp hb with hb | hb
    · exact h.2 b hb
    · rw [List.mem_singleton.mp hb]
      exact ha

/-- The pass over acts `as` after acts `done` that are laid out already. -/
theorem layActs_cases : ∀ (as done : List Act), NumeralsDiffer done →
    (NumeralsDiffer (done ++ as) ∧ layActs (actEntries 0 done) (done.flatMap Act.operations) as =
      .ok (actEntries 0 (done ++ as), (done ++ as).flatMap Act.operations)) ∨
    ∃ f, FirstRepeated (done ++ as) f ∧ layActs (actEntries 0 done) (done.flatMap Act.operations) as = .error f
  | [], done, hd => by
    left
    rw [List.append_nil]
    exact ⟨hd, rfl⟩
  | a :: as, done, hd => by
    by_cases ha : a.number.text ∈ done.map fun b => b.number.text
    · right
      refine ⟨_, FirstRepeated.act rfl hd ha, ?_⟩
      rw [layActs, actEntries_keys, if_pos ha]
    · rcases layScenes_cases a.number.text a.scenes [] (done.flatMap Act.operations) List.nodup_nil with
        ⟨hs, h⟩ | ⟨earlier, s, later, hscenes, he, hs, h⟩
      · -- the accumulators are the layout of the acts before, now with this one
        have hstep : layActs (actEntries 0 done) (done.flatMap Act.operations) (a :: as) =
            layActs (actEntries 0 (done ++ [a])) ((done ++ [a]).flatMap Act.operations) as := by
          rw [layActs, actEntries_keys, if_neg ha, h, actEntries_append, List.flatMap_append,
            List.flatMap_singleton, Nat.zero_add]
          rfl
        rw [List.append_cons, hstep]
        exact layActs_cases as (done ++ [a]) (numeralsDiffer_concat hd ha hs)
      · right
        refine ⟨_, FirstRepeated.scene rfl hd ha hscenes he hs, ?_⟩
        rw [layActs, actEntries_keys, if_neg ha, h]

/-- The layout of acts whose numerals differ. -/
def ofActs (source : List Char) (as : List Act) : Script := ⟨source, as.flatMap Act.operations, actEntries 0 as⟩

/-- A play is laid out as its acts stand, or fails for its first repeated numeral. -/
theorem ofPlay_cases (source : List Char) (p : Play) :
    (NumeralsDiffer p.acts ∧ ofPlay source p = .ok (ofActs source p.acts)) ∨
      ∃ f, FirstRepeated p.acts f ∧ ofPlay source p = .error f := by
  have hnil : NumeralsDiffer [] := ⟨List.nodup_nil, fun a ha => absurd ha List.not_mem_nil⟩
  unfold ofPlay
  rcases layActs_cases p.acts [] hnil with ⟨hd, h⟩ | ⟨f, hf, h⟩
  · left
    refine ⟨hd, ?_⟩
    rw [show layActs [] [] p.acts = _ from h]
    rfl
  · right
    refine ⟨f, hf, ?_⟩
    rw [show layActs [] [] p.acts = _ from h]

theorem ofPlay_eq_ok_iff {source : List Char} {p : Play} {s : Script} :
    ofPlay source p = .ok s ↔ NumeralsDiffer p.acts ∧ s = ofActs source p.acts := by
  rcases ofPlay_cases source p with ⟨hd, h⟩ | ⟨f, hf, h⟩
  · rw [h]
    constructor
    · exact fun hs => ⟨hd, (Except.ok.inj hs).symm⟩
    · rintro ⟨-, rfl⟩
      rfl
  · rw [h]
    constructor
    · exact fun hs => nomatch hs
    · exact fun hs => absurd hs.1 hf.not_numeralsDiffer

/-! ### Looking things up in a layout -/

theorem actEntries_of_start {as : List Act} {a : Act} {n : Nat} (h : ActStart as a n) :
    ∃ before after, as = before ++ a :: after ∧ n = (before.flatMap Act.operations).length ∧
      actEntries 0 as = actEntries 0 before ++ ⟨a.number.text, n, sceneEntries n a.scenes⟩ ::
        actEntries (n + a.operations.length) after := by
  obtain ⟨before, after, rfl, rfl⟩ := h
  refine ⟨before, after, rfl, rfl, ?_⟩
  rw [actEntries_append, Nat.zero_add, actEntries]

theorem act?_of_start {source : List Char} {as : List Act} {a : Act} {n : Nat} (hd : NumeralsDiffer as)
    (h : ActStart as a n) :
    (ofActs source as).act? a.number.text = some ⟨a.number.text, n, sceneEntries n a.scenes⟩ := by
  obtain ⟨before, after, rfl, -, hentries⟩ := actEntries_of_start h
  unfold act? ofActs
  refine List.find?_eq_some_iff_append.mpr ⟨beq_self_eq_true _, _, _, hentries, ?_⟩
  intro e he
  have hkey : e.numeral ∈ before.map fun b => b.number.text := by
    rw [← actEntries_keys before 0]
    exact List.mem_map_of_mem he
  have hn := hd.1
  rw [List.map_append, List.map_cons, List.nodup_middle, List.nodup_cons] at hn
  simp only [Bool.not_eq_eq_eq_not, Bool.not_true, beq_eq_false_iff_ne]
  rintro heq
  exact hn.1 (List.mem_append_left _ (heq ▸ hkey))

theorem act?_eq_none {source : List Char} {as : List Act} {numeral : String}
    (h : numeral ∉ as.map fun a => a.number.text) : (ofActs source as).act? numeral = none := by
  unfold act? ofActs
  rw [List.find?_eq_none]
  intro e he heq
  rw [← actEntries_keys as 0] at h
  exact h (eq_of_beq heq ▸ List.mem_map_of_mem he)

theorem lookup_sceneEntries {ss : List Scene} {s : Scene} {m : Nat} (hn : (ss.map fun t => t.number.text).Nodup)
    (h : SceneStart ss s m) (n : Nat) : (sceneEntries n ss).lookup s.number.text = some (n + m) := by
  obtain ⟨before, after, rfl, rfl⟩ := h
  apply lookup_of_mem
  · rw [sceneEntries_keys]
    exact hn
  · rw [sceneEntries_append, sceneEntries]
    exact List.mem_append_right _ List.mem_cons_self

theorem lastActFrom_mem (k : Int) : ∀ (x : ActEntry) (l : List ActEntry), lastActFrom k x l ∈ x :: l
  | x, [] => List.mem_cons_self
  | x, y :: l => by
    unfold lastActFrom
    split
    · exact List.mem_cons_self
    · exact List.mem_cons_of_mem x (lastActFrom_mem k y l)

theorem actAt?_mem {s : Script} {k : Int} {e : ActEntry} (h : s.actAt? k = some e) : e ∈ s.acts := by
  unfold actAt? at h
  split at h
  · cases h
  · next x l hacts =>
    rw [hacts, ← Option.some.inj h]
    exact lastActFrom_mem k x l

theorem lastActFrom_append {k : Int} {e : ActEntry} {r : List ActEntry} (he : e.position ≤ k) :
    ∀ (l : List ActEntry) (x : ActEntry), (∀ b ∈ l, (b.position : Int) ≤ k) →
      lastActFrom k x (l ++ e :: r) = lastActFrom k e r
  | [], x, _ => by
    show (if k < e.position then x else lastActFrom k e r) = _
    rw [if_neg (by omega)]
  | y :: l, x, h => by
    obtain ⟨hy, hl⟩ := List.forall_mem_cons.mp h
    show (if k < y.position then x else lastActFrom k y (l ++ e :: r)) = _
    rw [if_neg (by omega)]
    exact lastActFrom_append he l y hl

theorem lastActFrom_of_lt {k : Int} {e : ActEntry} {r : List ActEntry} (h : ∀ b ∈ r, k < b.position) :
    lastActFrom k e r = e := by
  cases r with
  | nil => rfl
  | cons b r =>
    show (if k < b.position then e else lastActFrom k b r) = e
    rw [if_pos (h b List.mem_cons_self)]

/-- Acts without operations before and after do not get in the way: the first operations of the next act come after
position `k`, and whatever begins at or before it is passed over. -/
theorem actAt?_of_start {source : List Char} {as : List Act} {a : Act} {n k : Nat} (h : ActStart as a n)
    (hn : n ≤ k) (hk : k < n + a.operations.length) :
    (ofActs source as).actAt? k = some ⟨a.number.text, n, sceneEntries n a.scenes⟩ := by
  obtain ⟨before, after, -, hbefore, hentries⟩ := actEntries_of_start h
  have hl : ∀ b ∈ actEntries 0 before, (b.position : Int) ≤ k := by
    intro b hb
    have := (actEntries_position before 0 b hb).2
    omega
  have hr : ∀ b ∈ actEntries (n + a.operations.length) after, (k : Int) < b.position := by
    intro b hb
    have := (actEntries_position after _ b hb).1
    omega
  unfold actAt? ofActs
  rw [hentries]
  cases hbs : actEntries 0 before with
  | nil =>
    rw [List.nil_append]
    exact congrArg some (lastActFrom_of_lt hr)
  | cons x xs =>
    rw [hbs] at hl
    rw [List.cons_append]
    show some (lastActFrom k x (xs ++ _ :: _)) = _
    rw [lastActFrom_append (by show (n : Int) ≤ k; omega) xs x (List.forall_mem_cons.mp hl).2,
      lastActFrom_of_lt hr]

end Script

/-- Every operation belongs to an act. -/
theorem exists_actStart {as : List Act} : ∀ {k : Nat}, k < (as.flatMap Act.operations).length →
    ∃ a n, ActStart as a n ∧ n ≤ k ∧ k < n + a.operations.length ∧
      (as.flatMap Act.operations)[k]? = a.operations[k - n]? := by
  induction as with
  | nil => exact fun h => absurd h (Nat.not_lt_zero _)
  | cons a as ih =>
    intro k hk
    rw [List.flatMap_cons, List.length_append] at hk
    by_cases hka : k < a.operations.length
    · refine ⟨a, 0, ⟨[], as, rfl, rfl⟩, Nat.zero_le k, by omega, ?_⟩
      rw [List.flatMap_cons, List.getElem?_append_left hka, Nat.sub_zero]
    · obtain ⟨b, n, ⟨before, after, has, hn⟩, h1, h2, h3⟩ := ih (k := k - a.operations.length) (by omega)
      refine ⟨b, a.operations.length + n, ⟨a :: before, after, ?_, ?_⟩, by omega, by omega, ?_⟩
      · rw [has, List.cons_append]
      · rw [hn, List.flatMap_cons, List.length_append]
      · rw [List.flatMap_cons, List.getElem?_append_right (by omega), h3, Nat.sub_sub]

/-- **The layout of a play.** It exists if and only if the numerals differ, and else the first repeated one is at
fault. The operations are those of all events in the order of the source, the entry of an act or scene is the
number of operations before it, and the act of a position is the one that the operation there belongs to. -/
theorem script_layout (source : List Char) (p : Play) :
    ((∃ s, Script.ofPlay source p = .ok s) ↔ NumeralsDiffer p.acts) ∧
    (¬ NumeralsDiffer p.acts → ∃ f, FirstRepeated p.acts f ∧ Script.ofPlay source p = .error f) ∧
    ∀ s, Script.ofPlay source p = .ok s →
      s.operations = p.acts.flatMap (fun a => a.scenes.flatMap fun t => t.events.flatMap Operation.ofEvent) ∧
      (∀ e, (Operation.ofEvent e).length = e.parts) ∧
      s.acts.map ActEntry.numeral = p.acts.map (fun a => a.number.text) ∧
      (∀ a n, ActStart p.acts a n → ∃ entry, s.act? a.number.text = some entry ∧ entry.position = n ∧
        entry.scenes.map Prod.fst = a.scenes.map (fun t => t.number.text) ∧
        ∀ t m, SceneStart a.scenes t m → entry.scenes.lookup t.number.text = some (n + m)) ∧
      ∀ k < s.operations.length, ∃ a n, ActStart p.acts a n ∧ n ≤ k ∧ k < n + a.operations.length ∧
        s.operations[k]? = a.operations[k - n]? ∧ (s.actAt? k).map ActEntry.numeral = some a.number.text := by
  refine ⟨⟨?_, ?_⟩, ?_, ?_⟩
  · rintro ⟨s, hs⟩
    exact (Script.ofPlay_eq_ok_iff.mp hs).1
  · exact fun hd => ⟨_, Script.ofPlay_eq_ok_iff.mpr ⟨hd, rfl⟩⟩
  · intro hd
    rcases Script.ofPlay_cases source p with ⟨hd', -⟩ | hf
    · exact absurd hd' hd
    · exact hf
  · intro s hs
    obtain ⟨hd, rfl⟩ := Script.ofPlay_eq_ok_iff.mp hs
    refine ⟨rfl, length_ofEvent, Script.actEntries_keys p.acts 0, ?_, ?_⟩
    · intro a n ha
      refine ⟨_, Script.act?_of_start hd ha, rfl, Script.sceneEntries_keys a.scenes n, ?_⟩
      exact fun t m ht => Script.lookup_sceneEntries (hd.2 a ha.mem) ht n
    · intro k hk
      obtain ⟨a, n, ha, hnk, hkn, hop⟩ := exists_actStart hk
      refine ⟨a, n, ha, hnk, hkn, hop, ?_⟩
      rw [Script.actAt?_of_start ha hnk hkn]
      rfl

/-- Three acts, the second of which holds the only operation. -/
def sparseActs : List Act :=
  [⟨⟨⟨0, 1⟩, "I"⟩, "", []⟩,
    ⟨⟨⟨1, 2⟩, "II"⟩, "", [⟨⟨⟨2, 3⟩, "I"⟩, "", [.breakpoint ⟨3, 4⟩]⟩]⟩,
    ⟨⟨⟨4, 5⟩, "III"⟩, "", []⟩]

/-- The third act begins at the end of the operations. -/
theorem script_layout_empty_acts :
    NumeralsDiffer sparseActs ∧ ∃ s, Script.ofPlay [] ⟨"", [], sparseActs⟩ = .ok s ∧ s.operations.length = 1 ∧
      ∃ entry, s.act? "III" = some entry ∧ entry.position = 1 := by
  have hd : NumeralsDiffer sparseActs := by decide
  obtain ⟨hok, -, hlayout⟩ := script_layout [] ⟨"", [], sparseActs⟩
  obtain ⟨s, hs⟩ := hok.mpr hd
  obtain ⟨hops, -, -, hacts, -⟩ := hlayout s hs
  have hthird : ActStart sparseActs ⟨⟨⟨4, 5⟩, "III"⟩, "", []⟩ 1 := ⟨sparseActs.take 2, [], rfl, rfl⟩
  obtain ⟨entry, he, hposition, -⟩ := hacts _ 1 hthird
  exact ⟨hd, s, hs, by rw [hops]; rfl, entry, he, hposition⟩

end Playhouse
