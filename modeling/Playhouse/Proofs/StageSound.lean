import Mathlib.Data.List.Perm.Basic
import Playhouse.Proofs.Ends
import Playhouse.Proofs.Table
import Playhouse.Script

/-!
# Playhouse.Proofs.StageSound — what holds of every stage

The table of opposites is written to when a second character is on stage, and emptied in any other number; it is
never rewritten as a whole. `Stage.Sound` says that it is right all the same, and that the stage holds declared
characters, each once. Arrivals and departures keep a stage sound. On a sound stage a character speaks to the only
other one there, and the text of the stage shows everybody once.
-/

namespace Playhouse

namespace Stage

/-- The table of opposites that belongs to those on stage: two face each other, in any other number nobody is
faced. -/
def facing : List String → List (String × String)
  | [a, b] => [(a, b), (b, a)]
  | _ => []

/-- Each name of the cast is declared once, those on stage are declared and are there once, and the table of
opposites belongs to them. -/
structure Sound (s : Stage) : Prop where
  cast_nodup : s.names.Nodup
  present_nodup : s.present.Nodup
  declared : ∀ n ∈ s.present, n ∈ s.names
  opposites_eq : s.opposites = facing s.present

/-! ### Changes of who is on stage -/

theorem facing_of_length_ne {ps : List String} (h : ps.length ≠ 2) : facing ps = [] := by
  unfold facing
  split
  · exact absurd rfl h
  · rfl

@[simp] theorem updateOpposites_present (s : Stage) : s.updateOpposites.present = s.present := by
  unfold updateOpposites
  split <;> simp_all

@[simp] theorem updateOpposites_cast (s : Stage) : s.updateOpposites.cast = s.cast := by
  unfold updateOpposites
  split <;> rfl

@[simp] theorem updateOpposites_flag (s : Stage) : s.updateOpposites.flag = s.flag := by
  unfold updateOpposites
  split <;> rfl

/-- Writing two who face each other into the table is right if it was empty or held these two already. -/
theorem updateOpposites_opposites {s : Stage} (hn : s.present.Nodup)
    (h : s.present.length = 2 → s.opposites = [] ∨ s.opposites = facing s.present) :
    s.updateOpposites.opposites = facing s.present := by
  unfold updateOpposites
  split
  · next a b hp =>
    have hab : a ≠ b := by
      rw [hp] at hn
      simpa using hn
    rw [hp] at h ⊢
    rcases h rfl with h | h
    · simp [h, tableSet, facing, hab]
    · simp [h, tableSet, facing, hab]
  · next hp =>
    symm
    apply facing_of_length_ne
    intro hlen
    obtain ⟨a, b, hab⟩ := List.length_eq_two.mp hlen
    exact hp a b hab

/-- Others may come to be on stage, provided that two do not turn into another two. -/
theorem Sound.update {s : Stage} (h : s.Sound) {ps : List String} (hn : ps.Nodup) (hd : ∀ n ∈ ps, n ∈ s.names)
    (hp : ps.length = 2 → s.present.length ≠ 2 ∨ ps = s.present) :
    (updateOpposites { s with present := ps }).Sound := by
  refine ⟨?_, ?_, ?_, ?_⟩
  · unfold names
    rw [updateOpposites_cast]
    exact h.cast_nodup
  · rw [updateOpposites_present]
    exact hn
  · unfold names
    rw [updateOpposites_present, updateOpposites_cast]
    exact hd
  · rw [updateOpposites_present]
    apply updateOpposites_opposites hn
    intro hlen
    rcases hp hlen with hne | rfl
    · exact Or.inl (h.opposites_eq.trans (facing_of_length_ne hne))
    · exact Or.inr h.opposites_eq

theorem Sound.arrive {s : Stage} (h : s.Sound) {n : String} (hn : n ∈ s.names) : (s.arrive n).Sound := by
  unfold Stage.arrive
  by_cases hp : n ∈ s.present
  · rw [if_pos hp]
    exact h.update h.present_nodup h.declared fun _ => Or.inr rfl
  · rw [if_neg hp]
    apply h.update
    · rw [← List.concat_eq_append]
      exact List.Nodup.concat hp h.present_nodup
    · intro a ha
      rcases List.mem_append.mp ha with ha | ha
      · exact h.declared a ha
      · rw [List.mem_singleton.mp ha]
        exact hn
    · intro hlen
      rw [List.length_append, List.length_singleton] at hlen
      left
      omega

theorem filter_ne_eq_self {ps : List String} {n : String} (h : n ∉ ps) : ps.filter (· ≠ n) = ps := by
  rw [List.filter_eq_self]
  intro a ha
  simp only [decide_eq_true_eq]
  rintro rfl
  exact h ha

theorem length_filter_ne {ps : List String} (hn : ps.Nodup) {n : String} (h : n ∈ ps) :
    (ps.filter (· ≠ n)).length + 1 = ps.length := by
  have herase : ps.filter (· ≠ n) = ps.erase n := by
    rw [hn.erase_eq_filter]
    refine List.filter_congr fun a _ => ?_
    rw [Bool.eq_iff_iff, decide_eq_true_iff, bne_iff_ne]
  rw [herase]
  exact List.length_erase_add_one h

theorem Sound.leave {s : Stage} (h : s.Sound) (n : String) : (s.leave n).Sound := by
  unfold Stage.leave
  apply h.update
  · exact h.present_nodup.filter _
  · intro a ha
    exact h.declared a (List.mem_of_mem_filter ha)
  · intro hlen
    by_cases hp : n ∈ s.present
    · have := length_filter_ne h.present_nodup hp
      left
      omega
    · right
      exact filter_ne_eq_self hp

@[simp] theorem arrive_names (s : Stage) (n : String) : (s.arrive n).names = s.names := by
  unfold names Stage.arrive
  rw [updateOpposites_cast]

/-! ### Who speaks to whom -/

theorem opposite_eq_ok_iff_lookup {s : Stage} {c d : String} :
    s.opposite c = .ok d ↔ s.opposites.lookup c = some d := by
  unfold Stage.opposite
  split
  · next other h => rw [h]; simp
  · next h =>
    rw [h]
    split_ifs <;> simp

/-- In the table of those on stage, the one opposite to `c` is the only other one. -/
theorem lookup_facing {ps : List String} (hn : ps.Nodup) {c d : String} :
    (facing ps).lookup c = some d ↔ c ∈ ps ∧ ps.filter (· ≠ c) = [d] := by
  by_cases hlen : ps.length = 2
  · obtain ⟨a, b, rfl⟩ := List.length_eq_two.mp hlen
    have hab : a ≠ b := by simpa using hn
    have hkeys : ((facing [a, b]).map Prod.fst).Nodup := hn
    rw [show (facing [a, b]).lookup c = some d ↔ (c, d) ∈ facing [a, b] from ⟨mem_of_lookup, lookup_of_mem hkeys⟩]
    constructor
    · intro h
      simp only [facing, List.mem_cons, Prod.mk.injEq, List.not_mem_nil, or_false] at h
      rcases h with ⟨rfl, rfl⟩ | ⟨rfl, rfl⟩
      · simp [hab.symm]
      · simp [hab]
    · rintro ⟨hc, hd⟩
      simp only [List.mem_cons, List.not_mem_nil, or_false] at hc
      rcases hc with rfl | rfl
      · simp [hab.symm] at hd
        simp [facing, hd]
      · simp [hab] at hd
        simp [facing, hd]
  · rw [facing_of_length_ne hlen]
    constructor
    · intro h
      exact absurd h (by simp)
    · rintro ⟨hc, hd⟩
      have := length_filter_ne hn hc
      rw [hd, List.length_singleton] at this
      exact absurd this.symm hlen

theorem Sound.opposite_eq_ok_iff {s : Stage} (h : s.Sound) {c d : String} :
    s.opposite c = .ok d ↔ c ∈ s.present ∧ s.present.filter (· ≠ c) = [d] := by
  rw [opposite_eq_ok_iff_lookup, h.opposites_eq]
  exact lookup_facing h.present_nodup

theorem Sound.opposite_mem {s : Stage} (h : s.Sound) {c d : String} (hd : s.opposite c = .ok d) :
    d ∈ s.present ∧ d ≠ c := by
  have hmem : d ∈ s.present.filter (· ≠ c) := by
    rw [(h.opposite_eq_ok_iff.mp hd).2]
    exact List.mem_singleton_self d
  rw [List.mem_filter] at hmem
  exact ⟨hmem.1, by simpa using hmem.2⟩

/-- The one opposite to the one opposite to `c` is `c`. -/
theorem Sound.opposite_symm {s : Stage} (h : s.Sound) {c d : String} (hd : s.opposite c = .ok d) :
    s.opposite d = .ok c := by
  obtain ⟨hdp, hdc⟩ := h.opposite_mem hd
  obtain ⟨hc, hother⟩ := h.opposite_eq_ok_iff.mp hd
  rw [h.opposite_eq_ok_iff]
  refine ⟨hdp, ?_⟩
  -- two are on stage, so that one remains without `d`, and `c` does
  have hlen := length_filter_ne h.present_nodup hc
  have hlen' := length_filter_ne h.present_nodup hdp
  rw [hother, List.length_singleton] at hlen
  obtain ⟨e, he⟩ := List.length_eq_one_iff.mp (show (s.present.filter (· ≠ d)).length = 1 by omega)
  have hce : c ∈ s.present.filter (· ≠ d) := List.mem_filter.mpr ⟨hc, by simpa using hdc.symm⟩
  rw [he] at hce ⊢
  rw [List.mem_singleton.mp hce]

/-! ### The text of a stage -/

/-- Those on stage and those off stage are together the cast. -/
theorem Sound.listed_perm {s : Stage} (h : s.Sound) :
    (s.present ++ s.names.filter (· ∉ s.present)).Perm s.names := by
  have hp : s.present.Perm (s.names.filter (· ∈ s.present)) := by
    rw [List.perm_ext_iff_of_nodup h.present_nodup (h.cast_nodup.filter _)]
    intro a
    rw [List.mem_filter, decide_eq_true_iff]
    exact ⟨fun ha => ⟨h.declared a ha, ha⟩, fun ha => ha.2⟩
  have hall := List.filter_append_perm (fun a => decide (a ∈ s.present)) s.names
  simp only [← decide_not] at hall
  exact (hp.append_right _).trans hall

theorem mapM_ok {α β : Type} {f : α → Except Breakdown β} {g : α → β} {xs : List α}
    (h : ∀ x ∈ xs, f x = .ok (g x)) : xs.mapM f = .ok (xs.map g) := by
  induction xs with
  | nil => rfl
  | cons x xs ih =>
    rw [List.mapM_cons, h x List.mem_cons_self, ih fun y hy => h y (List.mem_cons_of_mem x hy)]
    rfl

/-- What a character who holds nothing yet is shown as. -/
def freshLine (name : String) : String := "  " ++ name ++ " = 0 ()"

theorem numeral_zero : Number.numeral 0 = .ok "0" := by
  have h : Int.natAbs 0 < Number.numeralBound := by
    unfold Number.numeralBound
    rw [Nat.pow_eq]
    exact Nat.pow_pos (by decide)
  unfold Number.numeral
  rw [if_pos h]
  rfl

theorem entryText_fresh (name : String) : entryText (name, {}) = .ok (freshLine name) := by
  have htext : Character.text {} = .ok "0 ()" := by
    unfold Character.text
    rw [numeral_zero]
    rfl
  unfold entryText freshLine
  rw [htext]
  show Except.ok ("  " ++ name ++ " = " ++ "0 ()") = .ok ("  " ++ name ++ " = 0 ()")
  rw [String.append_assoc, show " = " ++ "0 ()" = " = 0 ()" from rfl]

section Fresh

variable {s : Stage} {names : List String} (hcast : s.cast = names.map (·, {}))
include hcast

theorem names_of_fresh : s.names = names := by
  unfold Stage.names
  rw [hcast, List.map_map]
  exact List.map_id names

theorem onStage_of_fresh (h : s.Sound) : s.onStage = s.present.map (·, {}) := by
  unfold onStage
  rw [← List.filterMap_eq_map]
  refine List.filterMap_congr fun n hn => ?_
  obtain ⟨c, hc⟩ := mem_keys_iff_lookup.mp (h.declared n hn)
  have hmem := mem_of_lookup hc
  rw [hcast] at hmem
  obtain ⟨m, -, hm⟩ := List.mem_map.mp hmem
  rw [hc, ← (Prod.mk.inj hm).2]
  rfl

theorem offStage_of_fresh : s.offStage = (names.filter (· ∉ s.present)).map (·, {}) := by
  unfold offStage
  rw [hcast, List.filter_map]
  rfl

/-- The text of a stage on which nobody holds anything yet. -/
theorem text_of_fresh (h : s.Sound) :
    s.text = .ok ("\n".intercalate (["global boolean = " ++ flagText s.flag, "on stage:"] ++
      s.present.map freshLine ++ ["off stage:"] ++ (names.filter (· ∉ s.present)).map freshLine)) := by
  have hlines : ∀ ns : List String, (ns.map (·, ({} : Character))).mapM entryText = .ok (ns.map freshLine) := by
    intro ns
    rw [mapM_ok (g := fun p => freshLine p.1), List.map_map]
    · rfl
    · intro p hp
      obtain ⟨n, -, rfl⟩ := List.mem_map.mp hp
      exact entryText_fresh n
  unfold text
  rw [onStage_of_fresh hcast h, offStage_of_fresh hcast, hlines, hlines]
  rfl

end Fresh

end Stage

end Playhouse
