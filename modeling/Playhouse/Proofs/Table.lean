import Mathlib.Data.List.Nodup
import Playhouse.Stage

/-!
# Playhouse.Proofs.Table — tables as lists of pairs

The cast, the opposites and the scenes of an act are tables: lists of pairs of a name and what is kept under it. A
look-up finds the first entry of a name, so that it finds every entry of a table whose names are different.
-/

namespace Playhouse

theorem mem_of_lookup {κ α : Type} [BEq κ] [LawfulBEq κ] {t : List (κ × α)} {k : κ} {v : α}
    (h : t.lookup k = some v) :
    (k, v) ∈ t := by
  obtain ⟨l, r, rfl, -⟩ := List.lookup_eq_some_iff.mp h
  exact List.mem_append_right l List.mem_cons_self

variable {α : Type} {t : List (String × α)} {k : String} {v : α}

theorem lookup_of_mem (hn : (t.map Prod.fst).Nodup) (h : (k, v) ∈ t) : t.lookup k = some v := by
  obtain ⟨l, r, rfl⟩ := List.append_of_mem h
  refine List.lookup_eq_some_iff.mpr ⟨l, r, rfl, fun p hp => ?_⟩
  rw [bne_iff_ne]
  rintro rfl
  rw [List.map_append, List.map_cons] at hn
  exact (List.nodup_append.mp hn).2.2 _ (List.mem_map_of_mem hp) _ List.mem_cons_self rfl

theorem mem_keys_iff_lookup : k ∈ t.map Prod.fst ↔ ∃ v, t.lookup k = some v := by
  rw [← Option.isSome_iff_exists, List.lookup_isSome_iff]
  constructor
  · intro h
    obtain ⟨p, hp, rfl⟩ := List.mem_map.mp h
    exact ⟨p, hp, beq_self_eq_true _⟩
  · rintro ⟨p, hp, hk⟩
    rw [eq_of_beq hk]
    exact List.mem_map_of_mem hp

/-- Writing under a name that is in the table does not change the names. -/
theorem keys_tableSet (h : k ∈ t.map Prod.fst) : (Stage.tableSet k v t).map Prod.fst = t.map Prod.fst := by
  induction t with
  | nil => exact absurd h List.not_mem_nil
  | cons p ps ih =>
    obtain ⟨k', v'⟩ := p
    unfold Stage.tableSet
    by_cases hk : k' = k
    · rw [if_pos hk, List.map_cons, List.map_cons, hk]
    · rw [if_neg hk, List.map_cons, List.map_cons]
      rw [List.map_cons, List.mem_cons] at h
      rw [ih (h.resolve_left fun he => hk he.symm)]

theorem lookup_tableSet_self : (Stage.tableSet k v t).lookup k = some v := by
  induction t with
  | nil => simp [Stage.tableSet]
  | cons p ps ih =>
    unfold Stage.tableSet
    split
    · rw [List.lookup_cons_self]
    · next hk => rw [List.lookup_cons, beq_eq_false_iff_ne.mpr (Ne.symm hk), ih]

/-- What is kept under other names stays. -/
theorem lookup_tableSet_of_ne {k' : String} (h : k' ≠ k) : (Stage.tableSet k v t).lookup k' = t.lookup k' := by
  induction t with
  | nil => simp [Stage.tableSet, h]
  | cons p ps ih =>
    unfold Stage.tableSet
    split
    · next hk =>
      subst hk
      rw [List.lookup_cons, List.lookup_cons, beq_eq_false_iff_ne.mpr h]
    · rw [List.lookup_cons, List.lookup_cons, ih]

theorem mem_tableSet {x : String × α} (h : x ∈ Stage.tableSet k v t) : x = (k, v) ∨ x ∈ t := by
  induction t with
  | nil => exact .inl (List.mem_singleton.mp h)
  | cons p ps ih =>
    obtain ⟨k', v'⟩ := p
    unfold Stage.tableSet at h
    split at h
    · obtain rfl | h := List.mem_cons.mp h
      · exact .inl rfl
      · exact .inr (List.mem_cons_of_mem _ h)
    · obtain rfl | h := List.mem_cons.mp h
      · exact .inr List.mem_cons_self
      · exact (ih h).imp_right (List.mem_cons_of_mem _)

end Playhouse
