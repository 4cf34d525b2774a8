import Mathlib.Data.List.Induction
import Playhouse.Proofs.Hazards

/-!
# Playhouse.Proofs.Departures — who goes in an exeunt

An exeunt looks for all whom it names before anybody goes, and then lets them go one after the other. What it has
looked for is the stage as it was, so that those who are named are found on stage even if they will have gone when
they are named again. Hence an exeunt is all or nothing as long as it names nobody twice, and stops halfway
otherwise. Main statement: `exeunt_unless_repeated`.
-/

namespace Playhouse

/-! ### The stage that is left -/

namespace Stage

variable {s : Stage}

/-- The stage without some of those on it. The others keep their order, and the table of opposites belongs to
them. -/
def without (s : Stage) (names : List String) : Stage :=
  { s with present := s.present.filter (· ∉ names), opposites := facing (s.present.filter (· ∉ names)) }

/-- What is wrong about somebody who is not on stage. -/
def absence (s : Stage) (name : String) : Cause :=
  if name ∈ s.names then .notOnStage name else .notInitialized name

theorem checkPresent_of_not_mem {n : String} (h : n ∉ s.present) :
    s.checkPresent n = .error (.error (s.absence n) none) := by
  unfold checkPresent absence
  rw [if_neg h]
  split <;> rfl

theorem not_mem_without {names : List String} {n : String} (h : n ∈ names) : n ∉ (s.without names).present := by
  unfold without
  rw [List.mem_filter, decide_eq_true_iff]
  exact fun hn => hn.2 h

/-- Leaving one after the other comes to the stage without all of them. -/
theorem Sound.foldl_leave (h : s.Sound) (names : List String) : names.foldl Stage.leave s = s.without names := by
  have hsound : (names.foldl Stage.leave s).Sound := foldl_leave_of (fun _ n ht => ht.leave n) names s h
  have hkept : (names.foldl Stage.leave s).flag = s.flag ∧ (names.foldl Stage.leave s).cast = s.cast := by
    refine foldl_leave_of (I := fun t => t.flag = s.flag ∧ t.cast = s.cast) (fun t n ht => ?_) names s ⟨rfl, rfl⟩
    unfold Stage.leave
    rw [updateOpposites_flag, updateOpposites_cast]
    exact ht
  have hpresent := foldl_leave_present names s
  have hopposites := hsound.opposites_eq
  rw [hpresent] at hopposites
  generalize names.foldl Stage.leave s = t at hkept hpresent hopposites
  obtain ⟨flag, cast, present, opposites⟩ := t
  obtain ⟨rfl, rfl⟩ := hkept
  subst hpresent hopposites
  rfl

end Stage

/-! ### Looking, and going -/

namespace StageM

variable {s : Stage} {ns before after : List String} {name : String}

theorem checks_of_present (h : ∀ n ∈ ns, n ∈ s.present) :
    ns.forM (fun n => check (·.checkPresent n)) s = .ok () s := by
  induction ns with
  | nil => rfl
  | cons n ns ih =>
    obtain ⟨hn, hns⟩ := List.forall_mem_cons.mp h
    exact (bind_of_ok (check_of_ok (checkPresent_ok_iff.mpr hn))).trans (ih hns)

/-- The first who is not on stage is told. -/
theorem checks_of_absent (hbefore : ∀ n ∈ before, n ∈ s.present) (hname : name ∉ s.present) :
    (before ++ name :: after).forM (fun n => check (·.checkPresent n)) s =
      .error (.error (s.absence name) none) s := by
  rw [forM_append_of_ok (checks_of_present hbefore)]
  exact bind_of_error (check_of_error (Stage.checkPresent_of_not_mem hname))

/-- Those who are on stage and are named once go. The induction is on the names; the one who goes is none of the
others. -/
theorem removals_of_nodup (hnodup : ns.Nodup) : ∀ {s : Stage}, (∀ n ∈ ns, n ∈ s.present) →
    ns.forM remove s = .ok () (ns.foldl Stage.leave s) := by
  induction ns with
  | nil => exact fun _ => rfl
  | cons n ns ih =>
    intro s h
    obtain ⟨hn, hns⟩ := List.forall_mem_cons.mp h
    obtain ⟨hother, hnodup⟩ := List.nodup_cons.mp hnodup
    refine (bind_of_ok (remove_of_mem hn)).trans (ih hnodup fun m hm => ?_)
    unfold Stage.leave
    rw [Stage.updateOpposites_present, List.mem_filter, decide_eq_true_iff]
    exact ⟨hns m hm, fun heq => hother (heq ▸ hm)⟩

theorem exeunt_of_nodup (hs : s.Sound) (h : ∀ n ∈ ns, n ∈ s.present) (hnodup : ns.Nodup) :
    exeunt ns s = .ok () (s.without ns) := by
  unfold exeunt
  rw [bind_of_ok (checks_of_present h), removals_of_nodup hnodup h, hs.foldl_leave]

theorem exeunt_of_absent (hbefore : ∀ n ∈ before, n ∈ s.present) (hname : name ∉ s.present) :
    exeunt (before ++ name :: after) s = .error (.error (s.absence name) none) s := by
  unfold exeunt
  exact bind_of_error (checks_of_absent hbefore hname)

/-- Those before the first who is named again have gone by then. -/
theorem exeunt_of_repeated (hs : s.Sound) (h : ∀ n ∈ before ++ name :: after, n ∈ s.present)
    (hnodup : before.Nodup) (hname : name ∈ before) :
    exeunt (before ++ name :: after) s = .error (.breakdown (.nobodyToRemove name)) (s.without before) := by
  have hgo : before.forM remove s = .ok () (s.without before) := by
    rw [removals_of_nodup hnodup fun n hn => h n (List.mem_append_left _ hn), hs.foldl_leave]
  unfold exeunt
  rw [bind_of_ok (checks_of_present h), forM_append_of_ok hgo]
  exact bind_of_error (remove_of_not_mem (Stage.not_mem_without hname))

end StageM

/-! ### All or nothing -/

theorem exists_first_absent {s : Stage} {names : List String} (h : ∃ n ∈ names, n ∉ s.present) :
    ∃ before name after, names = before ++ name :: after ∧ (∀ n ∈ before, n ∈ s.present) ∧ name ∉ s.present := by
  obtain ⟨n, hn, haway⟩ := h
  obtain ⟨name, hname⟩ := Option.isSome_iff_exists.mp
    (List.find?_isSome (p := fun n => decide (n ∉ s.present)).mpr ⟨n, hn, decide_eq_true haway⟩)
  obtain ⟨haway, before, after, rfl, hbefore⟩ := List.find?_eq_some_iff_append.mp hname
  exact ⟨before, name, after, rfl, fun n hn => by simpa using hbefore n hn, by simpa using haway⟩

theorem exists_first_repeated {names : List String} (h : ¬ names.Nodup) :
    ∃ before name after, names = before ++ name :: after ∧ before.Nodup ∧ name ∈ before := by
  induction names using List.reverseRecOn with
  | nil => exact absurd List.nodup_nil h
  | append_singleton ns n ih =>
    by_cases hnodup : ns.Nodup
    · have hmem : n ∈ ns := by
        by_contra hn
        rw [← List.concat_eq_append] at h
        exact h (List.Nodup.concat hn hnodup)
      exact ⟨ns, n, [], rfl, hnodup, hmem⟩
    · obtain ⟨before, name, after, rfl, hbefore, hname⟩ := ih hnodup
      exact ⟨before, name, after ++ [n], by rw [List.append_assoc, List.cons_append], hbefore, hname⟩

/-- **An exeunt is all or nothing, unless it names somebody twice.** Let a performance have come to any stage. If
all who are named are on stage, and once, then they go and nothing else is changed but whom the others face. If one
is not there, then the first of these is told in an error of the play, and the stage is as before. If all are there
but one is named again, then the exeunt breaks down where this happens first, and those who were named before are
gone. -/
theorem exeunt_unless_repeated {source : List Char} {play : Play} {p : Performance} (hp : p.Reachable source play)
    (names : List String) :
    ((∀ n ∈ names, n ∈ p.stage.present) → names.Nodup →
      StageM.exeunt names p.stage = .ok () (p.stage.without names)) ∧
    ((∃ n ∈ names, n ∉ p.stage.present) → ∃ before name after, names = before ++ name :: after ∧
      (∀ n ∈ before, n ∈ p.stage.present) ∧ name ∉ p.stage.present ∧
      StageM.exeunt names p.stage = .error (.error (p.stage.absence name) none) p.stage) ∧
    ((∀ n ∈ names, n ∈ p.stage.present) → ¬ names.Nodup → ∃ before name after, names = before ++ name :: after ∧
      before.Nodup ∧ name ∈ before ∧
      StageM.exeunt names p.stage = .error (.breakdown (.nobodyToRemove name)) (p.stage.without before)) := by
  have hs := hp.sound.stage
  refine ⟨fun hall hnodup => StageM.exeunt_of_nodup hs hall hnodup, fun haway => ?_, fun hall htwice => ?_⟩
  · obtain ⟨before, name, after, rfl, hbefore, hname⟩ := exists_first_absent haway
    exact ⟨before, name, after, rfl, hbefore, hname, StageM.exeunt_of_absent hbefore hname⟩
  · obtain ⟨before, name, after, rfl, hbefore, hname⟩ := exists_first_repeated htwice
    exact ⟨before, name, after, rfl, hbefore, hname, StageM.exeunt_of_repeated hs hall hbefore hname⟩

/-- Three personae and nothing to be performed. -/
def trio : Play :=
  ⟨"Trio", [⟨⟨0, 1⟩, ["Romeo"]⟩, ⟨⟨1, 2⟩, ["Juliet"]⟩, ⟨⟨2, 3⟩, ["The", "Ghost"]⟩], []⟩

/-- The performance of `trio` about to begin. -/
def trioStart : Performance :=
  ⟨Script.ofActs [] trio.acts, Stage.ofCast ["Romeo", "Juliet", "The Ghost"], 0, .basic [], .basic,
    ⟨[], none, "", ""⟩, []⟩

/-- All three have entered. -/
def trioEntered : Performance :=
  stateAfter (Request.direction (.enter ["Romeo", "Juliet", "The Ghost"])).perform trioStart

theorem trioEntered_reachable : trioEntered.Reachable [] trio := by
  have hstart : Performance.ofPlay [] trio (.basic []) .basic ⟨[], none, "", ""⟩ = .ok trioStart := rfl
  exact .ask _ (.start hstart)

/-- Two go; one is called who was never declared; one is named again. -/
theorem exeunt_unless_repeated_ghostly :
    StageM.exeunt ["The Ghost", "Romeo"] trioEntered.stage =
        .ok () ⟨false, [("Romeo", {}), ("Juliet", {}), ("The Ghost", {})], ["Juliet"], []⟩ ∧
      (∃ before name after, ["Romeo", "Hamlet"] = before ++ name :: after ∧ name ∉ trioEntered.stage.present ∧
        StageM.exeunt ["Romeo", "Hamlet"] trioEntered.stage =
          .error (.error (trioEntered.stage.absence name) none) trioEntered.stage) ∧
      (∃ before name after, ["Juliet", "Romeo", "Juliet"] = before ++ name :: after ∧ name ∈ before ∧
        StageM.exeunt ["Juliet", "Romeo", "Juliet"] trioEntered.stage =
          .error (.breakdown (.nobodyToRemove name)) (trioEntered.stage.without before)) := by
  have hgone := (exeunt_unless_repeated trioEntered_reachable ["The Ghost", "Romeo"]).1 (by decide) (by decide)
  obtain ⟨before, name, after, hsplit, -, haway, herror⟩ :=
    (exeunt_unless_repeated trioEntered_reachable ["Romeo", "Hamlet"]).2.1 ⟨"Hamlet", by decide, by decide⟩
  obtain ⟨before', name', after', hsplit', -, hmem, hbreak⟩ :=
    (exeunt_unless_repeated trioEntered_reachable ["Juliet", "Romeo", "Juliet"]).2.2 (by decide) (by decide)
  exact ⟨hgone, ⟨before, name, after, hsplit, haway, herror⟩, before', name', after', hsplit', hmem, hbreak⟩

/-- Romeo is named twice, and goes once. -/
theorem exeunt_can_stop_halfway :
    trioEntered.Reachable [] trio ∧ (∀ n ∈ ["Romeo", "Romeo"], n ∈ trioEntered.stage.present) ∧
      ∃ t, StageM.exeunt ["Romeo", "Romeo"] trioEntered.stage = .error (.breakdown (.nobodyToRemove "Romeo")) t ∧
        t.present = ["Juliet", "The Ghost"] ∧ t ≠ trioEntered.stage := by
  refine ⟨trioEntered_reachable, by decide, _, rfl, by decide, by decide⟩

end Playhouse
