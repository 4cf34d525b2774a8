import Playhouse.Proofs.StageSound

/-!
# Playhouse.Proofs.Directions — entrances and exits

What the stage directions do, one statement for each: how they end, and which stage they leave when they fail. All
checks are made before anybody moves, so that an error of the play leaves the stage as it was; only the breakdown
of an exeunt that names somebody twice leaves it in between. Whatever they do, they do by letting declared
characters arrive and others leave one after the other. Main statement: `stage_sound_after_directions`.
-/

namespace Playhouse

open Stage

/-! ### Looking at a stage -/

theorem checkAway_error {s : Stage} {n : String} {f : Fault} (h : s.checkAway n = .error f) :
    ∃ cause, f = .error cause none := by
  unfold Stage.checkAway at h
  split_ifs at h
  · exact ⟨_, (Except.error.inj h).symm⟩
  · exact ⟨_, (Except.error.inj h).symm⟩

theorem checkAway_ok {s : Stage} {n : String} (h : s.checkAway n = .ok ()) : n ∈ s.names := by
  unfold Stage.checkAway at h
  split_ifs at h with _ hn
  exact hn

theorem checkPresent_error {s : Stage} {n : String} {f : Fault} (h : s.checkPresent n = .error f) :
    ∃ cause, f = .error cause none := by
  unfold Stage.checkPresent at h
  split_ifs at h
  · exact ⟨_, (Except.error.inj h).symm⟩
  · exact ⟨_, (Except.error.inj h).symm⟩

theorem checkPresent_ok_iff {s : Stage} {n : String} : s.checkPresent n = .ok () ↔ n ∈ s.present := by
  unfold Stage.checkPresent
  split_ifs with h <;> simp [h]

namespace StageM

variable {s : Stage}

theorem check_of_ok {α : Type} {f : Stage → Except Fault α} {a : α} (h : f s = .ok a) : check f s = .ok a s := by
  unfold check
  rw [h]

theorem check_of_error {α : Type} {f : Stage → Except Fault α} {e : Fault} (h : f s = .error e) :
    check f s = .error e s := by
  unfold check
  rw [h]

theorem ends_check {α : Type} {f : Stage → Except Fault α} {Q : α → Stage → Prop} {E : Fault → Stage → Prop}
    (hok : ∀ a, f s = .ok a → Q a s) (herror : ∀ e, f s = .error e → E e s) : Ends (check f) s Q E := by
  cases h : f s with
  | ok a => exact ends_of_ok (check_of_ok h) (hok a h)
  | error e => exact ends_of_error (check_of_error h) (herror e h)

/-- Checks of one name after the other leave the stage as it is. -/
theorem ends_checks (f : String → Stage → Except Fault Unit) (ns : List String) :
    Ends (ns.forM fun n => check (f n)) s (fun _ t => t = s ∧ ∀ n ∈ ns, f n s = .ok ())
      (fun e t => t = s ∧ ∃ n ∈ ns, f n s = .error e) := by
  induction ns with
  | nil => exact ends_pure ⟨rfl, fun n hn => absurd hn List.not_mem_nil⟩
  | cons n ns ih =>
    show Ends (check (f n) >>= fun _ => ns.forM fun n => check (f n)) s _ _
    apply ends_bind
    refine ends_check (fun _ hn => ih.mono ?_ ?_) (fun e he => ⟨rfl, n, List.mem_cons_self, he⟩)
    · rintro _ t ⟨rfl, hall⟩
      exact ⟨rfl, List.forall_mem_cons.mpr ⟨hn, hall⟩⟩
    · rintro e t ⟨rfl, m, hm, he⟩
      exact ⟨rfl, m, List.mem_cons_of_mem n hm, he⟩

theorem remove_of_mem {n : String} (h : n ∈ s.present) : remove n s = .ok () (s.leave n) := by
  unfold remove
  rw [if_pos h]

theorem remove_of_not_mem {n : String} (h : n ∉ s.present) :
    remove n s = .error (.breakdown (.nobodyToRemove n)) s := by
  unfold remove
  rw [if_neg h]

theorem ends_arrivals {E : Fault → Stage → Prop} (ns : List String) :
    Ends (ns.forM fun n => modify (·.arrive n) : StageM Unit) s (fun _ t => t = ns.foldl Stage.arrive s) E := by
  induction ns generalizing s with
  | nil => exact ends_pure rfl
  | cons n ns ih =>
    show Ends ((modify (·.arrive n) : StageM Unit) >>= fun _ => ns.forM fun n => modify (·.arrive n)) s _ E
    exact ends_bind (ends_modify (ih (s := s.arrive n)))

/-- Who is to be removed but is not there any more stops the others from leaving. -/
theorem ends_removals (ns : List String) :
    Ends (ns.forM remove) s (fun _ t => t = ns.foldl Stage.leave s)
      (fun e t => (∃ b, e = .breakdown b) ∧ ∃ ms : List String, t = ms.foldl Stage.leave s) := by
  induction ns generalizing s with
  | nil => exact ends_pure rfl
  | cons n ns ih =>
    show Ends (remove n >>= fun _ => ns.forM remove) s _ _
    apply ends_bind
    by_cases hn : n ∈ s.present
    · refine ends_of_ok (remove_of_mem hn) ((ih (s := s.leave n)).mono (fun _ t ht => ht) ?_)
      rintro e t ⟨hb, ms, rfl⟩
      exact ⟨hb, n :: ms, rfl⟩
    · -- after the checks of an exeunt this can only be somebody who is named twice
      exact ends_of_error (remove_of_not_mem hn) ⟨⟨_, rfl⟩, [], rfl⟩

/-- All enter, or nobody does. -/
theorem ends_enter (ns : List String) :
    Ends (enter ns) s (fun _ t => t = ns.foldl Stage.arrive s ∧ ∀ n ∈ ns, n ∈ s.names)
      (fun e t => t = s ∧ ∃ cause, e = .error cause none) := by
  unfold enter
  apply ends_bind
  refine (ends_checks (fun n s => s.checkAway n) ns).mono ?_ ?_
  · rintro _ t ⟨rfl, hall⟩
    exact (ends_arrivals ns).mono (fun _ u hu => ⟨hu, fun n hn => checkAway_ok (hall n hn)⟩) (fun _ _ h => h)
  · rintro e t ⟨rfl, n, -, he⟩
    exact ⟨rfl, checkAway_error he⟩

theorem ends_exeunt (ns : List String) :
    Ends (exeunt ns) s (fun _ t => t = ns.foldl Stage.leave s)
      (fun e t => (t = s ∧ ∃ cause, e = .error cause none) ∨
        ((∃ b, e = .breakdown b) ∧ ∃ ms : List String, t = ms.foldl Stage.leave s)) := by
  unfold exeunt
  apply ends_bind
  refine (ends_checks (fun n s => s.checkPresent n) ns).mono ?_ ?_
  · rintro _ t ⟨rfl, -⟩
    exact (ends_removals ns).mono (fun _ _ h => h) (fun _ _ h => Or.inr h)
  · rintro e t ⟨rfl, n, -, he⟩
    exact Or.inl ⟨rfl, checkPresent_error he⟩

theorem ends_exeuntAll :
    Ends exeuntAll s (fun _ t => ∃ ms : List String, t = ms.foldl Stage.leave s)
      (fun e t => (∃ b, e = .breakdown b) ∧ ∃ ms : List String, t = ms.foldl Stage.leave s) := by
  unfold exeuntAll
  apply ends_bind
  apply ends_get
  exact (ends_removals s.present).mono (fun _ _ h => ⟨_, h⟩) (fun _ _ h => h)

theorem ends_exit (n : String) :
    Ends (exit n) s (fun _ t => t = s.leave n) (fun e t => t = s ∧ ∃ cause, e = .error cause none) := by
  unfold exit
  apply ends_bind
  refine ends_check (fun _ hn => ?_) (fun e he => ⟨rfl, checkPresent_error he⟩)
  exact ends_of_ok (remove_of_mem (checkPresent_ok_iff.mp hn)) rfl

end StageM

/-! ### Runs of stage directions -/

/-- A stage direction. The names are as they are given: repeated, not declared, on stage or off. -/
inductive Direction where
  | enter (names : List String)
  | exeunt (names : List String)
  | exeuntAll
  | exit (name : String)
  deriving DecidableEq, Repr

namespace Direction

/-- What a direction does. -/
def perform : Direction → StageM Unit
  | enter names => StageM.enter names
  | exeunt names => StageM.exeunt names
  | exeuntAll => StageM.exeuntAll
  | exit name => StageM.exit name

/-- Those whom a direction lets enter. -/
def entering : Direction → List String
  | enter names => names
  | _ => []

/-- From `s` to `t` those who are entering have arrived, all of them declared, or some have left. -/
def Moved (d : Direction) (s t : Stage) : Prop :=
  ((∀ n ∈ d.entering, n ∈ s.names) ∧ t = d.entering.foldl Stage.arrive s) ∨
    ∃ ms : List String, t = ms.foldl Stage.leave s

/-- A direction moves characters. With an error of the play nobody has moved. -/
theorem ends_perform (d : Direction) (s : Stage) :
    Ends d.perform s (fun _ t => d.Moved s t)
      (fun e t => (t = s ∧ ∃ cause, e = .error cause none) ∨
        ((∃ b, e = .breakdown b) ∧ ∃ ms : List String, t = ms.foldl Stage.leave s)) := by
  cases d with
  | enter ns => exact (StageM.ends_enter ns).mono (fun _ t ht => Or.inl ⟨ht.2, ht.1⟩) fun _ _ he => Or.inl he
  | exeunt ns => exact (StageM.ends_exeunt ns).mono (fun _ t ht => Or.inr ⟨ns, ht⟩) fun _ _ he => he
  | exeuntAll => exact StageM.ends_exeuntAll.mono (fun _ t ht => Or.inr ht) fun _ _ he => Or.inr he
  | exit n => exact (StageM.ends_exit n).mono (fun _ t ht => Or.inr ⟨[n], ht⟩) fun _ _ he => Or.inl he

end Direction

/-- The stage after a direction, whether it succeeded or not. -/
def Stage.direct (s : Stage) (d : Direction) : Stage := stateAfter d.perform s

theorem direct_moved (s : Stage) (d : Direction) : d.Moved s (s.direct d) := by
  have h : Ends d.perform s (fun _ t => d.Moved s t) (fun _ t => d.Moved s t) := by
    refine (d.ends_perform s).mono (fun _ _ ht => ht) ?_
    rintro e t (⟨rfl, -⟩ | ⟨-, hms⟩)
    · exact Or.inr ⟨[], rfl⟩
    · exact Or.inr hms
  exact h.stateAfter

section Invariants

variable {I : Stage → Prop} (harrive : ∀ s n, I s → n ∈ s.names → I (s.arrive n))
    (hleave : ∀ s n, I s → I (s.leave n))

include harrive in
theorem foldl_arrive_of (ns : List String) :
    ∀ s, I s → (∀ n ∈ ns, n ∈ s.names) → I (ns.foldl Stage.arrive s) := by
  induction ns with
  | nil => exact fun s hs _ => hs
  | cons n ns ih =>
    intro s hs hns
    obtain ⟨hn, hns⟩ := List.forall_mem_cons.mp hns
    apply ih (s.arrive n) (harrive s n hs hn)
    rw [arrive_names]
    exact hns

include hleave in
theorem foldl_leave_of (ms : List String) : ∀ s, I s → I (ms.foldl Stage.leave s) := by
  induction ms with
  | nil => exact fun s hs => hs
  | cons m ms ih => exact fun s hs => ih (s.leave m) (hleave s m hs)

include harrive hleave

/-- What is kept by each arrival of a declared character and by each departure is kept by every direction. -/
theorem moved_of {s t : Stage} {d : Direction} (hs : I s) (h : d.Moved s t) : I t := by
  rcases h with ⟨hns, rfl⟩ | ⟨ms, rfl⟩
  · exact foldl_arrive_of harrive d.entering s hs hns
  · exact foldl_leave_of hleave ms s hs

theorem directions_of (ds : List Direction) : ∀ s, I s → I (ds.foldl Stage.direct s) := by
  induction ds with
  | nil => exact fun s hs => hs
  | cons d ds ih => exact fun s hs => ih (s.direct d) (moved_of harrive hleave hs (direct_moved s d))

end Invariants

/-! ### The order on stage -/

theorem foldl_leave_present (ms : List String) :
    ∀ s : Stage, (ms.foldl Stage.leave s).present = s.present.filter (· ∉ ms) := by
  induction ms with
  | nil =>
    intro s
    exact (List.filter_eq_self.mpr fun a _ => by simp).symm
  | cons m ms ih =>
    intro s
    rw [List.foldl_cons, ih]
    unfold Stage.leave
    rw [updateOpposites_present, List.filter_filter]
    refine List.filter_congr fun a _ => ?_
    simp [Bool.and_comm]

theorem foldl_arrive_present (ns : List String) :
    ∀ s : Stage, ∃ new : List String, new.Sublist ns ∧ (ns.foldl Stage.arrive s).present = s.present ++ new := by
  induction ns with
  | nil => exact fun s => ⟨[], List.Sublist.refl _, (List.append_nil _).symm⟩
  | cons n ns ih =>
    intro s
    obtain ⟨new, hsub, hnew⟩ := ih (s.arrive n)
    rw [List.foldl_cons, hnew]
    unfold Stage.arrive
    rw [updateOpposites_present]
    by_cases hn : n ∈ s.present
    · exact ⟨new, hsub.cons n, by simp only [if_pos hn]⟩
    · exact ⟨n :: new, hsub.cons_cons n, by simp only [if_neg hn, List.append_assoc, List.singleton_append]⟩

/-- Those who stay on stage keep their order, and those who come follow them in the order in which they are
named. -/
theorem direct_present (s : Stage) (d : Direction) :
    ∃ new : List String, new.Sublist d.entering ∧
      (s.direct d).present = s.present.filter (· ∈ (s.direct d).present) ++ new := by
  rcases direct_moved s d with ⟨-, h⟩ | ⟨ms, h⟩
  · obtain ⟨new, hsub, hnew⟩ := foldl_arrive_present d.entering s
    refine ⟨new, hsub, ?_⟩
    rw [h, hnew]
    congr 1
    symm
    rw [List.filter_eq_self]
    intro a ha
    simp [ha]
  · refine ⟨[], List.nil_sublist _, ?_⟩
    rw [h, foldl_leave_present, List.append_nil]
    refine List.filter_congr fun a ha => ?_
    simp [ha]

/-! ### From the dramatis personae on -/

/-- The names that a play declares, in the order of the dramatis personae. -/
def Play.castNames (p : Play) : List String := p.personae.map fun q => Name.normalizeWords q.name

theorem castFrom_of_nodup : ∀ (ps : List Persona) (ns : List String),
    (ns ++ ps.map fun q => Name.normalizeWords q.name).Nodup →
      Play.castFrom ns ps = .ok (ns ++ ps.map fun q => Name.normalizeWords q.name)
  | [], ns, _ => by
    rw [List.map_nil, List.append_nil]
    rfl
  | q :: ps, ns, h => by
    rw [List.map_cons, List.append_cons] at h ⊢
    have hq : Name.normalizeWords q.name ∉ ns := by
      intro hmem
      have hpre := (List.nodup_append.mp h).1
      exact (List.nodup_append.mp hpre).2.2 _ hmem _ (List.mem_singleton_self _) rfl
    unfold Play.castFrom
    rw [if_neg hq]
    exact castFrom_of_nodup ps (ns ++ [Name.normalizeWords q.name]) h

theorem nodup_of_castFrom : ∀ (ps : List Persona) {ns ms : List String}, ns.Nodup → Play.castFrom ns ps = .ok ms →
    ms.Nodup
  | [], ns, ms, hn, h => by
    rw [← Except.ok.inj h]
    exact hn
  | q :: ps, ns, ms, hn, h => by
    unfold Play.castFrom at h
    dsimp only at h
    split at h
    · cases h
    · next hq =>
      rw [← List.concat_eq_append] at h
      exact nodup_of_castFrom ps (List.Nodup.concat hq hn) h

theorem stage_of_nodup {p : Play} (h : p.castNames.Nodup) : p.stage = .ok (Stage.ofCast p.castNames) := by
  unfold Play.stage
  rw [castFrom_of_nodup p.personae [] h]
  rfl

theorem sound_ofCast {ns : List String} (h : ns.Nodup) : (Stage.ofCast ns).Sound where
  cast_nodup := by
    rw [names_of_fresh (s := Stage.ofCast ns) rfl]
    exact h
  present_nodup := List.nodup_nil
  declared := fun _ hn => absurd hn List.not_mem_nil
  opposites_eq := rfl

theorem sound_of_stage {p : Play} {s : Stage} (h : p.stage = .ok s) : s.Sound := by
  unfold Play.stage at h
  cases hcast : Play.castFrom [] p.personae with
  | error f =>
    rw [hcast] at h
    cases h
  | ok ns =>
    rw [hcast] at h
    rw [← Except.ok.inj h]
    exact sound_ofCast (nodup_of_castFrom p.personae List.nodup_nil hcast)

/-- Runs of stage directions change neither the flag nor what the cast holds, and keep the stage sound. -/
theorem directions_ofCast {ns : List String} (h : ns.Nodup) (ds : List Direction) :
    (ds.foldl Stage.direct (Stage.ofCast ns)).Sound ∧
      (ds.foldl Stage.direct (Stage.ofCast ns)).cast = ns.map (·, {}) ∧
      (ds.foldl Stage.direct (Stage.ofCast ns)).flag = false := by
  refine directions_of (I := fun s => s.Sound ∧ s.cast = ns.map (·, {}) ∧ s.flag = false) ?_ ?_ ds _
    ⟨sound_ofCast h, rfl, rfl⟩
  · rintro s n ⟨hs, hcast, hflag⟩ hn
    refine ⟨hs.arrive hn, ?_, ?_⟩
    · unfold Stage.arrive
      rw [updateOpposites_cast]
      exact hcast
    · unfold Stage.arrive
      rw [updateOpposites_flag]
      exact hflag
  · rintro s n ⟨hs, hcast, hflag⟩
    refine ⟨hs.leave n, ?_, ?_⟩
    · unfold Stage.leave
      rw [updateOpposites_cast]
      exact hcast
    · unfold Stage.leave
      rw [updateOpposites_flag]
      exact hflag

/-- **The stage after any run of directions**, failures included, from a cast without repeated names. Those on
stage are declared and different, and the table of opposites holds exactly the two who are alone with each other.
So a character speaks to the only other one on stage, who speaks to that character. The text shows each of the cast
once: those on stage in the order of entrance, the others in the order of the dramatis personae. -/
theorem stage_sound_after_directions (p : Play) (hp : p.castNames.Nodup) :
    ∃ s₀, p.stage = .ok s₀ ∧ ∀ ds : List Direction, ∃ s, s = ds.foldl Stage.direct s₀ ∧
      (s.present.Nodup ∧ ∀ n ∈ s.present, n ∈ p.castNames) ∧
      (∀ a b, s.present = [a, b] → s.opposites = [(a, b), (b, a)]) ∧
      (s.present.length ≠ 2 → s.opposites = []) ∧
      (∀ c d, s.opposite c = .ok d ↔ c ∈ s.present ∧ s.present.filter (· ≠ c) = [d]) ∧
      (∀ c d, s.opposite c = .ok d → s.opposite d = .ok c) ∧
      s.text = .ok ("\n".intercalate (["global boolean = False", "on stage:"] ++ s.present.map freshLine ++
        ["off stage:"] ++ (p.castNames.filter (· ∉ s.present)).map freshLine)) ∧
      (s.present ++ p.castNames.filter (· ∉ s.present)).Perm p.castNames ∧
      (∀ d, ∃ new : List String, new.Sublist d.entering ∧
        (s.direct d).present = s.present.filter (· ∈ (s.direct d).present) ++ new) := by
  refine ⟨Stage.ofCast p.castNames, stage_of_nodup hp, fun ds => ⟨_, rfl, ?_⟩⟩
  obtain ⟨hs, hcast, hflag⟩ := directions_ofCast hp ds
  generalize ds.foldl Stage.direct (Stage.ofCast p.castNames) = s at hs hcast hflag ⊢
  have hnames : s.names = p.castNames := names_of_fresh hcast
  refine ⟨⟨hs.present_nodup, ?_⟩, ?_, ?_, ?_, ?_, ?_, ?_, ?_⟩
  · rw [← hnames]
    exact hs.declared
  · intro a b hab
    rw [hs.opposites_eq, hab]
    rfl
  · intro hlen
    rw [hs.opposites_eq]
    exact facing_of_length_ne hlen
  · exact fun c d => hs.opposite_eq_ok_iff
  · exact fun c d => hs.opposite_symm
  · rw [text_of_fresh hcast hs, hflag]
    rfl
  · rw [← hnames]
    exact hs.listed_perm
  · exact direct_present s

/-- Somebody enters twice at once, goes, and the breakdown of an exeunt that names Romeo twice comes in between. -/
theorem stage_sound_after_directions_duet :
    ∃ p : Play, p.castNames = ["Romeo", "Juliet"] ∧ p.castNames.Nodup ∧ ∃ s₀, p.stage = .ok s₀ ∧
      ([.enter ["Romeo", "Romeo", "Juliet"], .exeunt ["Romeo", "Romeo"], .enter ["Romeo"]].foldl
        Stage.direct s₀).opposites = [("Juliet", "Romeo"), ("Romeo", "Juliet")] := by
  have hp : (⟨"Duet", [⟨⟨0, 1⟩, ["Romeo"]⟩, ⟨⟨1, 2⟩, ["Juliet"]⟩], []⟩ : Play).castNames =
      ["Romeo", "Juliet"] := by
    decide
  refine ⟨_, hp, by rw [hp]; decide, ?_⟩
  obtain ⟨s₀, hs₀, h⟩ := stage_sound_after_directions _ (by rw [hp]; decide)
  refine ⟨s₀, hs₀, ?_⟩
  obtain ⟨s, rfl, -, htwo, -⟩ :=
    h [.enter ["Romeo", "Romeo", "Juliet"], .exeunt ["Romeo", "Romeo"], .enter ["Romeo"]]
  apply htwo
  rw [stage_of_nodup (by rw [hp]; decide), hp] at hs₀
  rw [← Except.ok.inj hs₀]
  decide

end Playhouse
