import Playhouse.Proofs.Keeping
import Playhouse.Proofs.Lockstep

/-!
# Playhouse.Proofs.Legible — there is a text for what is held

A number with too many digits has no numeral. With verbose output every number that a character takes is told, so
that a step fails if it has none: as long as steps succeed, whatever is held can be shown. Main statement of this
file: `keeping_watched`.
-/

namespace Playhouse

open Performance

/-- There is a numeral for everything that the character holds. -/
structure Character.Legible (c : Character) : Prop where
  value : ∃ text, Number.numeral c.value = .ok text
  stack : ∀ n ∈ c.stack, ∃ text, Number.numeral n = .ok text

/-- There is a numeral for everything that anybody holds. -/
def Stage.Legible (s : Stage) : Prop := ∀ x ∈ s.cast, x.2.Legible

/-- The user of the performance is asked for all input and told everything, and there is a text for whatever is
held. -/
structure Performance.Watched (p : Performance) : Prop where
  style : p.style = .verbose
  desk : p.desk = .interactive
  stage : p.stage.Legible

theorem exists_ok_of_mapM {α β ε : Type} {g : α → Except ε β} {xs : List α} (h : ∀ x ∈ xs, ∃ b, g x = .ok b) :
    ∃ bs, xs.mapM g = .ok bs := by
  cases hxs : xs.mapM g with
  | ok bs => exact ⟨bs, rfl⟩
  | error e =>
    obtain ⟨x, hx, he⟩ := error_of_mapM hxs
    obtain ⟨b, hb⟩ := h x hx
    rw [hb] at he
    cases he

/-! ### Texts -/

theorem Character.Legible.text {c : Character} (h : c.Legible) : ∃ text, c.text = .ok text := by
  obtain ⟨v, hv⟩ := h.value
  obtain ⟨ns, hns⟩ := exists_ok_of_mapM h.stack
  unfold Character.text
  rw [hv, hns]
  exact ⟨_, rfl⟩

namespace Stage

variable {s : Stage}

theorem Legible.entry (h : s.Legible) {x : String × Character} (hx : x ∈ s.cast) :
    ∃ text, entryText x = .ok text := by
  obtain ⟨text, htext⟩ := (h x hx).text
  unfold entryText
  rw [htext]
  exact ⟨_, rfl⟩

theorem Legible.text (h : s.Legible) : ∃ text, s.text = .ok text := by
  have hpresent : ∀ x ∈ s.onStage, ∃ text, entryText x = .ok text := by
    intro x hx
    obtain ⟨name, -, hname⟩ := List.mem_filterMap.mp hx
    obtain ⟨c, hc, rfl⟩ := Option.map_eq_some_iff.mp hname
    exact h.entry (mem_of_lookup hc)
  have haway : ∀ x ∈ s.offStage, ∃ text, entryText x = .ok text := fun x hx => h.entry (List.mem_filter.mp hx).1
  obtain ⟨present, hp⟩ := exists_ok_of_mapM hpresent
  obtain ⟨away, ha⟩ := exists_ok_of_mapM haway
  unfold Stage.text
  rw [hp, ha]
  exact ⟨_, rfl⟩

theorem Legible.character (h : s.Legible) {name : String} {c : Character} (hc : s.character name = .ok c) :
    c.Legible := by
  unfold Stage.character at hc
  cases hl : s.cast.lookup name with
  | none =>
    rw [hl] at hc
    cases hc
  | some c' =>
    rw [hl] at hc
    cases hc
    exact h (name, c) (mem_of_lookup hl)

theorem legible_ofCast (names : List String) : (ofCast names).Legible := by
  intro x hx
  obtain ⟨name, -, rfl⟩ := List.mem_map.mp hx
  exact ⟨⟨"0", numeral_zero⟩, fun n hn => absurd hn List.not_mem_nil⟩

theorem Legible.setCharacter (h : s.Legible) (name : String) {c : Character} (hc : c.Legible) :
    (s.setCharacter name c).Legible := by
  intro x hx
  obtain rfl | hx := mem_tableSet hx
  · exact hc
  · exact h x hx

end Stage

namespace Performance.Watched

variable {p q : Performance}

theorem alike (h : p.Watched) (hq : p.Alike q) : q.Watched :=
  ⟨hq.style.trans h.style, hq.desk.trans h.desk, hq.stage ▸ h.stage⟩

theorem restage (h : p.Watched) {s : Stage} (hs : s.Legible) : Watched { p with stage := s } :=
  ⟨h.style, h.desk, hs⟩

end Performance.Watched

/-! ### Steps -/

namespace PerformanceM

variable {p : Performance}

/-- What asking for a line leaves. -/
def asked (prompt : String) (p : Performance) : Performance :=
  { p with streams := { p.streams with stdin := (splitLine p.streams.stdin).2, out := p.streams.out ++ prompt } }

theorem ask_eq (prompt : String) (p : Performance) :
    ask prompt p = if (splitLine p.streams.stdin).1.isEmpty then .error (.breakdown .endOfInput) (asked prompt p)
      else .ok (dropLineFeed (splitLine p.streams.stdin).1) (asked prompt p) := by
  by_cases h : (splitLine p.streams.stdin).1.isEmpty = true
  · rw [if_pos h]
    show (if (splitLine p.streams.stdin).1.isEmpty then _ else _ : PerformanceM (List Char)) (asked prompt p) = _
    rw [if_pos h]
    rfl
  · rw [if_neg h]
    show (if (splitLine p.streams.stdin).1.isEmpty then _ else _ : PerformanceM (List Char)) (asked prompt p) = _
    rw [if_neg h]
    rfl

theorem watched_ask (prompt : String) (h : p.Watched) :
    Ends (ask prompt) p (fun _ => Watched) (fun _ _ => True) := by
  have heq := ask_eq prompt p
  split at heq
  · exact ends_of_error heq trivial
  · exact ends_of_ok heq ⟨h.style, h.desk, h.stage⟩

theorem watched_input (medium : Medium) (h : p.Watched) :
    Ends (input medium) p (fun _ => Watched) (fun _ _ => True) := by
  unfold input
  apply ends_bind
  apply ends_get
  rw [h.desk]
  cases medium with
  | number =>
    refine (watched_ask _ h).bind fun line q hq => ?_
    split
    · exact ends_pure hq
    · exact ends_throw trivial
  | character =>
    refine (watched_ask _ h).bind fun line q hq => ?_
    split
    · exact ends_pure hq
    · exact ends_pure hq
    · exact ends_pure hq

theorem watched_changeCharacter {f : Character → Except Fault Character} (name : String)
    (hf : ∀ {c c'}, c.Legible → f c = .ok c' → c'.Legible) (h : p.Watched) :
    Ends (changeCharacter name f) p (fun _ => Watched) (fun _ _ => True) := by
  refine (ends_changed name).mono ?_ fun _ _ _ => trivial
  rintro _ _ ⟨c, c', hc, hfc, rfl⟩
  exact h.restage (h.stage.setCharacter name (hf (h.stage.character hc) hfc))

theorem legible_take {take : Int → Character → Character} {n : Int} {c : Character} (htake : Takes take)
    (hc : c.Legible) (hn : ∃ text, Number.numeral n = .ok text) : (take n c).Legible := by
  obtain rfl | rfl := htake
  · exact ⟨hn, hc.stack⟩
  · exact ⟨hc.value, List.forall_mem_cons.mpr ⟨hn, hc.stack⟩⟩

theorem legible_pop {c c' : Character} (hc : c.Legible) (h : c.pop = .ok c') : c'.Legible := by
  unfold Character.pop at h
  have hstack := hc.stack
  split at h
  · cases h
  · next n ns hns =>
    cases h
    rw [hns] at hstack
    obtain ⟨hn, hns⟩ := List.forall_mem_cons.mp hstack
    exact ⟨hn, hns⟩

/-- A number that is told has a numeral. -/
theorem ends_tell_verbose {n : Int} {m : PerformanceM Unit} {Q : Unit → Performance → Prop}
    (text : String → String) (h : p.style = .verbose)
    (hm : ∀ out, (∃ t, Number.numeral n = .ok t) → Ends m (p.printed out) Q (fun _ _ => True)) :
    Ends (do
        if (← get).style.narrates then printLine (text (← ofBreakdown (Number.numeral n)))
        m) p Q (fun _ _ => True) := by
  apply ends_bind
  apply ends_get
  rw [h]
  generalize Number.numeral n = numeral at hm ⊢
  apply ends_bind
  refine ends_ofBreakdown (fun t ht => ?_) fun _ => trivial
  exact ends_bind (ends_modify (hm _ ⟨t, ht⟩))

/-- Steps that succeed keep everything legible where everything is told. -/
theorem keeping_watched : Keeping Watched (fun _ => True) where
  fail _ := trivial
  notDebug h := by
    rw [h.style]
    decide
  record _ h := ⟨h.style, h.desk, h.stage⟩
  move _ h := ⟨h.style, h.desk, h.stage⟩
  answer _ h := ⟨h.style, h.desk, h.stage⟩
  narrate text h := ends_narrate_of text h fun _ _ hr => ⟨hr.style, hr.desk, hr.stage⟩
  direct d h := by
    refine ends_onStage ((d.ends_perform _).mono (fun _ s hs => h.restage ?_) fun _ _ _ => trivial)
    refine moved_of (fun s name hs _ => ?_) (fun s name hs => ?_) h.stage hs
    · intro x hx
      unfold Stage.arrive at hx
      rw [Stage.updateOpposites_cast] at hx
      exact hs x hx
    · intro x hx
      unfold Stage.leave at hx
      rw [Stage.updateOpposites_cast] at hx
      exact hs x hx
  give text other n htake h := by
    refine (ends_changed other).bind ?_
    rintro _ _ ⟨c, _, hc, ⟨⟩, rfl⟩
    have hc := h.stage.character hc
    apply ends_bind
    apply ends_get
    dsimp only
    rw [if_pos (by rw [h.style]; rfl)]
    have htaken := fun hn => h.restage (h.stage.setCharacter other (legible_take htake hc (n := n) hn))
    generalize Number.numeral n = numeral at htaken ⊢
    apply ends_bind
    refine ends_ofBreakdown (fun t ht => ?_) fun _ => trivial
    obtain ⟨hstyle, hdesk, hstage⟩ := htaken ⟨t, ht⟩
    exact ends_modify ⟨hstyle, hdesk, hstage⟩
  input text other medium h := by
    refine (watched_input medium h).bind fun n q hq => ?_
    refine ends_tell_verbose text hq.style fun out hn => ?_
    refine watched_changeCharacter other ?_ ⟨hq.style, hq.desk, hq.stage⟩
    rintro c _ hc ⟨⟩
    exact legible_take (.inl rfl) hc hn
  pop other h := watched_changeCharacter other legible_pop h
  output medium n h := (ends_output medium n (Alike.refl _)).mono (fun _ _ hq => h.alike hq) fun _ _ _ => trivial

end PerformanceM

end Playhouse
