/-!
# Playhouse.Proofs.Ends — how an activity ends

A small logic for what is done on a stage or in a performance. `Ends m s Q E` says that `m` started in `s` returns
as `Q` says, or fails as `E` says; what was changed before a failure is part of the state that `E` speaks of. There
is a rule for each way in which such activities are put together. Nothing here is about plays.
-/

namespace Playhouse

variable {ε σ α β : Type}

/-- Started in `s`, `m` returns a result and a state as `Q` says, or fails with a fault and a state as `E` says. -/
structure Ends (m : EStateM ε σ α) (s : σ) (Q : α → σ → Prop) (E : ε → σ → Prop) : Prop where
  ok : ∀ {a t}, m s = .ok a t → Q a t
  error : ∀ {e t}, m s = .error e t → E e t

/-- The state that an activity leaves, whether it returns or fails. -/
def stateAfter (m : EStateM ε σ α) (s : σ) : σ :=
  match m s with
  | .ok _ t => t
  | .error _ t => t

/-- What an activity returns or fails with. -/
def outcomeOf (m : EStateM ε σ α) (s : σ) : Except ε α :=
  match m s with
  | .ok a _ => .ok a
  | .error e _ => .error e

section Rules

variable {m : EStateM ε σ α} {s t : σ} {Q Q' : α → σ → Prop} {E E' : ε → σ → Prop}

theorem ends_of_ok {a : α} (h : m s = .ok a t) (hQ : Q a t) : Ends m s Q E where
  ok hm := by
    rw [h] at hm
    cases hm
    exact hQ
  error hm := by
    rw [h] at hm
    cases hm

theorem ends_of_error {e : ε} (h : m s = .error e t) (hE : E e t) : Ends m s Q E where
  ok hm := by
    rw [h] at hm
    cases hm
  error hm := by
    rw [h] at hm
    cases hm
    exact hE

theorem ends_of_eq {m' : EStateM ε σ α} (h : m s = m' s) (h' : Ends m' s Q E) : Ends m s Q E :=
  ⟨fun hm => h'.ok (h.symm.trans hm), fun hm => h'.error (h.symm.trans hm)⟩

theorem Ends.mono (h : Ends m s Q E) (hQ : ∀ a t, Q a t → Q' a t) (hE : ∀ e t, E e t → E' e t) : Ends m s Q' E' :=
  ⟨fun hm => hQ _ _ (h.ok hm), fun hm => hE _ _ (h.error hm)⟩

theorem Ends.and (h : Ends m s Q E) (h' : Ends m s Q' E') :
    Ends m s (fun a t => Q a t ∧ Q' a t) (fun e t => E e t ∧ E' e t) :=
  ⟨fun hm => ⟨h.ok hm, h'.ok hm⟩, fun hm => ⟨h.error hm, h'.error hm⟩⟩

/-- Nothing is said of where an activity leads. -/
theorem ends_anyhow (m : EStateM ε σ α) (s : σ) : Ends m s (fun _ _ => True) (fun _ _ => True) :=
  ⟨fun _ => trivial, fun _ => trivial⟩

theorem Ends.stateAfter {I : σ → Prop} (h : Ends m s (fun _ => I) (fun _ => I)) : I (stateAfter m s) := by
  unfold Playhouse.stateAfter
  split
  · next hm => exact h.ok hm
  · next hm => exact h.error hm

theorem stateAfter_of_ok {a : α} (h : m s = .ok a t) : stateAfter m s = t := by
  unfold stateAfter
  rw [h]

theorem stateAfter_of_error {e : ε} (h : m s = .error e t) : stateAfter m s = t := by
  unfold stateAfter
  rw [h]

theorem outcomeOf_of_ok {a : α} (h : m s = .ok a t) : outcomeOf m s = .ok a := by
  unfold outcomeOf
  rw [h]

theorem ok_of_outcomeOf {a : α} (h : outcomeOf m s = .ok a) : m s = .ok a (stateAfter m s) := by
  unfold outcomeOf at h
  unfold stateAfter
  split at h
  · next hm =>
    cases h
    rw [hm]
  · cases h

theorem error_of_outcomeOf {e : ε} (h : outcomeOf m s = .error e) : m s = .error e (stateAfter m s) := by
  unfold outcomeOf at h
  unfold stateAfter
  split at h
  · cases h
  · next hm =>
    cases h
    rw [hm]

theorem stateAfter_of_eq {m' : EStateM ε σ α} (h : m s = m' t) : stateAfter m s = stateAfter m' t := by
  unfold stateAfter
  rw [h]

theorem ends_pure {a : α} (h : Q a s) : Ends (pure a) s Q E := ends_of_ok rfl h

theorem ends_throw {e : ε} (h : E e s) : Ends (throw e : EStateM ε σ α) s Q E := ends_of_error rfl h

theorem ends_get {Q : σ → σ → Prop} (h : Q s s) : Ends get s Q E := ends_of_ok rfl h

theorem ends_set {Q : PUnit → σ → Prop} (h : Q ⟨⟩ t) : Ends (set t) s Q E := ends_of_ok rfl h

theorem ends_modify {f : σ → σ} {Q : PUnit → σ → Prop} (h : Q ⟨⟩ (f s)) : Ends (modify f) s Q E := ends_of_ok rfl h

theorem bind_of_ok {f : α → EStateM ε σ β} {a : α} (h : m s = .ok a t) : (m >>= f) s = f a t := by
  show EStateM.bind m f s = f a t
  unfold EStateM.bind
  rw [h]

theorem bind_of_error {f : α → EStateM ε σ β} {e : ε} (h : m s = .error e t) : (m >>= f) s = .error e t := by
  show EStateM.bind m f s = .error e t
  unfold EStateM.bind
  rw [h]

theorem bind_of_eq {m' : EStateM ε σ α} {f : α → EStateM ε σ β} (h : m s = m' t) : (m >>= f) s = (m' >>= f) t := by
  show EStateM.bind m f s = EStateM.bind m' f t
  unfold EStateM.bind
  rw [h]

theorem ends_bind {f : α → EStateM ε σ β} {Q : β → σ → Prop}
    (h : Ends m s (fun a t => Ends (f a) t Q E) E) : Ends (m >>= f) s Q E := by
  cases hm : m s with
  | ok a t =>
    have hf := h.ok hm
    exact ⟨fun hb => hf.ok ((bind_of_ok hm).symm.trans hb), fun hb => hf.error ((bind_of_ok hm).symm.trans hb)⟩
  | error e t => exact ends_of_error (bind_of_error hm) (h.error hm)

theorem Ends.bind {f : α → EStateM ε σ β} {Q' : β → σ → Prop} (h : Ends m s Q E)
    (hf : ∀ a t, Q a t → Ends (f a) t Q' E) : Ends (m >>= f) s Q' E :=
  ends_bind (h.mono hf fun _ _ he => he)

theorem forM_append_of_ok {f : α → EStateM ε σ PUnit} {xs ys : List α} (h : xs.forM f s = .ok ⟨⟩ t) :
    (xs ++ ys).forM f s = ys.forM f t := by
  show (forM (xs ++ ys) f : EStateM ε σ PUnit) s = _
  rw [List.forM_append]
  exact bind_of_ok h

/-- What each part of an activity keeps is kept by the whole. -/
theorem ends_forM {I : σ → Prop} {f : α → EStateM ε σ PUnit} {xs : List α}
    (h : ∀ x ∈ xs, ∀ t, I t → Ends (f x) t (fun _ => I) (fun _ => I)) :
    ∀ {s}, I s → Ends (xs.forM f) s (fun _ => I) (fun _ => I) := by
  induction xs with
  | nil => exact fun hs => ends_pure hs
  | cons x xs ih =>
    intro s hs
    obtain ⟨hx, hxs⟩ := List.forall_mem_cons.mp h
    show Ends (f x >>= fun _ => xs.forM f) s _ _
    exact (hx s hs).bind fun _ t ht => ih hxs ht

end Rules

end Playhouse
