import Playhouse.Proofs.Ends

/-!
# Playhouse.Proofs.Coupled — two activities side by side

`Coupled m m' s s' Q E L L'` compares `m` started in `s` with `m'` started in `s'`. Both return, and `Q` relates
what they return and leave; or both fail with the same fault, and `E` relates what they leave; or one of them fails
with a fault that excuses the comparison, as `L` and `L'` say. There is a rule for each way in which activities are
put together. Nothing here is about plays.
-/

namespace Playhouse

variable {ε σ α β γ δ : Type}

/-- `m` started in `s` and `m'` started in `s'` end alike, unless one of them fails with a fault that excuses
it. -/
inductive Coupled (m : EStateM ε σ α) (m' : EStateM ε σ β) (s s' : σ) (Q : α → β → σ → σ → Prop) (E : σ → σ → Prop)
    (L L' : ε → Prop) : Prop
  | ok {a : α} {b : β} {t t' : σ} : m s = .ok a t → m' s' = .ok b t' → Q a b t t' → Coupled m m' s s' Q E L L'
  | error {e : ε} {t t' : σ} : m s = .error e t → m' s' = .error e t' → E t t' → Coupled m m' s s' Q E L L'
  | left {e : ε} {t : σ} : m s = .error e t → L e → Coupled m m' s s' Q E L L'
  | right {e : ε} {t' : σ} : m' s' = .error e t' → L' e → Coupled m m' s s' Q E L L'

section Rules

variable {m : EStateM ε σ α} {m' : EStateM ε σ β} {s s' t t' : σ} {Q Q' : α → β → σ → σ → Prop}
    {E E' : σ → σ → Prop}
  {L L' : ε → Prop}

theorem Coupled.mono (h : Coupled m m' s s' Q E L L') (hQ : ∀ a b t t', Q a b t t' → Q' a b t t')
    (hE : ∀ t t', E t t' → E' t t') : Coupled m m' s s' Q' E' L L' := by
  cases h with
  | ok hm hm' h => exact .ok hm hm' (hQ _ _ _ _ h)
  | error hm hm' h => exact .error hm hm' (hE _ _ h)
  | left hm h => exact .left hm h
  | right hm' h => exact .right hm' h

/-- Only what comes of the activities counts. -/
theorem Coupled.of_eq {l : EStateM ε σ α} {l' : EStateM ε σ β} (h : Coupled m m' s s' Q E L L') (hl : l t = m s)
    (hl' : l' t' = m' s') : Coupled l l' t t' Q E L L' := by
  cases h with
  | ok hm hm' h => exact .ok (hl.trans hm) (hl'.trans hm') h
  | error hm hm' h => exact .error (hl.trans hm) (hl'.trans hm') h
  | left hm h => exact .left (hl.trans hm) h
  | right hm' h => exact .right (hl'.trans hm') h

/-- What holds of an activity beside itself holds of it. -/
theorem Coupled.ends {Q : α → α → σ → σ → Prop} (h : Coupled m m s s Q E L L') (hL : ∀ e, ¬ L e)
    (hL' : ∀ e, ¬ L' e) :
    Ends m s (fun a t => Q a a t t) (fun _ t => E t t) := by
  cases h with
  | ok hm hm' h =>
    rw [hm] at hm'
    cases hm'
    exact ends_of_ok hm h
  | error hm hm' h =>
    rw [hm] at hm'
    cases hm'
    exact ends_of_error hm h
  | left hm h => exact absurd h (hL _)
  | right hm' h => exact absurd h (hL' _)

/-- Where one of them returns, so does the other. -/
theorem Coupled.ok_of_ok (h : Coupled m m' s s' Q E L L') (hL' : ∀ e, ¬ L' e) {a : α} (hm : m s = .ok a t) :
    ∃ b t', m' s' = .ok b t' ∧ Q a b t t' := by
  cases h with
  | ok hok hm' h =>
    rw [hm] at hok
    cases hok
    exact ⟨_, _, hm', h⟩
  | error hm' _ _ =>
    rw [hm] at hm'
    cases hm'
  | left hm' _ =>
    rw [hm] at hm'
    cases hm'
  | right _ h => exact absurd h (hL' _)

/-- Without excuse, both have the same outcome and leave related states. -/
theorem Coupled.agree {Q : α → α → σ → σ → Prop} {m m' : EStateM ε σ α} {R : σ → σ → Prop}
    (h : Coupled m m' s s' Q E L L') (hQ : ∀ a b t t', Q a b t t' → b = a ∧ R t t') (hE : ∀ t t', E t t' → R t t')
    (hL : ∀ e, outcomeOf m s = .error e → ¬ L e) (hL' : ∀ e, outcomeOf m' s' = .error e → ¬ L' e) :
    outcomeOf m' s' = outcomeOf m s ∧ R (stateAfter m s) (stateAfter m' s') := by
  unfold outcomeOf at hL hL' ⊢
  unfold stateAfter
  cases h with
  | ok hm hm' h =>
    rw [hm, hm']
    obtain ⟨rfl, hR⟩ := hQ _ _ _ _ h
    exact ⟨rfl, hR⟩
  | error hm hm' h =>
    rw [hm, hm']
    exact ⟨rfl, hE _ _ h⟩
  | left hm h =>
    rw [hm] at hL
    exact absurd h (hL _ rfl)
  | right hm' h =>
    rw [hm'] at hL'
    exact absurd h (hL' _ rfl)

theorem coupled_pure {a : α} {b : β} (h : Q a b s s') : Coupled (pure a) (pure b) s s' Q E L L' := .ok rfl rfl h

theorem coupled_throw {e : ε} (h : E s s') :
    Coupled (throw e : EStateM ε σ α) (throw e : EStateM ε σ β) s s' Q E L L' := .error rfl rfl h

theorem coupled_get {Q : σ → σ → σ → σ → Prop} (h : Q s s' s s') : Coupled get get s s' Q E L L' := .ok rfl rfl h

theorem coupled_set {Q : PUnit → PUnit → σ → σ → Prop} (h : Q ⟨⟩ ⟨⟩ t t') :
    Coupled (set t) (set t') s s' Q E L L' :=
  .ok rfl rfl h

theorem coupled_modify {f f' : σ → σ} {Q : PUnit → PUnit → σ → σ → Prop} (h : Q ⟨⟩ ⟨⟩ (f s) (f' s')) :
    Coupled (modify f) (modify f') s s' Q E L L' := .ok rfl rfl h

theorem coupled_bind {f : α → EStateM ε σ γ} {f' : β → EStateM ε σ δ} {Q : γ → δ → σ → σ → Prop}
    (h : Coupled m m' s s' (fun a b t t' => Coupled (f a) (f' b) t t' Q E L L') E L L') :
    Coupled (m >>= f) (m' >>= f') s s' Q E L L' := by
  cases h with
  | ok hm hm' h =>
    cases h with
    | ok hf hf' h => exact .ok ((bind_of_ok hm).trans hf) ((bind_of_ok hm').trans hf') h
    | error hf hf' h => exact .error ((bind_of_ok hm).trans hf) ((bind_of_ok hm').trans hf') h
    | left hf h => exact .left ((bind_of_ok hm).trans hf) h
    | right hf' h => exact .right ((bind_of_ok hm').trans hf') h
  | error hm hm' h => exact .error (bind_of_error hm) (bind_of_error hm') h
  | left hm h => exact .left (bind_of_error hm) h
  | right hm' h => exact .right (bind_of_error hm') h

theorem Coupled.bind {f : α → EStateM ε σ γ} {f' : β → EStateM ε σ δ} {Q' : γ → δ → σ → σ → Prop}
    (h : Coupled m m' s s' Q E L L') (hf : ∀ a b t t', Q a b t t' → Coupled (f a) (f' b) t t' Q' E L L') :
    Coupled (m >>= f) (m' >>= f') s s' Q' E L L' :=
  coupled_bind (h.mono hf fun _ _ he => he)

/-- Something that cannot fail may follow on one side only. -/
theorem Coupled.bind_right {f : β → EStateM ε σ γ} {Q' : α → γ → σ → σ → Prop} (h : Coupled m m' s s' Q E L L')
    (hf : ∀ a b t t', Q a b t t' → ∃ c u, f b t' = .ok c u ∧ Q' a c t u) :
    Coupled m (m' >>= f) s s' Q' E L L' := by
  cases h with
  | ok hm hm' h =>
    obtain ⟨c, u, hu, hQ⟩ := hf _ _ _ _ h
    exact .ok hm ((bind_of_ok hm').trans hu) hQ
  | error hm hm' h => exact .error hm (bind_of_error hm') h
  | left hm h => exact .left hm h
  | right hm' h => exact .right (bind_of_error hm') h

end Rules

end Playhouse
