/-
  Almanac.Proofs.Action

  How actions run: an action after another begins in the state that the other left, if
  the other answered. An action whose parts answer in every state does so itself (`Answers`).
-/
import Almanac.Action

namespace Almanac.Action

variable {σ τ α β : Type}

@[simp] theorem perform_pure (a : α) (s : σ) :
    (pure a : Action σ α).perform s = (.ok a, s) := rfl

@[simp] theorem perform_update (f : σ → α × σ) (s : σ) :
    (update f).perform s = (.ok (f s).1, (f s).2) := rfl

@[simp] theorem perform_attempt (act : Action σ α) (s : σ) :
    act.attempt.perform s = (.ok (act.perform s).1, (act.perform s).2) := rfl

theorem perform_zoom (get : σ → τ) (set : τ → σ → σ) (act : Action τ α) (s : σ) :
    (zoom get set act).perform s = ((act.perform (get s)).1, set (act.perform (get s)).2 s) := rfl

theorem perform_bind (act : Action σ α) (f : α → Action σ β) (s : σ) :
    (act >>= f).perform s =
      match act.perform s with
      | (.ok a, s') => (f a).perform s'
      | (.error stall, s') => (.error stall, s') := by
  unfold perform ExceptT.run
  simp only [bind, ExceptT.bind, ExceptT.mk, StateT.bind, ExceptT.bindCont]
  cases act s with
  | mk r s' => cases r <;> rfl

theorem perform_bind_of_ok {act : Action σ α} {s s' : σ} {a : α}
    (h : act.perform s = (.ok a, s')) (f : α → Action σ β) :
    (act >>= f).perform s = (f a).perform s' := by
  rw [perform_bind, h]

/-- Composed actions are alike in a state if their first parts are, and their second parts in the
    states that the first part leaves. -/
theorem perform_bind_congr {act act' : Action σ α} {f g : α → Action σ β} {s : σ}
    (hact : act.perform s = act'.perform s)
    (hf : ∀ a s', act'.perform s = (.ok a, s') → (f a).perform s' = (g a).perform s') :
    (act >>= f).perform s = (act' >>= g).perform s := by
  rw [perform_bind, perform_bind, hact]
  rcases hperform : act'.perform s with ⟨r, s'⟩
  cases r with
  | ok a => exact hf a s' hperform
  | error _ => rfl

/-- A composed action that answers went through an answer of its first part. -/
theorem perform_bind_eq_ok {act : Action σ α} {f : α → Action σ β} {s s' : σ} {b : β} :
    (act >>= f).perform s = (.ok b, s') ↔
      ∃ a s₁, act.perform s = (.ok a, s₁) ∧ (f a).perform s₁ = (.ok b, s') := by
  rw [perform_bind]
  rcases hact : act.perform s with ⟨r, s₁⟩
  cases r with
  | ok a =>
      constructor
      · exact fun h => ⟨a, s₁, rfl, h⟩
      · rintro ⟨a', s₁', heq, h⟩
        cases heq
        exact h
  -- A first part that stalls lets the whole stall.
  | error stall => simp

/-- A composed action that stalls does so in one of its parts. -/
theorem stall_of_perform_bind {act : Action σ α} {f : α → Action σ β} {s s' : σ} {stall : Stall}
    (h : (act >>= f).perform s = (.error stall, s')) :
    act.perform s = (.error stall, s') ∨
      ∃ a s₁, act.perform s = (.ok a, s₁) ∧ (f a).perform s₁ = (.error stall, s') := by
  rw [perform_bind] at h
  rcases hact : act.perform s with ⟨r, s₁⟩
  rw [hact] at h
  cases r with
  | ok a => exact Or.inr ⟨a, s₁, rfl, h⟩
  | error _ =>
      cases h
      exact Or.inl rfl

/-- An answer that is passed on changed. -/
theorem perform_return_eq_ok {act : Action σ α} {f : α → β} {s s' : σ} {b : β}
    (h : (do return f (← act) : Action σ β).perform s = (.ok b, s')) :
    ∃ a, act.perform s = (.ok a, s') ∧ b = f a := by
  obtain ⟨a, s₁, hact, hreturn⟩ := perform_bind_eq_ok.mp h
  cases hreturn
  exact ⟨a, hact, rfl⟩

/-- Passing an answer on stalls only as the action does. -/
theorem stall_of_perform_return {act : Action σ α} {f : α → β} {s s' : σ} {stall : Stall}
    (h : (do return f (← act) : Action σ β).perform s = (.error stall, s')) :
    act.perform s = (.error stall, s') := by
  obtain hact | ⟨_, _, -, hnever⟩ := stall_of_perform_bind h
  · exact hact
  · cases hnever

/-! ## Actions that answer -/

/-- An action that answers when it begins in a state. -/
def AnswersFrom (act : Action σ α) (s : σ) : Prop := ∃ a s', act.perform s = (.ok a, s')

theorem answersFrom_answer (a : α) (s : σ) : (answer a).AnswersFrom s := ⟨a, s, rfl⟩

theorem AnswersFrom.bind {act : Action σ α} {f : α → Action σ β} {s : σ} (h : act.AnswersFrom s)
    (hf : ∀ a s', (f a).AnswersFrom s') : (act >>= f).AnswersFrom s := by
  obtain ⟨a, s', hact⟩ := h
  obtain ⟨b, s'', hb⟩ := hf a s'
  exact ⟨b, s'', (perform_bind_of_ok hact f).trans hb⟩

/-- An action answers in every state. -/
def Answers (act : Action σ α) : Prop := ∀ s, act.AnswersFrom s

namespace Answers

theorem pure (a : α) : Answers (Pure.pure a : Action σ α) := fun s => ⟨a, s, rfl⟩

theorem bind {act : Action σ α} {f : α → Action σ β} (hact : act.Answers)
    (hf : ∀ a, (f a).Answers) : (act >>= f).Answers := fun s => (hact s).bind hf

theorem foldlM {f : α → β → Action σ α} (hf : ∀ a b, (f a b).Answers) (bs : List β) :
    ∀ a, (bs.foldlM f a).Answers := by
  induction bs with
  | nil => exact .pure
  | cons b bs ih =>
      intro a
      rw [List.foldlM_cons]
      exact (hf a b).bind ih

theorem zoom {act : Action τ α} (h : act.Answers) (get : σ → τ) (set : τ → σ → σ) :
    (Action.zoom get set act).Answers := by
  intro s
  obtain ⟨a, t', ha⟩ := h (get s)
  exact ⟨a, set t' s, by rw [perform_zoom, ha]⟩

end Answers

end Almanac.Action
