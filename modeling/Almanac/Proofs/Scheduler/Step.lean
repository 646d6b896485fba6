/-
  Almanac.Proofs.Scheduler.Step

  What one step of a tick can do. Every step keeps the second of the tick and the lower end
  of its window; only the selection of due events moves `through`, and then to the second
  of the tick (`selectDue_cases`). The work of a tick is its steps, taken one after the other
  with nobody in between (`finishes_of_work`).
-/
import Almanac.Proofs.Broker.Connected
import Almanac.Proofs.Storage.Keyed
import Almanac.Scheduler.Tick

namespace Almanac.Scheduler

variable {σ : Type} (s : Scheduler σ)

namespace Tick

/-- Two stages of one tick that agree on how far notifications have been handled. -/
def SameWindow (t t' : Tick) : Prop :=
  t'.now = t.now ∧ t'.after = t.after ∧ t'.through = t.through

theorem SameWindow.refl (t : Tick) : t.SameWindow t := ⟨rfl, rfl, rfl⟩

theorem sameWindow_reporting (t : Tick) (f : Report → Report) : t.SameWindow (t.reporting f) :=
  ⟨rfl, rfl, rfl⟩

end Tick

/-! ## The calls of a step -/

/-- Selecting the due events either hands them over, or hands over nothing and leaves the
    window as it was. -/
theorem selectDue_cases {t t' : Tick} {due : List Event} {w w' : σ}
    (h : (s.selectDue t).perform w = (.ok (t', due), w')) :
    (t.hasWindow = true ∧
        (s.calendar.eventsDueBetween t.after t.now).perform w = (.ok (.ok due), w') ∧
        t'.now = t.now ∧ t'.after = t.after ∧ t'.through = some t.now) ∨
      (t.hasWindow = true ∧ due = [] ∧ t.SameWindow t' ∧
        ∃ e, (s.calendar.eventsDueBetween t.after t.now).perform w = (.ok (.error e), w') ∧
          t' = t.selectionFailed e) ∨
      (t.hasWindow = false ∧ due = [] ∧ t' = t ∧ w' = w) := by
  unfold selectDue at h
  split at h
  · next hwindow =>
    obtain ⟨r, w₁, hselect, h⟩ := Action.perform_bind_eq_ok.mp h
    cases r with
    | ok found =>
        cases h
        exact Or.inl ⟨hwindow, hselect, rfl, rfl, rfl⟩
    | error e =>
        cases h
        exact Or.inr (Or.inl ⟨hwindow, rfl, t.sameWindow_reporting _, e, hselect, rfl⟩)
  · next hwindow =>
    cases h
    -- No second to look at: the storage is not asked.
    exact Or.inr (Or.inr ⟨by simpa using hwindow, rfl, rfl, rfl⟩)

/-- Announcing an event fails for its message, or hands the bytes of its announcement to the
    broker, whose answer it passes on. -/
theorem announce_cases {e : Event} {r : Except Service.Error Unit} {w w' : σ}
    (h : (s.announce e).perform w = (.ok r, w')) :
    (∃ cause, e.announcement.encode = .error cause ∧ r = .error (.wire cause) ∧ w' = w) ∨
      ∃ body answer, e.announcement.encode = .ok body ∧
        (s.broker.publish s.settings.publish body).perform w = (.ok answer, w') ∧
        r = answer.mapError .broker := by
  unfold announce at h
  cases hencode : e.announcement.encode with
  | error cause =>
      rw [hencode] at h
      cases h
      exact Or.inl ⟨cause, rfl, rfl, rfl⟩
  | ok body =>
      rw [hencode] at h
      obtain ⟨answer, w₁, hpublish, h⟩ := Action.perform_bind_eq_ok.mp h
      refine Or.inr ⟨body, answer, rfl, ?_⟩
      cases answer with
      | ok _ =>
          cases h
          exact ⟨hpublish, rfl⟩
      | error cause =>
          cases h
          exact ⟨hpublish, rfl⟩

/-- An announcement that can be written is answered as the broker answers. -/
theorem announce_of_publish {e : Event} {body : Bytes} {answer : Except Broker.Error Unit}
    {w w' : σ} (hencode : e.announcement.encode = .ok body)
    (h : (s.broker.publish s.settings.publish body).perform w = (.ok answer, w')) :
    (s.announce e).perform w = (.ok (answer.mapError .broker), w') := by
  unfold announce
  rw [hencode]
  cases answer <;> exact Action.perform_bind_of_ok h _

/-- Publishing one event announces it and only changes the report. -/
theorem publishOne_cases {t t' : Tick} {e : Event} {w w' : σ}
    (h : (s.publishOne t e).perform w = (.ok t', w')) :
    t.SameWindow t' ∧ ∃ r, (s.announce e).perform w = (.ok r, w') := by
  unfold publishOne at h
  obtain ⟨r, w₁, hannounce, h⟩ := Action.perform_bind_eq_ok.mp h
  cases r with
  | ok _ =>
      cases h
      exact ⟨t.sameWindow_reporting _, _, hannounce⟩
  | error cause =>
      cases h
      exact ⟨t.sameWindow_reporting _, _, hannounce⟩

theorem selectExpired_cases {t t' : Tick} {expired : List Event} {w w' : σ}
    (h : (s.selectExpired t).perform w = (.ok (t', expired), w')) :
    t.SameWindow t' ∧
      ∃ r, (s.calendar.eventsBefore (t.now.monthsEarlier s.settings.retentionMonths)).perform w =
        (.ok r, w') := by
  unfold selectExpired at h
  obtain ⟨r, w₁, hselect, h⟩ := Action.perform_bind_eq_ok.mp h
  cases r with
  | ok _ =>
      cases h
      exact ⟨t.sameWindow_reporting _, _, hselect⟩
  | error e =>
      cases h
      exact ⟨t.sameWindow_reporting _, _, hselect⟩

theorem purgeOne_cases {t t' : Tick} {e : Event} {w w' : σ}
    (h : (s.purgeOne t e).perform w = (.ok t', w')) :
    t.SameWindow t' ∧ ∃ r, (s.calendar.deleteEvent e.id).perform w = (.ok r, w') := by
  unfold purgeOne at h
  obtain ⟨r, w₁, hdelete, h⟩ := Action.perform_bind_eq_ok.mp h
  cases r with
  | ok _ =>
      cases h
      exact ⟨t.sameWindow_reporting _, _, hdelete⟩
  | error cause =>
      cases h
      exact ⟨t.sameWindow_reporting _, _, hdelete⟩

/-! ## One step -/

/-- What a step does, by the stage it is in. -/
def Does (t : Tick) (stage : Stage) (w : σ) (t' : Tick) (next : Option Stage) (w' : σ) : Prop :=
  match stage with
  | .selectingDue =>
    ∃ due, next = some (.publishing due) ∧ (s.selectDue t).perform w = (.ok (t', due), w')
  | .publishing (e :: due) =>
    next = some (.publishing due) ∧ (s.publishOne t e).perform w = (.ok t', w')
  | .publishing [] => next = some .selectingExpired ∧ t' = t ∧ w' = w
  | .selectingExpired =>
    ∃ expired, next = some (.purging expired) ∧
      (s.selectExpired t).perform w = (.ok (t', expired), w')
  | .purging (e :: expired) =>
    next = some (.purging expired) ∧ (s.purgeOne t e).perform w = (.ok t', w')
  | .purging [] => next = none ∧ t' = t ∧ w' = w

theorem does_of_step {t t' : Tick} {stage : Stage} {next : Option Stage} {w w' : σ}
    (h : (s.step t stage).perform w = (.ok (t', next), w')) : s.Does t stage w t' next w' := by
  match stage, h with
  | .selectingDue, h =>
      obtain ⟨⟨t₁, due⟩, w₁, hselect, h⟩ := Action.perform_bind_eq_ok.mp h
      cases h
      exact ⟨due, rfl, hselect⟩
  | .publishing (e :: due), h =>
      obtain ⟨t₁, w₁, hpublish, h⟩ := Action.perform_bind_eq_ok.mp h
      cases h
      exact ⟨rfl, hpublish⟩
  | .publishing [], h =>
      cases h
      exact ⟨rfl, rfl, rfl⟩
  | .selectingExpired, h =>
      obtain ⟨⟨t₁, expired⟩, w₁, hselect, h⟩ := Action.perform_bind_eq_ok.mp h
      cases h
      exact ⟨expired, rfl, hselect⟩
  | .purging (e :: expired), h =>
      obtain ⟨t₁, w₁, hpurge, h⟩ := Action.perform_bind_eq_ok.mp h
      cases h
      exact ⟨rfl, hpurge⟩
  | .purging [], h =>
      cases h
      exact ⟨rfl, rfl, rfl⟩

/-! ## What a step keeps -/

section

open Storage (Keeps)

variable {good : σ → Prop}

theorem keeps_selectDue
    (hdue : ∀ after limit, Keeps good (s.calendar.eventsDueBetween after limit)) (t : Tick) :
    Keeps good (s.selectDue t) := by
  unfold selectDue
  split
  · refine (hdue _ _).bind fun r => ?_
    cases r <;> exact .answer _ _
  · exact .answer _ _

theorem keeps_announce
    (hpublish : ∀ body, Keeps good (s.broker.publish s.settings.publish body)) (e : Event) :
    Keeps good (s.announce e) := by
  unfold announce
  split
  · exact .answer _ _
  · refine (hpublish _).bind fun r => ?_
    cases r <;> exact .answer _ _

theorem keeps_publishOne
    (hpublish : ∀ body, Keeps good (s.broker.publish s.settings.publish body)) (t : Tick)
    (e : Event) : Keeps good (s.publishOne t e) := by
  refine (s.keeps_announce hpublish e).bind fun r => ?_
  cases r <;> exact .answer _ _

theorem keeps_selectExpired (hexpired : ∀ t, Keeps good (s.calendar.eventsBefore t)) (t : Tick) :
    Keeps good (s.selectExpired t) := by
  refine (hexpired _).bind fun r => ?_
  cases r <;> exact .answer _ _

theorem keeps_purgeOne (hdelete : ∀ id, Keeps good (s.calendar.deleteEvent id)) (t : Tick)
    (e : Event) : Keeps good (s.purgeOne t e) := by
  refine (hdelete _).bind fun r => ?_
  cases r <;> exact .answer _ _

/-- A step keeps what its calls keep, also when it stalls. -/
theorem keeps_step
    (hdue : ∀ after limit, Keeps good (s.calendar.eventsDueBetween after limit))
    (hexpired : ∀ t, Keeps good (s.calendar.eventsBefore t))
    (hdelete : ∀ id, Keeps good (s.calendar.deleteEvent id))
    (hpublish : ∀ body, Keeps good (s.broker.publish s.settings.publish body))
    (t : Tick) (stage : Stage) : Keeps good (s.step t stage) := by
  match stage with
  | .selectingDue => exact (s.keeps_selectDue hdue t).bind fun _ => .answer _ _
  | .publishing (e :: due) => exact (s.keeps_publishOne hpublish t e).bind fun _ => .answer _ _
  | .publishing [] => exact .answer _ _
  | .selectingExpired => exact (s.keeps_selectExpired hexpired t).bind fun _ => .answer _ _
  | .purging (e :: expired) => exact (s.keeps_purgeOne hdelete t e).bind fun _ => .answer _ _
  | .purging [] => exact .answer _ _

/-- So does a tick as a whole. -/
theorem keeps_tick
    (hdue : ∀ after limit, Keeps good (s.calendar.eventsDueBetween after limit))
    (hexpired : ∀ t, Keeps good (s.calendar.eventsBefore t))
    (hdelete : ∀ id, Keeps good (s.calendar.deleteEvent id))
    (hpublish : ∀ body, Keeps good (s.broker.publish s.settings.publish body))
    (tally : Tally) (clock : Instant) : Keeps good (s.tick tally clock) := by
  refine .bind ?_ fun _ => .answer _ _
  refine (s.keeps_selectDue hdue _).bind fun (t, due) => ?_
  refine (Keeps.foldlM (fun t e => s.keeps_publishOne hpublish t e) due t).bind fun t => ?_
  refine (s.keeps_selectExpired hexpired t).bind fun (t, expired) => ?_
  exact .foldlM (fun t e => s.keeps_purgeOne hdelete t e) expired t

/-- The scheduler over a broker that crashes in place of answering that it is not connected. -/
def strict : Scheduler σ := { s with broker := s.broker.strict }

/-- A step does not notice that its broker is strict where publishing is served. -/
theorem step_strict {w : σ}
    (h : ∀ settings body, Broker.Serves (s.broker.publish settings body) w) (t : Tick)
    (stage : Stage) : (s.strict.step t stage).perform w = (s.step t stage).perform w := by
  match stage with
  | .publishing (e :: due) =>
      refine Action.perform_bind_congr (Action.perform_bind_congr ?_ fun _ _ _ => rfl)
        fun _ _ _ => rfl
      unfold announce
      cases e.announcement.encode with
      | error _ => rfl
      | ok body =>
          exact Action.perform_bind_congr (Broker.perform_insist (h _ body)) fun _ _ _ => rfl
  -- No other step asks the broker.
  | .selectingDue => rfl
  | .publishing [] => rfl
  | .selectingExpired => rfl
  | .purging (_ :: _) => rfl
  | .purging [] => rfl

end

/-! ## All steps -/

/-- Steps taken one after the other, with nobody in between, end a tick. -/
inductive Finishes : Tick → Stage → σ → Tick → σ → Prop
  | last {t t' : Tick} {stage : Stage} {w w' : σ}
      (h : (s.step t stage).perform w = (.ok (t', none), w')) : Finishes t stage w t' w'
  | next {t t₁ t' : Tick} {stage stage₁ : Stage} {w w₁ w' : σ}
      (h : (s.step t stage).perform w = (.ok (t₁, some stage₁), w₁))
      (hrest : Finishes t₁ stage₁ w₁ t' w') : Finishes t stage w t' w'

theorem finishes_purging {expired : List Event} {t t' : Tick} {w w' : σ}
    (h : (expired.foldlM s.purgeOne t).perform w = (.ok t', w')) :
    s.Finishes t (.purging expired) w t' w' := by
  induction expired generalizing t w with
  | nil =>
      cases h
      exact .last rfl
  | cons e expired ih =>
      rw [List.foldlM_cons] at h
      obtain ⟨t₁, w₁, hpurge, h⟩ := Action.perform_bind_eq_ok.mp h
      exact .next (Action.perform_bind_of_ok hpurge _) (ih h)

theorem finishes_publishing {due : List Event} {t t₁ t' : Tick} {w w₁ w' : σ}
    (h : (due.foldlM s.publishOne t).perform w = (.ok t₁, w₁))
    (hrest : s.Finishes t₁ .selectingExpired w₁ t' w') :
    s.Finishes t (.publishing due) w t' w' := by
  induction due generalizing t w with
  | nil =>
      cases h
      exact .next rfl hrest
  | cons e due ih =>
      rw [List.foldlM_cons] at h
      obtain ⟨t₂, w₂, hpublish, h⟩ := Action.perform_bind_eq_ok.mp h
      exact .next (Action.perform_bind_of_ok hpublish _) (ih h)

/-- The work of a tick is its steps, one after the other. -/
theorem finishes_of_work {t t' : Tick} {w w' : σ} (h : (s.work t).perform w = (.ok t', w')) :
    s.Finishes t .selectingDue w t' w' := by
  unfold work at h
  obtain ⟨⟨t₁, due⟩, w₁, hselect, h⟩ := Action.perform_bind_eq_ok.mp h
  obtain ⟨t₂, w₂, hpublish, h⟩ := Action.perform_bind_eq_ok.mp h
  obtain ⟨⟨t₃, expired⟩, w₃, hexpired, h⟩ := Action.perform_bind_eq_ok.mp h
  -- From the last call backwards, each one is followed by the rest.
  have hpurge := s.finishes_purging h
  have hrest : s.Finishes t₂ .selectingExpired w₂ t' w' :=
    .next (Action.perform_bind_of_ok hexpired _) hpurge
  exact .next (Action.perform_bind_of_ok hselect _) (s.finishes_publishing hpublish hrest)

end Almanac.Scheduler
