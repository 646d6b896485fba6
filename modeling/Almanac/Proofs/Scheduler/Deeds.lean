/-
  Almanac.Proofs.Scheduler.Deeds

  What the calls of a tick come to. A step makes one call or none (`call?`). The answer of the
  call is a `Deed`, and the deed is all that the report takes over (`Tick.note`) and all that
  decides what the tick does next (`Stage.after`): `step_eq`.

  `Unfolds` is a tick that takes its steps to the end, with its deeds in their order, while
  others change the world before each step. The executed tick is the case in which nobody does
  (`unfolds_of_finishes`).
-/
import Almanac.Proofs.Action
import Almanac.Proofs.Scheduler.Step

namespace Almanac.Scheduler

variable {σ : Type}

/-! ## Deeds -/

/-- What a call of a tick came to. -/
inductive Deed
  | selectedDue (answer : Except StorageError (List Event))
  | announced (e : Event) (answer : Except Service.Error Unit)
  | selectedExpired (answer : Except StorageError (List Event))
  | deleted (e : Event) (answer : Except StorageError Unit)

/-- The events that a selection found: none if it failed. -/
def found : Except StorageError (List Event) → List Event
  | .ok events => events
  | .error _ => []

namespace Deed

/-- The events that a deed found. -/
def found : Deed → List Event
  | selectedDue answer | selectedExpired answer => Scheduler.found answer
  | _ => []

/-- The announcement that a deed attempted. -/
def announcement? : Deed → Option Notification
  | announced e _ => some e.announcement
  | _ => none

/-- What a deed says that failed. -/
def error? : Deed → Option String
  | selectedDue (.error e) | selectedExpired (.error e) | deleted _ (.error e) => some e.text
  | announced _ (.error e) => some e.text
  | _ => none

end Deed

/-- Counts a deed. -/
def Report.count (r : Report) : Deed → Report
  | .selectedDue (.ok due) => { r with due := due.length }
  | .announced _ (.ok ()) => { r with published := r.published + 1 }
  | .announced _ (.error _) => { r with publishFailures := r.publishFailures + 1 }
  | .selectedExpired (.ok expired) => { r with expired := expired.length }
  | .deleted _ (.ok ()) => { r with purged := r.purged + 1 }
  | .deleted _ (.error _) => { r with purgeFailures := r.purgeFailures + 1 }
  | _ => r

/-- The report after a deed. -/
def Report.note (r : Report) (d : Deed) : Report :=
  { r.count d with lastError := d.error?.or r.lastError }

/-- The tick after a deed. -/
def Tick.note (t : Tick) (d : Deed) : Tick :=
  let t := t.reporting (·.note d)
  match d with
  | .selectedDue (.ok _) => { t with through := some t.now }
  | _ => t

@[simp] theorem Tick.note_report (t : Tick) (d : Deed) : (t.note d).report = t.report.note d := by
  cases d with
  | selectedDue answer => cases answer <;> rfl
  | _ => rfl

@[simp] theorem Tick.note_now (t : Tick) (d : Deed) : (t.note d).now = t.now := by
  cases d with
  | selectedDue answer => cases answer <;> rfl
  | _ => rfl

/-- The announcement that a tick at some stage attempts next. -/
def Stage.attempt? : Stage → Option Notification
  | .publishing (e :: _) => some e.announcement
  | _ => none

/-- What a tick does after a stage, by what the call of the stage came to. -/
def Stage.after : Stage → Option Deed → Option Stage
  | .selectingDue, d => some (.publishing (d.elim [] Deed.found))
  | .publishing (_ :: due), _ => some (.publishing due)
  | .publishing [], _ => some .selectingExpired
  | .selectingExpired, d => some (.purging (d.elim [] Deed.found))
  | .purging (_ :: expired), _ => some (.purging expired)
  | .purging [], _ => none

variable (s : Scheduler σ)

/-! ## The call of a step -/

/-- The call that a tick makes next. -/
def call? (t : Tick) : Stage → Option (Action σ Deed)
  | .selectingDue =>
    if t.hasWindow then
      some (do return .selectedDue (← s.calendar.eventsDueBetween t.after t.now))
    else none
  | .publishing (e :: _) => some (do return .announced e (← s.announce e))
  | .publishing [] => none
  | .selectingExpired =>
    some (do
      let cutoff := t.now.monthsEarlier s.settings.retentionMonths
      return .selectedExpired (← s.calendar.eventsBefore cutoff))
  | .purging (e :: _) => some (do return .deleted e (← s.calendar.deleteEvent e.id))
  | .purging [] => none

theorem call?_selectingDue {t : Tick} (hwindow : t.hasWindow = true) :
    s.call? t .selectingDue =
      some (do return .selectedDue (← s.calendar.eventsDueBetween t.after t.now)) :=
  if_pos hwindow

theorem call?_selectingExpired (t : Tick) :
    s.call? t .selectingExpired =
      some (do
        return .selectedExpired
          (← s.calendar.eventsBefore (t.now.monthsEarlier s.settings.retentionMonths))) :=
  rfl

/-- What the call of a step comes to in a world, if the step makes one that answers. -/
def deed? (t : Tick) (stage : Stage) (w : σ) : Option Deed :=
  (s.call? t stage).bind fun call => (call.perform w).1.toOption

/-- A step is its call, and the note of what it came to. -/
theorem step_eq (t : Tick) (stage : Stage) :
    s.step t stage =
      match s.call? t stage with
      | some call => do
        let d ← call
        return (t.note d, stage.after (some d))
      | none => return (t, stage.after none) := by
  match stage with
  | .selectingDue =>
      by_cases hwindow : t.hasWindow = true
      · simp only [step, selectDue, call?, hwindow, if_true, bind_assoc, pure_bind]
        congr 1
        funext answer
        cases answer <;> rfl
      · simp only [step, selectDue, call?, hwindow]
        rfl
  | .publishing (e :: due) =>
      simp only [step, publishOne, call?, bind_assoc, pure_bind]
      congr 1
      funext answer
      cases answer <;> rfl
  | .selectingExpired =>
      simp only [step, selectExpired, call?, bind_assoc, pure_bind]
      congr 1
      funext answer
      cases answer <;> rfl
  | .purging (e :: expired) =>
      simp only [step, purgeOne, call?, bind_assoc, pure_bind]
      congr 1
      funext answer
      cases answer <;> rfl
  -- No call is made when the last event is done.
  | .publishing [] => rfl
  | .purging [] => rfl

/-- A step whose call is answered notes the answer. -/
theorem step_of_call {t : Tick} {stage : Stage} {α : Type} {act : Action σ α} {f : α → Deed}
    {answer : α} {w w' : σ} (hcall : s.call? t stage = some (do return f (← act)))
    (hanswer : act.perform w = (.ok answer, w')) :
    (s.step t stage).perform w =
        (.ok (t.note (f answer), stage.after (some (f answer))), w') ∧
      s.deed? t stage w = some (f answer) := by
  have hperform : (do return f (← act) : Action σ Deed).perform w = (.ok (f answer), w') :=
    Action.perform_bind_of_ok hanswer _
  constructor
  · rw [step_eq, hcall]
    exact Action.perform_bind_of_ok hperform _
  · rw [deed?, hcall, Option.bind_some, hperform]
    rfl

/-- A step made its call and noted what it came to, or had none to make. -/
theorem deed?_of_step {t t' : Tick} {stage : Stage} {next : Option Stage} {w w' : σ}
    (h : (s.step t stage).perform w = (.ok (t', next), w')) :
    next = stage.after (s.deed? t stage w) ∧ t' = (s.deed? t stage w).elim t t.note ∧
      ((s.call? t stage = none ∧ s.deed? t stage w = none ∧ w' = w) ∨
        ∃ call d, s.call? t stage = some call ∧ s.deed? t stage w = some d ∧
          call.perform w = (.ok d, w')) := by
  rw [step_eq] at h
  unfold deed?
  rcases hcall : s.call? t stage with - | call
  · rw [hcall] at h
    cases h
    exact ⟨rfl, rfl, Or.inl ⟨rfl, rfl, rfl⟩⟩
  · rw [hcall] at h
    obtain ⟨d, w₁, hperform, h⟩ := Action.perform_bind_eq_ok.mp h
    cases h
    have hdeed : (some call).bind (fun c => (c.perform w).1.toOption) = some d := by
      rw [Option.bind_some, hperform]
      rfl
    rw [hdeed]
    exact ⟨rfl, rfl, Or.inr ⟨call, d, rfl, rfl, hperform⟩⟩

/-- A step announces what its stage says and nothing else, and its call does it. -/
theorem announces_of_step {t t' : Tick} {stage : Stage} {next : Option Stage} {w w' : σ}
    (h : (s.step t stage).perform w = (.ok (t', next), w')) :
    (s.deed? t stage w).bind Deed.announcement? = stage.attempt? ∧
      ∀ e answer, s.deed? t stage w = some (.announced e answer) →
        (s.announce e).perform w = (.ok answer, w') := by
  obtain ⟨-, -, ⟨hcall, hdeed, -⟩ | ⟨call, d, hcall, hdeed, hperform⟩⟩ := s.deed?_of_step h
  · rw [hdeed]
    refine ⟨?_, fun e answer hnever => by cases hnever⟩
    match stage with
    | .publishing (e :: due) => cases hcall
    | .selectingDue | .publishing [] | .selectingExpired | .purging _ => rfl
  · rw [hdeed]
    match stage with
    | .publishing (e :: due) =>
        cases hcall
        obtain ⟨answer, hannounce, rfl⟩ := Action.perform_return_eq_ok hperform
        refine ⟨rfl, fun e answer heq => ?_⟩
        cases heq
        exact hannounce
    -- The other calls are no announcements.
    | .selectingDue =>
        obtain ⟨-, hcall⟩ := Option.ite_none_right_eq_some.mp hcall
        cases hcall
        obtain ⟨answer, -, rfl⟩ := Action.perform_return_eq_ok hperform
        exact ⟨rfl, fun e answer hnever => by cases hnever⟩
    | .selectingExpired =>
        cases hcall
        obtain ⟨answer, -, rfl⟩ := Action.perform_return_eq_ok hperform
        exact ⟨rfl, fun e answer hnever => by cases hnever⟩
    | .purging (e :: expired) =>
        cases hcall
        obtain ⟨answer, -, rfl⟩ := Action.perform_return_eq_ok hperform
        exact ⟨rfl, fun e answer hnever => by cases hnever⟩
    | .publishing [] => cases hcall
    | .purging [] => cases hcall

/-- A step that stalls does so in its call. -/
theorem call_of_stall {t : Tick} {stage : Stage} {stall : Stall} {w w' : σ}
    (h : (s.step t stage).perform w = (.error stall, w')) :
    ∃ call, s.call? t stage = some call ∧ call.perform w = (.error stall, w') := by
  rw [step_eq] at h
  rcases hcall : s.call? t stage with - | call
  · rw [hcall] at h
    cases h
  · rw [hcall] at h
    obtain hperform | ⟨_, _, -, hnever⟩ := Action.stall_of_perform_bind h
    · exact ⟨call, rfl, hperform⟩
    · cases hnever

/-- An announcement that stalls does so as it is published. -/
theorem publish_of_stall {e : Event} {stall : Stall} {w w' : σ}
    (h : (s.announce e).perform w = (.error stall, w')) :
    ∃ body, (s.broker.publish s.settings.publish body).perform w = (.error stall, w') := by
  unfold announce at h
  split at h
  · cases h
  · obtain hpublish | ⟨answer, _, -, hnever⟩ := Action.stall_of_perform_bind h
    · exact ⟨_, hpublish⟩
    · cases answer <;> cases hnever

/-- A step that stalls does so in the calendar or the broker. -/
theorem stall_of_step {t : Tick} {stage : Stage} {stall : Stall} {w w' : σ}
    (h : (s.step t stage).perform w = (.error stall, w')) :
    (∃ after limit,
        (s.calendar.eventsDueBetween after limit).perform w = (.error stall, w')) ∨
      (∃ body, (s.broker.publish s.settings.publish body).perform w = (.error stall, w')) ∨
      (∃ limit, (s.calendar.eventsBefore limit).perform w = (.error stall, w')) ∨
      ∃ id, (s.calendar.deleteEvent id).perform w = (.error stall, w') := by
  obtain ⟨call, hcall, hperform⟩ := s.call_of_stall h
  match stage with
  | .selectingDue =>
      cases hwindow : t.hasWindow with
      | false => simp [call?, hwindow] at hcall
      | true =>
          rw [call?, if_pos hwindow] at hcall
          obtain rfl := Option.some.inj hcall
          exact Or.inl ⟨_, _, Action.stall_of_perform_return hperform⟩
  | .publishing (e :: due) =>
      obtain rfl := Option.some.inj hcall
      exact Or.inr (Or.inl (s.publish_of_stall (Action.stall_of_perform_return hperform)))
  | .selectingExpired =>
      obtain rfl := Option.some.inj hcall
      exact Or.inr (Or.inr (Or.inl ⟨_, Action.stall_of_perform_return hperform⟩))
  | .purging (e :: expired) =>
      obtain rfl := Option.some.inj hcall
      exact Or.inr (Or.inr (Or.inr ⟨_, Action.stall_of_perform_return hperform⟩))
  -- The other stages make no call.
  | .publishing [] => cases hcall
  | .purging [] => cases hcall

/-! ## A tick among others -/

/-- A tick takes its steps to the end, and before each of them others change the world. The list
    holds what its calls came to. -/
inductive Unfolds (others : σ → σ → Prop) : Tick → Stage → σ → List Deed → Tick → σ → Prop
  | last {t t' : Tick} {stage : Stage} {w v w' : σ} (hothers : others w v)
      (h : (s.step t stage).perform v = (.ok (t', none), w')) :
      Unfolds others t stage w (s.deed? t stage v).toList t' w'
  | next {t t₁ t' : Tick} {stage stage₁ : Stage} {w v w₁ w' : σ} {deeds : List Deed}
      (hothers : others w v)
      (h : (s.step t stage).perform v = (.ok (t₁, some stage₁), w₁))
      (hrest : Unfolds others t₁ stage₁ w₁ deeds t' w') :
      Unfolds others t stage w ((s.deed? t stage v).toList ++ deeds) t' w'

/-- A tick with nobody in between. -/
theorem unfolds_of_finishes {t t' : Tick} {stage : Stage} {w w' : σ}
    (h : s.Finishes t stage w t' w') : ∃ deeds, s.Unfolds Eq t stage w deeds t' w' := by
  induction h with
  | last h => exact ⟨_, .last rfl h⟩
  | next h _ ih =>
      obtain ⟨deeds, hrest⟩ := ih
      exact ⟨_, .next rfl h hrest⟩

namespace Unfolds

variable {s : Scheduler σ} {others : σ → σ → Prop} {t t' : Tick} {w w' : σ} {deeds : List Deed}

/-- The tick at its end is the tick that has noted its deeds. -/
theorem eq_foldl {stage : Stage} (h : s.Unfolds others t stage w deeds t' w') :
    t' = deeds.foldl Tick.note t := by
  induction h with
  | @last t t' stage w v w' hothers h =>
      obtain ⟨-, htick, -⟩ := s.deed?_of_step h
      rw [htick]
      cases s.deed? t stage v <;> rfl
  | @next t t₁ t' stage stage₁ w v w₁ w' deeds hothers h hrest ih =>
      obtain ⟨-, htick, -⟩ := s.deed?_of_step h
      rw [ih, htick]
      cases s.deed? t stage v <;> rfl

/-- A stage with a call to make: others act, the call is answered, and the rest follows. -/
theorem of_call {stage : Stage} {α : Type} {act : Action σ α} {f : α → Deed} {next : α → Stage}
    (h : s.Unfolds others t stage w deeds t' w')
    (hcall : s.call? t stage = some (do return f (← act)))
    (hnext : ∀ a, stage.after (some (f a)) = some (next a)) :
    ∃ v answer w₁ rest, others w v ∧ act.perform v = (.ok answer, w₁) ∧
      deeds = f answer :: rest ∧
      s.Unfolds others (t.note (f answer)) (next answer) w₁ rest t' w' := by
  have hmade : ∀ {v w₁ : σ} {t₁ : Tick} {after : Option Stage},
      (s.step t stage).perform v = (.ok (t₁, after), w₁) →
      ∃ answer, act.perform v = (.ok answer, w₁) ∧ s.deed? t stage v = some (f answer) ∧
        t₁ = t.note (f answer) ∧ after = some (next answer) := by
    intro v w₁ t₁ after hstep
    obtain ⟨hafter, htick, ⟨hnone, -⟩ | ⟨call, d, hsome, hdeed, hperform⟩⟩ := s.deed?_of_step hstep
    · simp [hcall] at hnone
    · obtain rfl := Option.some.inj (hcall.symm.trans hsome)
      obtain ⟨answer, hanswer, rfl⟩ := Action.perform_return_eq_ok hperform
      rw [hdeed] at hafter htick
      exact ⟨answer, hanswer, hdeed, htick, hafter.trans (hnext answer)⟩
  cases h with
  | last hothers h =>
      obtain ⟨answer, -, -, -, hafter⟩ := hmade h
      cases hafter
  | @next _ t₁ _ _ stage₁ _ v w₁ _ rest hothers h hrest =>
      obtain ⟨answer, hanswer, hdeed, rfl, hafter⟩ := hmade h
      cases hafter
      rw [hdeed]
      exact ⟨v, answer, w₁, rest, hothers, hanswer, rfl, hrest⟩

/-- A stage without a call: others act, and the tick goes on as it is. -/
theorem of_no_call {stage stage₁ : Stage} (h : s.Unfolds others t stage w deeds t' w')
    (hcall : s.call? t stage = none) (hnext : stage.after none = some stage₁) :
    ∃ v, others w v ∧ s.Unfolds others t stage₁ v deeds t' w' := by
  have hmade : ∀ {v w₁ : σ} {t₁ : Tick} {after : Option Stage},
      (s.step t stage).perform v = (.ok (t₁, after), w₁) →
      s.deed? t stage v = none ∧ t₁ = t ∧ after = some stage₁ ∧ w₁ = v := by
    intro v w₁ t₁ after hstep
    obtain ⟨hafter, htick, ⟨-, hdeed, hworld⟩ | ⟨call, d, hsome, -⟩⟩ := s.deed?_of_step hstep
    · rw [hdeed] at hafter htick
      exact ⟨hdeed, htick, hafter.trans hnext, hworld⟩
    · simp [hcall] at hsome
  cases h with
  | last hothers h =>
      obtain ⟨-, -, hafter, -⟩ := hmade h
      cases hafter
  | @next _ t₁ _ _ _ _ v w₁ _ rest hothers h hrest =>
      obtain ⟨hdeed, rfl, hafter, rfl⟩ := hmade h
      cases hafter
      rw [hdeed]
      exact ⟨w₁, hothers, hrest⟩

/-- A tick whose call is answered unfolds with the answer in front. -/
theorem call {stage stage₁ : Stage} {α : Type} {act : Action σ α} {f : α → Deed} {answer : α}
    {v w₁ : σ} (hothers : others w v) (hcall : s.call? t stage = some (do return f (← act)))
    (hanswer : act.perform v = (.ok answer, w₁))
    (hnext : stage.after (some (f answer)) = some stage₁)
    (hrest : s.Unfolds others (t.note (f answer)) stage₁ w₁ deeds t' w') :
    s.Unfolds others t stage w (f answer :: deeds) t' w' := by
  obtain ⟨hstep, hdeed⟩ := s.step_of_call hcall hanswer
  rw [hnext] at hstep
  have hall := Unfolds.next hothers hstep hrest
  rwa [hdeed] at hall

theorem selectingDue (h : s.Unfolds others t .selectingDue w deeds t' w') :
    (t.hasWindow = false ∧
        ∃ v, others w v ∧ s.Unfolds others t (.publishing []) v deeds t' w') ∨
      (t.hasWindow = true ∧ ∃ v answer w₁ rest, others w v ∧
        (s.calendar.eventsDueBetween t.after t.now).perform v = (.ok answer, w₁) ∧
        deeds = .selectedDue answer :: rest ∧
        s.Unfolds others (t.note (.selectedDue answer)) (.publishing (found answer)) w₁ rest
          t' w') := by
  cases hwindow : t.hasWindow with
  | false => exact Or.inl ⟨rfl, h.of_no_call (by simp [call?, hwindow]) rfl⟩
  | true =>
      exact Or.inr ⟨rfl, h.of_call (s.call?_selectingDue hwindow) fun _ => rfl⟩

theorem publishing_cons {e : Event} {due : List Event}
    (h : s.Unfolds others t (.publishing (e :: due)) w deeds t' w') :
    ∃ v answer w₁ rest, others w v ∧ (s.announce e).perform v = (.ok answer, w₁) ∧
      deeds = .announced e answer :: rest ∧
      s.Unfolds others (t.note (.announced e answer)) (.publishing due) w₁ rest t' w' :=
  h.of_call rfl fun _ => rfl

theorem publishing_nil (h : s.Unfolds others t (.publishing []) w deeds t' w') :
    ∃ v, others w v ∧ s.Unfolds others t .selectingExpired v deeds t' w' :=
  h.of_no_call rfl rfl

theorem selectingExpired (h : s.Unfolds others t .selectingExpired w deeds t' w') :
    ∃ v answer w₁ rest, others w v ∧
      (s.calendar.eventsBefore (t.now.monthsEarlier s.settings.retentionMonths)).perform v =
        (.ok answer, w₁) ∧
      deeds = .selectedExpired answer :: rest ∧
      s.Unfolds others (t.note (.selectedExpired answer)) (.purging (found answer)) w₁ rest
        t' w' :=
  h.of_call (s.call?_selectingExpired t) fun _ => rfl

theorem purging_cons {e : Event} {expired : List Event}
    (h : s.Unfolds others t (.purging (e :: expired)) w deeds t' w') :
    ∃ v answer w₁ rest, others w v ∧
      (s.calendar.deleteEvent e.id).perform v = (.ok answer, w₁) ∧
      deeds = .deleted e answer :: rest ∧
      s.Unfolds others (t.note (.deleted e answer)) (.purging expired) w₁ rest t' w' :=
  h.of_call rfl fun _ => rfl

theorem purging_nil (h : s.Unfolds others t (.purging []) w deeds t' w') :
    others w w' ∧ deeds = [] ∧ t' = t := by
  cases h with
  | last hothers h =>
      cases h
      exact ⟨hothers, rfl, rfl⟩
  | next hothers h => cases h

end Unfolds

end Almanac.Scheduler
