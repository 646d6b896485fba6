/-
  Almanac.Proofs.Scheduler.Accounts

  The accounts of a tick. Whatever fails, a tick announces each due event that it has found, and
  then deletes each expired one, in the order in which they were listed. The `Log` of a tick says
  how each of these calls went, and its report is the count of the log (`Unfolds.report_eq`). The
  tally adds up the reports of all ticks (`Series.tally_eq`).

  A failure is an answer like another one: a tick whose calls answer comes to its end
  (`Answers.tick`), also when others act in between (`Answers.ticks`).
-/
import Almanac.Proofs.Scheduler.Deeds
import Almanac.Proofs.Scheduler.Sweep

namespace Almanac.Scheduler

variable {σ : Type}

/-! ## The log of a tick -/

/-- The calls of a tick, with their answers. -/
structure Log where
  /-- The selection of due events; a tick whose window holds no second makes none. -/
  due : Option (Except StorageError (List Event))
  announced : List (Event × Except Service.Error Unit)
  expired : Except StorageError (List Event)
  deleted : List (Event × Except StorageError Unit)

namespace Log

/-- The due events that were found. -/
def dueEvents (l : Log) : List Event := l.due.elim [] found

def expiredEvents (l : Log) : List Event := found l.expired

/-- What the tick has done when its due events are announced. -/
def announcements (l : Log) : List Deed := l.announced.map fun a => .announced a.1 a.2

def deletions (l : Log) : List Deed := l.deleted.map fun a => .deleted a.1 a.2

/-- The deeds of a tick in their order. -/
def deeds (l : Log) : List Deed :=
  (l.due.map Deed.selectedDue).toList ++ l.announcements ++
    .selectedExpired l.expired :: l.deletions

/-- Every event that was found has its turn, once, in the order of the listing. -/
structure Complete (l : Log) : Prop where
  announced : l.announced.map (·.1) = l.dueEvents
  deleted : l.deleted.map (·.1) = l.expiredEvents

/-- Announcements come before deletions. -/
theorem announced_before_deleted {l : Log} {a : Event × Except Service.Error Unit}
    {d : Event × Except StorageError Unit} (ha : a ∈ l.announced) (hd : d ∈ l.deleted) :
    ∃ before middle after,
      l.deeds = before ++ .announced a.1 a.2 :: (middle ++ .deleted d.1 d.2 :: after) := by
  obtain ⟨earlier, later, hannounced⟩ := List.append_of_mem ha
  obtain ⟨earlier', later', hdeleted⟩ := List.append_of_mem hd
  refine ⟨(l.due.map Deed.selectedDue).toList ++ earlier.map fun a => .announced a.1 a.2,
    (later.map fun a => .announced a.1 a.2) ++
      .selectedExpired l.expired :: earlier'.map fun a => .deleted a.1 a.2,
    later'.map fun a => .deleted a.1 a.2, ?_⟩
  simp [deeds, announcements, deletions, hannounced, hdeleted]

/-- The count of a log. -/
def report (l : Log) : Report where
  due := l.dueEvents.length
  published := l.announced.countP (·.2.isOk)
  publishFailures := l.announced.countP (!·.2.isOk)
  expired := l.expiredEvents.length
  purged := l.deleted.countP (·.2.isOk)
  purgeFailures := l.deleted.countP (!·.2.isOk)
  lastError := (l.deeds.filterMap Deed.error?).getLast?

end Log

/-! ## Counting -/

namespace Report

/-- Counting does not look at errors. -/
theorem foldl_count_lastError (deeds : List Deed) (r : Report) (lastError : Option String) :
    deeds.foldl count { r with lastError } = { deeds.foldl count r with lastError } := by
  induction deeds generalizing r with
  | nil => rfl
  | cons d deeds ih =>
      have hcount : { r with lastError }.count d = { r.count d with lastError } := by
        cases d with
        | selectedDue answer => cases answer <;> rfl
        | announced e answer => cases answer <;> rfl
        | selectedExpired answer => cases answer <;> rfl
        | deleted e answer => cases answer <;> rfl
      rw [List.foldl_cons, List.foldl_cons, hcount, ih]

/-- Noting deeds is counting them and keeping the last error. -/
theorem foldl_note (deeds : List Deed) (r : Report) :
    deeds.foldl note r =
      { deeds.foldl count r with
        lastError := (deeds.filterMap Deed.error?).getLast?.or r.lastError } := by
  induction deeds generalizing r with
  | nil => rfl
  | cons d deeds ih =>
      have hlast : ((d :: deeds).filterMap Deed.error?).getLast? =
          (deeds.filterMap Deed.error?).getLast?.or d.error? := by
        rw [List.filterMap_cons]
        cases d.error? with
        | none => rw [Option.or_none]
        | some e =>
            rw [List.getLast?_cons]
            cases (deeds.filterMap Deed.error?).getLast? <;> rfl
      rw [List.foldl_cons, List.foldl_cons, ih, note, foldl_count_lastError, hlast, Option.or_assoc]

/-- The report counts what came of the announcements. -/
theorem foldl_count_announced (l : List (Event × Except Service.Error Unit)) (r : Report) :
    (l.map fun a => Deed.announced a.1 a.2).foldl count r =
      { r with
        published := r.published + l.countP (·.2.isOk)
        publishFailures := r.publishFailures + l.countP (!·.2.isOk) } := by
  induction l generalizing r with
  | nil => rfl
  | cons a l ih =>
      rw [List.map_cons, List.foldl_cons, ih]
      rcases a with ⟨e, _ | _⟩ <;> simp [count, Except.isOk, Except.toBool] <;> omega

theorem foldl_count_deleted (l : List (Event × Except StorageError Unit)) (r : Report) :
    (l.map fun a => Deed.deleted a.1 a.2).foldl count r =
      { r with
        purged := r.purged + l.countP (·.2.isOk)
        purgeFailures := r.purgeFailures + l.countP (!·.2.isOk) } := by
  induction l generalizing r with
  | nil => rfl
  | cons a l ih =>
      rw [List.map_cons, List.foldl_cons, ih]
      rcases a with ⟨e, _ | _⟩ <;> simp [count, Except.isOk, Except.toBool] <;> omega

end Report

namespace Log

theorem countP_ok_add {ε : Type} (l : List (Event × Except ε Unit)) :
    l.countP (·.2.isOk) + l.countP (!·.2.isOk) = l.length := by
  rw [List.length_eq_countP_add_countP (·.2.isOk)]
  simp

/-- What was found either succeeded or failed. -/
theorem Complete.balanced {l : Log} (h : l.Complete) :
    l.report.published + l.report.publishFailures = l.report.due ∧
      l.report.purged + l.report.purgeFailures = l.report.expired := by
  have hdue : l.announced.length = l.dueEvents.length := by rw [← h.announced, List.length_map]
  have hexpired : l.deleted.length = l.expiredEvents.length := by
    rw [← h.deleted, List.length_map]
  exact ⟨(countP_ok_add l.announced).trans hdue, (countP_ok_add l.deleted).trans hexpired⟩

/-- Noting the deeds of a tick counts its log. -/
theorem foldl_note (l : Log) : l.deeds.foldl Report.note {} = l.report := by
  have hcount : l.deeds.foldl Report.count {} = { l.report with lastError := none } := by
    rw [deeds, announcements, deletions, List.foldl_append, List.foldl_append, List.foldl_cons,
      Report.foldl_count_announced, Report.foldl_count_deleted]
    rcases l with ⟨- | (_ | _), announced, _ | _, deleted⟩ <;>
      simp [Report.count, report, dueEvents, expiredEvents, found]
  rw [Report.foldl_note, hcount, Option.or_none]
  rfl

end Log

/-! ## What a tick does -/

namespace Unfolds

variable {s : Scheduler σ} {others : σ → σ → Prop} {t t' : Tick} {w w' : σ} {deeds : List Deed}

/-- The events to delete are deleted one after the other. -/
theorem purging {expired : List Event} (h : s.Unfolds others t (.purging expired) w deeds t' w') :
    ∃ deleted : List (Event × Except StorageError Unit),
      deleted.map (·.1) = expired ∧ deeds = deleted.map fun a => .deleted a.1 a.2 := by
  induction expired generalizing t w deeds with
  | nil => exact ⟨[], rfl, h.purging_nil.2.1⟩
  | cons e expired ih =>
      obtain ⟨v, answer, w₁, rest, -, -, rfl, hrest⟩ := h.purging_cons
      obtain ⟨deleted, hevents, rfl⟩ := ih hrest
      exact ⟨(e, answer) :: deleted, by rw [List.map_cons, hevents], rfl⟩

/-- The due events are announced one after the other, and then the expired ones are selected. What
    others and the broker keep holds until then. -/
theorem publishing {p : σ → Prop} (hothers : ∀ w v, others w v → p w → p v)
    (hpublish : ∀ body, Storage.Keeps p (s.broker.publish s.settings.publish body))
    (hw : p w) {due : List Event}
    (h : s.Unfolds others t (.publishing due) w deeds t' w') :
    ∃ (announced : List (Event × Except Service.Error Unit)) (t₁ : Tick) (w₁ : σ)
      (rest : List Deed),
      announced.map (·.1) = due ∧ deeds = (announced.map fun a => .announced a.1 a.2) ++ rest ∧
        t₁.now = t.now ∧ p w₁ ∧ s.Unfolds others t₁ .selectingExpired w₁ rest t' w' := by
  induction due generalizing t w deeds with
  | nil =>
      obtain ⟨v, hv, hrest⟩ := h.publishing_nil
      exact ⟨[], t, v, deeds, rfl, rfl, rfl, hothers w v hv hw, hrest⟩
  | cons e due ih =>
      obtain ⟨v, answer, w₁, rest, hv, hannounce, rfl, hrest⟩ := h.publishing_cons
      have hw₁ : p w₁ := by
        have hkeeps := s.keeps_announce hpublish e v (hothers w v hv hw)
        rwa [hannounce] at hkeeps
      obtain ⟨announced, t₂, w₂, rest', hevents, rfl, hnow, hw₂, hrest'⟩ := ih hw₁ hrest
      exact ⟨(e, answer) :: announced, t₂, w₂, rest', by rw [List.map_cons, hevents], rfl,
        hnow.trans (t.note_now _), hw₂, hrest'⟩

/-- A tick announces what it selects, selects again and deletes what it finds. Its first
    selection, if it makes one, looks at the world as others have left it. -/
theorem exists_log (h : s.Unfolds others t .selectingDue w deeds t' w') :
    ∃ (log : Log) (v : σ), deeds = log.deeds ∧ log.Complete ∧ others w v ∧
      ((t.hasWindow = false ∧ log.due = none) ∨ (t.hasWindow = true ∧ ∃ answer w₁,
        (s.calendar.eventsDueBetween t.after t.now).perform v = (.ok answer, w₁) ∧
        log.due = some answer)) := by
  -- Whatever was found is announced, and the rest follows.
  have hrest : ∀ {t : Tick} {due : List Event} {w : σ} {deeds : List Deed},
      s.Unfolds others t (.publishing due) w deeds t' w' →
      ∃ announced expired deleted, announced.map (·.1) = due ∧ deleted.map (·.1) = found expired ∧
        ∀ due, (due.map Deed.selectedDue).toList ++ deeds =
          Log.deeds ⟨due, announced, expired, deleted⟩ := by
    intro t due w deeds h
    obtain ⟨announced, t₁, w₁, rest, hannounced, rfl, -, -, hselect⟩ :=
      h.publishing (p := fun _ => True) (fun _ _ _ _ => trivial) (fun _ _ _ => trivial) trivial
    obtain ⟨v, expired, w₂, rest, -, -, rfl, hpurge⟩ := hselect.selectingExpired
    obtain ⟨deleted, hdeleted, rfl⟩ := hpurge.purging
    exact ⟨announced, expired, deleted, hannounced, hdeleted,
      fun due => (List.append_assoc ..).symm⟩
  rcases h.selectingDue with ⟨hwindow, v, hv, hpublish⟩ |
    ⟨hwindow, v, answer, w₁, rest, hv, hanswer, rfl, hpublish⟩
  · obtain ⟨announced, expired, deleted, hannounced, hdeleted, hdeeds⟩ := hrest hpublish
    exact ⟨⟨none, announced, expired, deleted⟩, v, hdeeds none, ⟨hannounced, hdeleted⟩, hv,
      Or.inl ⟨hwindow, rfl⟩⟩
  · obtain ⟨announced, expired, deleted, hannounced, hdeleted, hdeeds⟩ := hrest hpublish
    exact ⟨⟨some answer, announced, expired, deleted⟩, v, hdeeds (some answer),
      ⟨hannounced, hdeleted⟩, hv, Or.inr ⟨hwindow, answer, w₁, hanswer, rfl⟩⟩

/-- The report of a tick that began without one counts its log. -/
theorem report_eq {log : Log} (h : s.Unfolds others t .selectingDue w log.deeds t' w')
    (hnew : t.report = {}) : t'.report = log.report := by
  have hnote : ∀ (deeds : List Deed) (t : Tick),
      (deeds.foldl Tick.note t).report = deeds.foldl Report.note t.report := by
    intro deeds
    induction deeds with
    | nil => exact fun _ => rfl
    | cons d deeds ih => exact fun t => (ih _).trans (by rw [Tick.note_report, List.foldl_cons])
  rw [h.eq_foldl, hnote, hnew, Log.foldl_note]

end Unfolds

variable (s : Scheduler σ)

/-! ## Ticks -/

/-- The window of a tick holds a second if an event is due in it. -/
theorem Tick.hasWindow_of_due {t : Tick} {i : Instant} (hnow : t.now.floorSecond = t.now)
    (hafter : t.after.floorSecond < i) (hin : i ≤ t.now) : t.hasWindow = true := by
  have hlt := Instant.lt_of_lt_of_le hafter hin
  rw [← hnow] at hlt
  exact decide_eq_true (hnow ▸ Instant.floorSecond_lt_iff.mp hlt)

/-- A tick in the books. -/
structure Entry where
  /-- What the clock read when it began. -/
  clock : Instant
  deeds : List Deed
  report : Report

/-- The scheduler makes a tick, and before each of its steps others change the world. -/
def Ticks (others : σ → σ → Prop) (tally : Tally) (w : σ) (x : Entry) (tally' : Tally) (w' : σ) :
    Prop :=
  ∃ t, s.Unfolds others (Tick.begin s.settings tally x.clock) .selectingDue w x.deeds t w' ∧
    x.report = t.report ∧ tally' = t.recorded tally

/-- The scheduler makes one tick after the other. -/
inductive Series (others : σ → σ → Prop) : Tally → σ → List Entry → Tally → σ → Prop
  | nil (tally : Tally) (w : σ) : Series others tally w [] tally w
  | cons {tally tally₁ tally' : Tally} {w w₁ w' : σ} {x : Entry} {xs : List Entry}
      (h : s.Ticks others tally w x tally₁ w₁) (hrest : Series others tally₁ w₁ xs tally' w') :
      Series others tally w (x :: xs) tally' w'

variable {s} {others : σ → σ → Prop} {tally tally' : Tally} {w w' : σ}

/-- An executed tick is one with nobody in between. -/
theorem ticks_of_tick {clock : Instant} {report : Report}
    (h : (s.tick tally clock).perform w = (.ok (report, tally'), w')) :
    ∃ deeds, s.Ticks Eq tally w ⟨clock, deeds, report⟩ tally' w' := by
  obtain ⟨t, w₁, hwork, h⟩ := Action.perform_bind_eq_ok.mp h
  cases h
  obtain ⟨deeds, hunfolds⟩ := s.unfolds_of_finishes (s.finishes_of_work hwork)
  exact ⟨deeds, t, hunfolds, rfl, rfl⟩

theorem Ticks.exists_log {x : Entry} (h : s.Ticks others tally w x tally' w') :
    ∃ log : Log, x.deeds = log.deeds ∧ log.Complete ∧ x.report = log.report := by
  obtain ⟨t, hunfolds, hreport, -⟩ := h
  obtain ⟨log, -, hdeeds, hcomplete, -⟩ := hunfolds.exists_log
  rw [hdeeds] at hunfolds
  exact ⟨log, hdeeds, hcomplete, hreport.trans (hunfolds.report_eq rfl)⟩

theorem Series.ticks_of_mem {xs : List Entry} (h : s.Series others tally w xs tally' w') {x : Entry}
    (hx : x ∈ xs) : ∃ tally₁ w₁ tally₂ w₂, s.Ticks others tally₁ w₁ x tally₂ w₂ := by
  induction h with
  | nil => cases hx
  | cons h hrest ih =>
      rcases List.mem_cons.mp hx with rfl | hx
      · exact ⟨_, _, _, _, h⟩
      · exact ih hx

/-- The tally adds up the reports. -/
theorem Series.tally_eq {xs : List Entry} (h : s.Series others tally w xs tally' w') :
    tally'.ticks = tally.ticks + xs.length ∧
      tally'.published = tally.published + (xs.map (·.report.published)).sum ∧
      tally'.publishFailures = tally.publishFailures + (xs.map (·.report.publishFailures)).sum ∧
      tally'.purged = tally.purged + (xs.map (·.report.purged)).sum ∧
      tally'.purgeFailures = tally.purgeFailures + (xs.map (·.report.purgeFailures)).sum := by
  induction h with
  | nil => simp
  | cons h hrest ih =>
      obtain ⟨t, -, hreport, rfl⟩ := h
      simp only [List.map_cons, List.sum_cons, List.length_cons, hreport]
      simp only [Tick.recorded, Tally.record] at ih
      omega

/-! ## Ticks that come to their end -/

/-- The calls of a scheduler are answered in every world, be it with a failure. -/
structure Answers (s : Scheduler σ) : Prop where
  selectDue : ∀ after limit, (s.calendar.eventsDueBetween after limit).Answers
  publish : ∀ body, (s.broker.publish s.settings.publish body).Answers
  selectExpired : ∀ t, (s.calendar.eventsBefore t).Answers
  delete : ∀ id, (s.calendar.deleteEvent id).Answers

namespace Answers

open Almanac.Action (Answers)

theorem selectsDue (h : s.Answers) (t : Tick) : (s.selectDue t).Answers := by
  unfold Scheduler.selectDue
  split
  · refine (h.selectDue _ _).bind fun r => ?_
    cases r <;> exact .pure _
  · exact .pure _

theorem publishesOne (h : s.Answers) (t : Tick) (e : Event) : (s.publishOne t e).Answers := by
  have hannounce : (s.announce e).Answers := by
    unfold announce
    split
    · exact .pure _
    · refine (h.publish _).bind fun r => ?_
      cases r <;> exact .pure _
  refine hannounce.bind fun r => ?_
  cases r <;> exact .pure _

theorem selectsExpired (h : s.Answers) (t : Tick) : (s.selectExpired t).Answers := by
  refine (h.selectExpired _).bind fun r => ?_
  cases r <;> exact .pure _

theorem purgesOne (h : s.Answers) (t : Tick) (e : Event) : (s.purgeOne t e).Answers := by
  refine (h.delete _).bind fun r => ?_
  cases r <;> exact .pure _

/-- A tick comes to its end if its calls are answered. -/
theorem tick (h : s.Answers) (tally : Tally) (clock : Instant) : (s.tick tally clock).Answers := by
  refine .bind ?_ fun _ => .pure _
  refine (h.selectsDue _).bind fun (t, due) => ?_
  refine (Answers.foldlM (fun t e => h.publishesOne t e) due t).bind fun t => ?_
  refine (h.selectsExpired t).bind fun (t, expired) => ?_
  exact .foldlM (fun t e => h.purgesOne t e) expired t

/-- So does each of its steps. -/
theorem step (h : s.Answers) (t : Tick) (stage : Stage) : (s.step t stage).Answers := by
  match stage with
  | .selectingDue => exact (h.selectsDue t).bind fun _ => .pure _
  | .publishing (e :: due) => exact (h.publishesOne t e).bind fun _ => .pure _
  | .publishing [] => exact .pure _
  | .selectingExpired => exact (h.selectsExpired t).bind fun _ => .pure _
  | .purging (e :: expired) => exact (h.purgesOne t e).bind fun _ => .pure _
  | .purging [] => exact .pure _

variable (h : s.Answers) (hothers : ∀ w, ∃ v, others w v)
include h hothers

/-- One step, after others have acted. -/
theorem exists_step (t : Tick) (stage : Stage) (w : σ) :
    ∃ v t₁ d w₁, others w v ∧ (s.step t stage).perform v = (.ok (t₁, stage.after d), w₁) := by
  obtain ⟨v, hv⟩ := hothers w
  obtain ⟨⟨t₁, next⟩, w₁, hstep⟩ := h.step t stage v
  obtain ⟨rfl, -⟩ := s.deed?_of_step hstep
  exact ⟨v, t₁, _, w₁, hv, hstep⟩

theorem unfolds_purging (expired : List Event) (t : Tick) (w : σ) :
    ∃ deeds t' w', s.Unfolds others t (.purging expired) w deeds t' w' := by
  induction expired generalizing t w with
  | nil =>
      obtain ⟨v, t₁, d, w₁, hv, hstep⟩ := h.exists_step hothers t (.purging []) w
      exact ⟨_, t₁, w₁, .last hv hstep⟩
  | cons e expired ih =>
      obtain ⟨v, t₁, d, w₁, hv, hstep⟩ := h.exists_step hothers t (.purging (e :: expired)) w
      obtain ⟨deeds, t', w', hrest⟩ := ih t₁ w₁
      exact ⟨_, t', w', .next hv hstep hrest⟩

theorem unfolds_publishing (due : List Event) (t : Tick) (w : σ) :
    ∃ deeds t' w', s.Unfolds others t (.publishing due) w deeds t' w' := by
  induction due generalizing t w with
  | nil =>
      obtain ⟨v, t₁, d, w₁, hv, hstep⟩ := h.exists_step hothers t (.publishing []) w
      obtain ⟨v₁, t₂, d₁, w₂, hv₁, hselect⟩ := h.exists_step hothers t₁ .selectingExpired w₁
      obtain ⟨deeds, t', w', hrest⟩ := h.unfolds_purging hothers (d₁.elim [] Deed.found) t₂ w₂
      exact ⟨_, t', w', .next hv hstep (.next hv₁ hselect hrest)⟩
  | cons e due ih =>
      obtain ⟨v, t₁, d, w₁, hv, hstep⟩ := h.exists_step hothers t (.publishing (e :: due)) w
      obtain ⟨deeds, t', w', hrest⟩ := ih t₁ w₁
      exact ⟨_, t', w', .next hv hstep hrest⟩

/-- Whatever others do, a tick comes to its end. -/
theorem ticks (tally : Tally) (w : σ) (clock : Instant) :
    ∃ x tally' w', x.clock = clock ∧ s.Ticks others tally w x tally' w' := by
  obtain ⟨v, t₁, d, w₁, hv, hstep⟩ :=
    h.exists_step hothers (Tick.begin s.settings tally clock) .selectingDue w
  obtain ⟨deeds, t', w', hrest⟩ := h.unfolds_publishing hothers (d.elim [] Deed.found) t₁ w₁
  exact ⟨⟨clock, _, t'.report⟩, _, w', rfl, t', .next hv hstep hrest, rfl, rfl⟩

theorem series (clocks : List Instant) (tally : Tally) (w : σ) :
    ∃ xs tally' w', xs.map Entry.clock = clocks ∧ s.Series others tally w xs tally' w' := by
  induction clocks generalizing tally w with
  | nil => exact ⟨[], tally, w, rfl, .nil tally w⟩
  | cons clock clocks ih =>
      obtain ⟨x, tally₁, w₁, hclock, htick⟩ := h.ticks hothers tally w clock
      obtain ⟨xs, tally', w', hclocks, hrest⟩ := ih tally₁ w₁
      exact ⟨x :: xs, tally', w', by rw [List.map_cons, hclock, hclocks], .cons htick hrest⟩

end Answers

/-! ## The accounts -/

/-- Whatever others do before each step and whichever calls fail, every tick of a series announces
    each due event that it found and then deletes each expired one, once and in the order of the
    listing, and its report counts how these calls went, with the last of the errors. The tally
    adds up the reports. An executed tick is such a tick, and a failure ends none of them. -/
theorem ticks_keep_accounts (s : Scheduler σ) :
    (∀ tally w clock report tally' w',
      (s.tick tally clock).perform w = (.ok (report, tally'), w') →
        ∃ deeds, s.Ticks Eq tally w ⟨clock, deeds, report⟩ tally' w') ∧
    (s.Answers →
      (∀ tally clock, (s.tick tally clock).Answers) ∧
        ∀ others : σ → σ → Prop, (∀ w, ∃ v, others w v) → ∀ clocks tally w, ∃ xs tally' w',
          xs.map Entry.clock = clocks ∧ s.Series others tally w xs tally' w') ∧
    ∀ others tally w xs tally' w', s.Series others tally w xs tally' w' →
      (∀ x ∈ xs, ∃ log : Log, x.deeds = log.deeds ∧
        log.announced.map (·.1) = log.dueEvents ∧ log.deleted.map (·.1) = log.expiredEvents ∧
        x.report = log.report ∧
        x.report.published + x.report.publishFailures = x.report.due ∧
        x.report.purged + x.report.purgeFailures = x.report.expired) ∧
      tally'.ticks = tally.ticks + xs.length ∧
      tally'.published = tally.published + (xs.map (·.report.published)).sum ∧
      tally'.publishFailures = tally.publishFailures + (xs.map (·.report.publishFailures)).sum ∧
      tally'.purged = tally.purged + (xs.map (·.report.purged)).sum ∧
      tally'.purgeFailures = tally.purgeFailures + (xs.map (·.report.purgeFailures)).sum := by
  refine ⟨fun _ _ _ _ _ _ h => ticks_of_tick h,
    fun h => ⟨h.tick, fun _ hothers => h.series hothers⟩,
    fun others tally w xs tally' w' h => ⟨fun x hx => ?_, h.tally_eq⟩⟩
  obtain ⟨tally₁, w₁, tally₂, w₂, htick⟩ := h.ticks_of_mem hx
  obtain ⟨log, hdeeds, hcomplete, hreport⟩ := htick.exists_log
  rw [hreport]
  exact ⟨log, hdeeds, hcomplete.announced, hcomplete.deleted, rfl, hcomplete.balanced⟩

/-! ## A tick whose calls fail, and one whose calls succeed -/

open Rehearsal (dueEvent dueEvent_encodes dueWorld exists_of_isOk secondOf1970 servedBroker)
open Sweep (promptSettings promptSite monthsEarlier_zero)

/-- What a tick does that finds one event, which is due and has expired. -/
def singleDeeds (e : Event) (answer : Except Service.Error Unit)
    (gone : Except StorageError Unit) : List Deed :=
  [.selectedDue (.ok [e]), .announced e answer, .selectedExpired (.ok [e]), .deleted e gone]

/-- A tick that finds one event. Others act before it begins and before it deletes the event. -/
theorem unfolds_single {s : Scheduler σ} {others : σ → σ → Prop} (hstays : ∀ w, others w w)
    {t : Tick} {e : Event} {answer : Except Service.Error Unit} {gone : Except StorageError Unit}
    {w v v' u w' : σ} (hbefore : others w v) (hbetween : others v' u) (hwindow : t.hasWindow = true)
    (hdue : (s.calendar.eventsDueBetween t.after t.now).perform v = (.ok (.ok [e]), v))
    (hannounce : (s.announce e).perform v = (.ok answer, v'))
    (hexpired : (s.calendar.eventsBefore (t.now.monthsEarlier s.settings.retentionMonths)).perform
      v' = (.ok (.ok [e]), v'))
    (hdelete : (s.calendar.deleteEvent e.id).perform u = (.ok gone, w')) :
    s.Unfolds others t .selectingDue w (singleDeeds e answer gone)
      ((singleDeeds e answer gone).foldl Tick.note t) w' := by
  have hend : s.Unfolds others ((singleDeeds e answer gone).foldl Tick.note t) (.purging []) w' []
      ((singleDeeds e answer gone).foldl Tick.note t) w' := .last (hstays w') rfl
  have hexpired' : (s.calendar.eventsBefore
      (((t.note (.selectedDue (.ok [e]))).note (.announced e answer)).now.monthsEarlier
        s.settings.retentionMonths)).perform v' = (.ok (.ok [e]), v') := by
    rw [Tick.note_now, Tick.note_now]
    exact hexpired
  -- The four calls one after the other; a stage with no event left makes none.
  refine .call hbefore (s.call?_selectingDue hwindow) hdue rfl ?_
  refine .call (hstays v) rfl hannounce rfl (.next (hstays v') rfl ?_)
  exact .call (hstays v') rfl hexpired' rfl (.call hbetween rfl hdelete rfl hend)

/-- A scheduler without a retention time, over the storage and the broker in memory. -/
def prompt : Scheduler (Site Storage.MemoryState) := Site.scheduler Storage.memory promptSettings

theorem prompt_answers : prompt.Answers where
  selectDue _ _ _ := ⟨_, _, rfl⟩
  publish _ _ := ⟨_, _, rfl⟩
  selectExpired _ _ := ⟨_, _, rfl⟩
  delete _ _ := ⟨_, _, rfl⟩

/-- The selections of that scheduler when there is one event, which is due and has expired. -/
theorem prompt_finds {e : Event} {w : Site Storage.MemoryState} {t : Tick}
    (hstored : w.storage.store.events = [(e.id, e)])
    (hafter : t.after.floorSecond < e.notification.floorSecond)
    (hlimit : e.notification.floorSecond ≤ t.now.floorSecond) (hbegun : e.beginning < t.now) :
    (prompt.calendar.eventsDueBetween t.after t.now).perform w = (.ok (.ok [e]), w) ∧
      (prompt.calendar.eventsBefore
        (t.now.monthsEarlier prompt.settings.retentionMonths)).perform w =
          (.ok (.ok [e]), w) := by
  constructor
  · rw [← Store.eventsDueBetween_single hstored hafter hlimit]
    rfl
  · have hcutoff : t.now.monthsEarlier prompt.settings.retentionMonths = t.now :=
      monthsEarlier_zero _
    rw [hcutoff, ← Store.eventsBefore_single hstored hbegun]
    rfl

/-- An event that is due after that of the rehearsal. -/
def laterEvent : Event :=
  { dueEvent with
    id := "l"
    beginning := secondOf1970 15
    finish := secondOf1970 15
    notification := secondOf1970 20 }

/-- Its announcement can be written. -/
theorem laterEvent_encodes : ∃ body, laterEvent.announcement.encode = .ok body :=
  exists_of_isOk (by decide +kernel)

/-- A site that stores the later event, with the broker started. -/
def servedSite : Site Storage.MemoryState where
  broker := servedBroker
  storage := { dueWorld.memory with store := { events := [("l", laterEvent)] } }

/-- Somebody else may delete all events, or start the broker and store the later event. -/
def Meddles (w v : Site Storage.MemoryState) : Prop :=
  v = w ∨ v = { w with storage := {} } ∨ v = servedSite

theorem Meddles.stays (w : Site Storage.MemoryState) : Meddles w w := Or.inl rfl

/-- The site when the events are gone. -/
def clearedSite : Site Storage.MemoryState := { promptSite with storage := {} }

/-- A tick that begins so long after 1970 did. -/
def tickAt (tally : Tally) (n : Nat) : Tick := Tick.begin promptSettings tally (secondOf1970 n)

/-- The event is due. The broker is not connected, and somebody else deletes the event before the
    tick does. -/
def struckDeeds : List Deed :=
  singleDeeds dueEvent (.error (.broker .notConnected)) (.error (.missing "event" "e"))

/-- Both calls failed, and the report says so. -/
def struckEntry : Entry where
  clock := secondOf1970 10
  deeds := struckDeeds
  report :=
    { due := 1, publishFailures := 1, expired := 1, purgeFailures := 1,
      lastError := some "not_found: event e" }

/-- The tally after that tick. -/
def struckTally : Tally := (struckDeeds.foldl Tick.note (tickAt {} 10)).recorded {}

theorem ticks_struckEntry :
    prompt.Ticks Meddles {} promptSite struckEntry struckTally clearedSite := by
  obtain ⟨body, hencode⟩ := dueEvent_encodes
  obtain ⟨hdue, hexpired⟩ := prompt_finds (e := dueEvent) (w := promptSite) (t := tickAt {} 10)
    rfl (by decide) (by decide) (by decide)
  have hannounce := prompt.announce_of_publish (w := promptSite) hencode rfl
  have hwindow : (tickAt {} 10).hasWindow = true := by decide
  have hmeddled : Meddles promptSite clearedSite := Or.inr (Or.inl rfl)
  exact ⟨_, unfolds_single Meddles.stays (.stays _) hmeddled hwindow hdue hannounce hexpired rfl,
    rfl, rfl⟩

/-- The later event is published and deleted. -/
def servedDeeds : List Deed := singleDeeds laterEvent (.ok ()) (.ok ())

/-- Both calls succeeded, and the report says so. -/
def servedEntry : Entry where
  clock := secondOf1970 20
  deeds := servedDeeds
  report := { due := 1, published := 1, expired := 1, purged := 1 }

theorem ticks_servedEntry :
    ∃ tally w, prompt.Ticks Meddles struckTally clearedSite servedEntry tally w := by
  obtain ⟨body, hencode⟩ := laterEvent_encodes
  obtain ⟨hdue, -⟩ := prompt_finds (e := laterEvent) (w := servedSite)
    (t := tickAt struckTally 20) rfl (by decide) (by decide) (by decide)
  have hannounce := prompt.announce_of_publish (w := servedSite) hencode rfl
  obtain ⟨-, hexpired⟩ := prompt_finds (e := laterEvent)
    (w := { servedSite with broker := (servedBroker.publish {} body).2 })
    (t := tickAt struckTally 20) rfl (by decide) (by decide) (by decide)
  have hwindow : (tickAt struckTally 20).hasWindow = true := by decide
  have hmeddled : Meddles clearedSite servedSite := Or.inr (Or.inr rfl)
  exact ⟨_, _, _, unfolds_single Meddles.stays hmeddled (.stays _) hwindow hdue hannounce hexpired
    rfl, rfl, rfl⟩

/-- A tick whose calls fail and one whose calls succeed are accounted for, one after the other. -/
theorem struck_and_served_accounted :
    (∃ deeds report tally' w',
      prompt.Ticks Eq {} promptSite ⟨secondOf1970 10, deeds, report⟩ tally' w') ∧
    (∃ xs tally' w', xs.map Entry.clock = [secondOf1970 10, secondOf1970 11] ∧
      prompt.Series Meddles {} promptSite xs tally' w') ∧
    ∃ (tally' : Tally) (w' : Site Storage.MemoryState),
      prompt.Series Meddles {} promptSite [struckEntry, servedEntry] tally' w' ∧
      (∀ x ∈ [struckEntry, servedEntry], ∃ log : Log, x.deeds = log.deeds ∧
        log.announced.map (·.1) = log.dueEvents ∧ log.deleted.map (·.1) = log.expiredEvents ∧
        x.report = log.report) ∧
      tally'.ticks = 2 ∧ tally'.published = 1 ∧ tally'.publishFailures = 1 ∧
      tally'.purged = 1 ∧ tally'.purgeFailures = 1 := by
  obtain ⟨hexecuted, hends, haccounts⟩ := ticks_keep_accounts prompt
  obtain ⟨hanswers, hseries⟩ := hends prompt_answers
  obtain ⟨⟨report, tally'⟩, w', htick⟩ := hanswers {} (secondOf1970 10) promptSite
  obtain ⟨deeds, hticks⟩ := hexecuted _ _ _ _ _ _ htick
  obtain ⟨tally'', w'', hserved⟩ := ticks_servedEntry
  have hboth := Series.cons ticks_struckEntry (.cons hserved (.nil _ _))
  obtain ⟨hlog, hcount, hpublished, hfailures, hpurged, hlost⟩ := haccounts _ _ _ _ _ _ hboth
  have htotal : ∀ w, ∃ v, Meddles w v := fun w => ⟨w, .stays w⟩
  refine ⟨⟨deeds, report, tally', w', hticks⟩, hseries Meddles htotal _ {} promptSite,
    tally'', w'', hboth, fun x hx => ?_, hcount, hpublished, hfailures, hpurged, hlost⟩
  obtain ⟨log, hdeeds, hannounced, hdeleted, hreport, -⟩ := hlog x hx
  exact ⟨log, hdeeds, hannounced, hdeleted, hreport⟩

end Almanac.Scheduler
