/-
  Almanac.Proofs.Rehearsal.Alarms

  When the loop of a scheduler crashes. Its ticks do not: they count what fails
  (`tick_does_not_crash`). What remains are the alarms, which it sets as it begins and at each
  tick, and which the clock may not be able to show (`Overruns`). A step crashes the scheduler
  exactly there (`Loops.stepTask`), and so does a run, whatever others do in between
  (`Goes.crashed_iff`).

  The check of a configuration refuses an empty interval, but none for being too long
  (`validated_scheduler_crashes_iff`).
-/
import Almanac.Proofs.Rehearsal.Delivering
import Almanac.Proofs.Scheduler.Deeds

namespace Almanac

/-! ## What the check says of the scheduler -/

namespace Config

theorem interval_of_validate {c : Config} (h : c.validate = .ok ()) :
    c.scheduler.intervalSeconds ≠ 0 := by
  unfold validate at h
  obtain ⟨_, -, h⟩ := Json.bind_eq_ok.mp h
  obtain ⟨_, hinterval, -⟩ := Json.bind_eq_ok.mp h
  simpa using of_refuseIf hinterval

theorem scheduler_of_supervisorSettings {c : Config} {s : Supervisor.Settings}
    (h : c.supervisorSettings = .ok s) : s.scheduler = c.schedulerSettings := by
  unfold supervisorSettings at h
  obtain ⟨http, -, h⟩ := Json.bind_eq_ok.mp h
  obtain ⟨grpc, -, h⟩ := Json.bind_eq_ok.mp h
  cases h
  rfl

end Config

namespace Rehearsal

open Scheduler (Settings Stage Tick)
open Storage (Keeps)
open Supervisor (Ending)

/-! ## Calls that do not crash -/

/-- Faults that let calls fail or hang, and none crash. -/
structure Faults.Crashless (f : Faults) : Prop where
  storage : ∀ call, f.storage call ≠ some .crash
  deletions : ∀ id, f.deletions.get? id ≠ some .crash
  broker : ∀ call, f.broker call ≠ some .crash

namespace Faults.Crashless

variable {f : Faults}

theorem ofDeletion (h : f.Crashless) (id : String) : f.ofDeletion id ≠ some .crash := by
  unfold Faults.ofDeletion
  have hown := h.deletions id
  cases hget : f.deletions.get? id with
  | none => exact h.storage .deleteEvent
  | some fault => rwa [hget] at hown

theorem ofPublishing (h : f.Crashless) (body : Bytes) : f.ofPublishing body ≠ some .crash := by
  unfold Faults.ofPublishing
  split
  · exact h.broker .publish
  · nofun

end Faults.Crashless

/-- An operation that answers crashes only if its fault says so. -/
theorem struck_does_not_crash {σ ε α : Type} {fault : σ → Option (Fault ε)}
    {act : Action σ (Except ε α)} {w : σ} (hact : act.AnswersFrom w)
    (hfault : fault w ≠ some .crash) (message : String) (w' : σ) :
    (struck fault act).perform w ≠ (.error (.crash message), w') := by
  rw [perform_struck]
  obtain ⟨a, v, hanswer⟩ := hact
  cases hwhat : fault w with
  | none => simp [hanswer]
  | some what =>
      cases what with
      | fail e => simp
      | hang => simp
      | crash => exact (hfault hwhat).elim

namespace World

variable {w w' v : World} {i cell : Nat} {settings : Settings} {message : String}

/-- A step of a tick does not crash. -/
theorem tick_does_not_crash (hcrashless : w.faults.Crashless) {t : Tick} {stage : Stage} :
    ((v.scheduler settings).step t stage).perform w ≠ (.error (.crash message), w') := by
  have hdue : ∀ after limit, ((v.scheduler settings).calendar.eventsDueBetween after limit).perform
      w ≠ (.error (.crash message), w') := by
    intro after limit
    show (struck (fun u : World => u.faults.storage .eventsDueBetween) _).perform w ≠ _
    apply struck_does_not_crash
    · cases v.closedDatabase <;> exact ⟨_, _, rfl⟩
    · exact hcrashless.storage _
  have hpublish : ∀ body, ((v.scheduler settings).broker.publish settings.publish body).perform
      w ≠ (.error (.crash message), w') := by
    intro body
    show (struck (fun u : World => u.faults.ofPublishing body) _).perform w ≠ _
    apply struck_does_not_crash
    · exact ⟨_, _, rfl⟩
    · exact hcrashless.ofPublishing body
  have hexpired : ∀ limit, ((v.scheduler settings).calendar.eventsBefore limit).perform
      w ≠ (.error (.crash message), w') := by
    intro limit
    show (struck (fun u : World => u.faults.storage .eventsBefore) _).perform w ≠ _
    apply struck_does_not_crash
    · cases v.closedDatabase <;> exact ⟨_, _, rfl⟩
    · exact hcrashless.storage _
  have hdelete : ∀ id, ((v.scheduler settings).calendar.deleteEvent id).perform
      w ≠ (.error (.crash message), w') := by
    intro id
    show (struck (fun u : World => u.faults.ofDeletion id) _).perform w ≠ _
    apply struck_does_not_crash
    · cases v.closedDatabase <;> exact ⟨_, _, rfl⟩
    · exact hcrashless.ofDeletion id
  intro h
  obtain ⟨after, limit, h⟩ | ⟨body, h⟩ | ⟨limit, h⟩ | ⟨id, h⟩ := Scheduler.stall_of_step _ h
  · exact hdue after limit h
  · exact hpublish body h
  · exact hexpired limit h
  · exact hdelete id h

/-- What the calls of a tick leave alone. -/
structure Unmoved (w v : World) : Prop where
  tasks : v.tasks = w.tasks
  schedulers : v.schedulers = w.schedulers
  faults : v.faults = w.faults

theorem keeps_scheduler_unmoved (v : World) (settings : Settings) (t : Tick) (stage : Stage)
    (w : World) : Keeps (Unmoved w) ((v.scheduler settings).step t stage) := by
  have hstorage : (storage v.closedDatabase).KeepsAll (Unmoved w) :=
    keepsAll_storage_of_memory (fun _ _ h => ⟨h.1, h.2, h.3⟩) _
  have hpublish : ∀ body, Keeps (Unmoved w) (client.publish settings.publish body) := fun body =>
    keeps_struck _ (Keeps.zoom_of_set (fun _ _ h => ⟨h.1, h.2, h.3⟩) _)
  exact Scheduler.keeps_step _ hstorage.eventsDueBetween hstorage.eventsBefore
    hstorage.deleteEvent hpublish t stage

/-! ## The alarms -/

/-- The clock cannot show a time so late. -/
theorem after?_eq_none {time wait : Nat} :
    w.after? time wait = none ↔ 9223372036854775808 ≤ (w.uptime + time + wait) / 1000 := by
  unfold after?
  split <;> simp <;> omega

/-- Somebody has asked the scheduler to end. -/
def asked (w : World) (cell : Nat) : Bool :=
  w.root.triggered || (w.schedulers[cell]?.map (·.stop.triggered)).getD false

theorem asked_eq {c : SchedulerCell} (hcell : w.schedulers[cell]? = some c) :
    w.asked cell = (w.root.triggered || c.stop.triggered) := by
  rw [asked, hcell]
  rfl

/-- A scheduler is to set its alarm, as it begins or as a tick does, and the clock cannot show
    the time. -/
def Overruns (w : World) (i interval : Nat) : Prop :=
  match (w.task? i).map Task.job with
  | some (.scheduler _ none none) => w.firstAlarm? interval = none
  | some (.scheduler cell (some due) none) =>
    w.asked cell = false ∧ due ≤ w.clock ∧ w.nextAlarm? due interval = none
  | _ => False

/-- Where that happens, the interval leads from the time that it is to one that the clock cannot
    show. -/
theorem Overruns.too_late {interval : Nat} (h : w.Overruns i interval) (hsome : interval ≠ 0) :
    9223372036854775808 ≤ (w.uptime + w.clock + interval) / 1000 := by
  unfold Overruns at h
  split at h
  · rw [firstAlarm?, if_neg hsome] at h
    exact after?_eq_none.mp h
  · obtain ⟨-, hdue, h⟩ := h
    unfold nextAlarm? at h
    split at h
    · exact after?_eq_none.mp h
    · -- The alarm that is due is no later than now.
      have hlate := after?_eq_none.mp (Option.or_eq_none_iff.mp h).1
      omega
  · exact h.elim

/-! ## Steps of the loop -/

/-- The settings of a scheduler. -/
def settings? (w : World) (cell : Nat) : Option Settings := w.schedulers[cell]?.map (·.settings)

/-- A task has crashed. -/
def Crashed (w : World) (i : Nat) : Prop := ∃ t, w.task? i = some t ∧ t.status = .ended .crashed

theorem not_crashed {t : Task} (htask : w.task? i = some t) (hstatus : t.status ≠ .ended .crashed) :
    ¬w.Crashed i := by
  rintro ⟨t', htask', hcrashed⟩
  obtain rfl := Option.some.inj (htask.symm.trans htask')
  exact hstatus hcrashed

/-- A task is the loop of a scheduler. -/
structure Loops (w : World) (i cell : Nat) (settings : Settings) : Prop where
  task : ∃ t alarm tick, w.task? i = some t ∧ t.job = .scheduler cell alarm tick
  settings : w.settings? cell = some settings
  crashless : w.faults.Crashless

theorem task?_finish {t : Task} (htask : w.task? i = some t) (how : Ending) :
    (w.finish i how).task? i = some { t with status := .ended how } := by
  rw [task?, tasks_finish, List.getElem?_modify_eq, ← task?, htask]
  rfl

theorem settings?_finish (how : Ending) : (w.finish i how).settings? cell = w.settings? cell := by
  obtain ⟨root, heq⟩ := w.finish_eq i how
  rw [heq]
  rfl

/-- What a scheduler remembers of its ticks is no setting. -/
theorem settings?_modify (w : World) (f : Scheduler.Tally → Scheduler.Tally) :
    settings? { w with
      schedulers := w.schedulers.modify cell fun c => { c with tally := f c.tally } } cell =
        w.settings? cell := by
  rw [settings?, List.getElem?_modify_eq]
  exact Option.map_map _ _ _

namespace Loops

variable {t t' : Task} {alarm : Option Nat} {tick : Option (Tick × Stage)}

/-- The loop goes on as long as its task is there with the job. -/
theorem next (h : w.Loops i cell settings) (hsettings : v.settings? cell = w.settings? cell)
    (hfaults : v.faults = w.faults) (htask : v.task? i = some t')
    (hjob : t'.job = .scheduler cell alarm tick) : v.Loops i cell settings where
  task := ⟨t', alarm, tick, htask, hjob⟩
  settings := hsettings.trans h.settings
  crashless := hfaults ▸ h.crashless

/-- The scheduler takes a step of its tick, and goes on or hangs. -/
theorem workOnTick (h : w.Loops i cell settings) (htask : w.task? i = some t)
    (hrunning : t.status = .running) (hjob : t.job = .scheduler cell alarm tick) (due : Option Nat)
    (under : Tick) (stage : Stage) :
    (w.workOnTick i cell settings due under stage).Loops i cell settings ∧
      ¬(w.workOnTick i cell settings due under stage).Crashed i := by
  unfold World.workOnTick
  extract_lets inside
  have hinside : Unmoved w inside := by
    simp only [inside]
    split <;> exact ⟨rfl, rfl, rfl⟩
  have hcrashless : inside.faults.Crashless := hinside.faults ▸ h.crashless
  have hkeeps := keeps_scheduler_unmoved w settings under stage inside inside ⟨rfl, rfl, rfl⟩
  rcases hperform : ((w.scheduler settings).step under stage).perform inside with ⟨answer, v⟩
  rw [hperform] at hkeeps
  have hstep : (w.scheduler settings).step under stage inside = (answer, v) := hperform
  rw [hstep]
  have htasks : v.tasks = w.tasks := hkeeps.tasks.trans hinside.tasks
  have hfaults : v.faults = w.faults := hkeeps.faults.trans hinside.faults
  have hsettings : v.settings? cell = w.settings? cell := by
    rw [settings?, hkeeps.schedulers, hinside.schedulers]
    rfl
  have htask' : v.task? i = some t := by rwa [task?, htasks]
  have hgoes : t.status ≠ .ended .crashed := by simp [hrunning]
  rcases answer with (message | -) | ⟨done, - | stage'⟩
  · exact (tick_does_not_crash hcrashless hperform).elim
  · have hnew : (v.block i).task? i = some { t with status := .stuck } := by
      rw [block, task?_setTask, if_pos rfl, htask']
      rfl
    exact ⟨h.next hsettings hfaults hnew hjob, not_crashed hnew (by simp)⟩
  · have hnew := task?_setJob htask' (.scheduler cell due none)
    have htally := (settings?_modify v done.recorded).trans hsettings
    exact ⟨h.next htally hfaults hnew rfl, not_crashed hnew hgoes⟩
  · have hnew := task?_setJob htask' (.scheduler cell due (some (done, stage')))
    exact ⟨h.next hsettings hfaults hnew rfl, not_crashed hnew hgoes⟩

/-- So it does if it has to wait for others. -/
theorem stepTick (h : w.Loops i cell settings) (htask : w.task? i = some t)
    (hrunning : t.status = .running) (hjob : t.job = .scheduler cell alarm tick) {due : Option Nat}
    {under : Tick} {stage : Stage} (hstep : w.stepTick i cell settings due under stage = some w') :
    w'.Loops i cell settings ∧ ¬w'.Crashed i := by
  unfold World.stepTick at hstep
  split at hstep
  · cases hstep
    exact h.workOnTick htask hrunning hjob ..
  · split at hstep
    · cases hstep
      exact h.workOnTick htask hrunning hjob ..
    · split at hstep
      · cases hstep
      · cases hstep
        exact ⟨h.next rfl rfl htask hjob, not_crashed htask (by simp [hrunning])⟩

theorem scheduler_of_stepTask (htask : w.task? i = some t)
    (hjob : t.job = .scheduler cell alarm tick) (hstep : w.stepTask i = some w') :
    t.status = .running ∧ w.stepScheduler i cell alarm tick = some w' := by
  obtain ⟨job, supervised, status⟩ := t
  obtain rfl : job = .scheduler cell alarm tick := hjob
  simp only [World.stepTask, htask, Option.bind_eq_bind, Option.bind_some] at hstep
  cases status with
  | running => exact ⟨rfl, hstep⟩
  | _ => simp [Task.isRunning] at hstep

/-- A step crashes the scheduler exactly where it is to set its alarm and the clock cannot show
    it. -/
theorem stepTask (h : w.Loops i cell settings) (hstep : w.stepTask i = some w') :
    w'.Loops i cell settings ∧ (w'.Crashed i ↔ w.Overruns i settings.interval) := by
  obtain ⟨t, alarm, tick, htask, hjob⟩ := h.task
  obtain ⟨c, hcell, hsettings⟩ := Option.map_eq_some_iff.mp h.settings
  obtain ⟨hrunning, hloop⟩ := scheduler_of_stepTask htask hjob hstep
  have hjob? : (w.task? i).map Task.job = some (.scheduler cell alarm tick) := by
    rw [htask, ← hjob]
    rfl
  simp only [stepScheduler, hcell, Option.bind_eq_bind, Option.bind_some, hsettings] at hloop
  -- It goes on with an alarm or a tick, or it ends.
  have hset : ∀ alarm tick, (w.setJob i (.scheduler cell alarm tick)).Loops i cell settings ∧
      ¬(w.setJob i (.scheduler cell alarm tick)).Crashed i := by
    intro alarm tick
    have hnew := task?_setJob htask (.scheduler cell alarm tick)
    exact ⟨h.next rfl rfl hnew rfl, not_crashed hnew (by simp [hrunning])⟩
  have hfinish : ∀ how, (w.finish i how).Loops i cell settings := fun how =>
    h.next (settings?_finish how) (w.faults_finish i how) (task?_finish htask how) hjob
  unfold Overruns
  rw [hjob?]
  rcases tick with - | ⟨under, stage⟩
  · rcases alarm with - | due
    · simp only at hloop ⊢
      split at hloop
      · next halarm =>
        cases hloop
        exact ⟨(hset _ _).1, iff_of_false (hset _ _).2 (by simp [halarm])⟩
      · next halarm =>
        cases hloop
        exact ⟨hfinish _, iff_of_true ⟨_, task?_finish htask _, rfl⟩ halarm⟩
    · simp only [asked_eq hcell] at hloop ⊢
      split at hloop
      · next hasked =>
        cases hloop
        have hended := not_crashed (task?_finish htask .clean) (by simp)
        exact ⟨hfinish _, iff_of_false hended (by simp [hasked])⟩
      · next hnobody =>
        split at hloop
        · next hdue =>
          split at hloop
          · next hnext =>
            cases hloop
            exact ⟨(hset _ _).1, iff_of_false (hset _ _).2 (by simp [hnext])⟩
          · next hnext =>
            cases hloop
            have hasked : (w.root.triggered || c.stop.triggered) = false := by simpa using hnobody
            exact ⟨hfinish _, iff_of_true ⟨_, task?_finish htask _, rfl⟩ ⟨hasked, hdue, hnext⟩⟩
        · cases hloop
  · -- A tick is under way, and no alarm to be set.
    obtain ⟨hloops, hnot⟩ := h.stepTick htask hrunning hjob hloop
    exact ⟨hloops, iff_of_false hnot (by cases alarm <;> exact id)⟩

end Loops

/-! ## Runs of the loop -/

/-- A task is the loop of a scheduler that is about to begin. -/
structure Begins (w : World) (i cell : Nat) (settings : Settings) : Prop where
  task : ∃ t, w.task? i = some t ∧ t.job = .scheduler cell none none ∧ t.isRunning = true
  settings : w.settings? cell = some settings
  crashless : w.faults.Crashless

/-- What others may do to the world of a scheduler: anything but work on its task, which they can
    abort before it ends, change its settings, or let calls crash. The time passes. -/
structure Beside (w : World) (i cell : Nat) (v : World) : Prop where
  task : v.task? i = w.task? i ∨ ∃ t, w.task? i = some t ∧ (∀ how, t.status ≠ .ended how) ∧
    v.task? i = some { t with status := .aborted }
  settings : v.settings? cell = w.settings? cell
  crashless : v.faults.Crashless

/-- Steps of a scheduler, and whatever others do between them. The list holds the worlds from
    which it made its steps. -/
inductive Goes (i cell : Nat) (w : World) : List World → World → Prop
  | start : Goes i cell w [] w
  | step {steps : List World} {v v' : World} (h : Goes i cell w steps v)
      (hstep : v.stepTask i = some v') : Goes i cell w (steps ++ [v]) v'
  | others {steps : List World} {v v' : World} (h : Goes i cell w steps v)
      (hothers : v.Beside i cell v') : Goes i cell w steps v'

theorem Begins.loops (h : w.Begins i cell settings) : w.Loops i cell settings := by
  obtain ⟨t, htask, hjob, -⟩ := h.task
  exact ⟨⟨t, none, none, htask, hjob⟩, h.settings, h.crashless⟩

theorem Begins.not_crashed (h : w.Begins i cell settings) : ¬w.Crashed i := by
  obtain ⟨t, htask, -, hrunning⟩ := h.task
  refine World.not_crashed htask fun hstatus => ?_
  simp [Task.isRunning, hstatus] at hrunning

/-- Others keep the loop, and a task that has crashed stays as it is. -/
theorem Beside.keeps (hothers : w.Beside i cell v) (h : w.Loops i cell settings) :
    v.Loops i cell settings ∧ (v.Crashed i ↔ w.Crashed i) := by
  obtain ⟨t, alarm, tick, htask, hjob⟩ := h.task
  have hsettings := hothers.settings.trans h.settings
  rcases hothers.task with hsame | ⟨t', htask', hended, haborted⟩
  · refine ⟨⟨⟨t, alarm, tick, hsame.trans htask, hjob⟩, hsettings, hothers.crashless⟩, ?_⟩
    rw [Crashed, Crashed, hsame]
  · obtain rfl := Option.some.inj (htask.symm.trans htask')
    exact ⟨⟨⟨_, alarm, tick, haborted, hjob⟩, hsettings, hothers.crashless⟩,
      iff_of_false (not_crashed haborted (by simp)) (not_crashed htask (hended _))⟩

/-- A task that has crashed makes no step. -/
theorem stepTask_crashed (h : w.Crashed i) : w.stepTask i = none := by
  obtain ⟨t, htask, hstatus⟩ := h
  simp [stepTask, htask, Task.isRunning, hstatus]

/-- The scheduler has crashed exactly if it has made a step at which it was to set its alarm and
    the clock could not show it. -/
theorem Goes.crashed_iff {steps : List World} (hgoes : Goes i cell w steps v)
    (h : w.Begins i cell settings) :
    v.Loops i cell settings ∧
      (v.Crashed i ↔ ∃ u ∈ steps, u.Overruns i settings.interval) := by
  induction hgoes with
  | start => exact ⟨h.loops, iff_of_false h.not_crashed (by simp)⟩
  | @step steps v v' hgoes hstep ih =>
      obtain ⟨hloops, hiff⟩ := ih
      obtain ⟨hloops', hiff'⟩ := hloops.stepTask hstep
      -- Nobody who has crashed gets here.
      have hnever : ¬∃ u ∈ steps, u.Overruns i settings.interval := by
        rw [← hiff]
        intro hcrashed
        simp [stepTask_crashed hcrashed] at hstep
      refine ⟨hloops', hiff'.trans ?_⟩
      simp only [List.mem_append, List.mem_singleton, or_and_right, exists_or, exists_eq_left,
        hnever, false_or]
  | others hgoes hothers ih =>
      obtain ⟨hloops, hiff⟩ := ih
      obtain ⟨hloops', hsame⟩ := hothers.keeps hloops
      exact ⟨hloops', hsame.trans hiff⟩

end World

/-! ## Validated configurations -/

/-- The scheduler of a validated configuration crashes exactly where it is to set its alarm and the
    clock cannot show it. It does not as long as the interval does not lead out of 63 bits of
    seconds. -/
theorem validated_scheduler_crashes_iff {c : Config} (hvalid : c.validate = .ok ()) :
    ∃ settings, c.supervisorSettings = .ok settings ∧
      ∀ (i cell : Nat) (w v : World) (steps : List World),
        w.Begins i cell settings.scheduler → World.Goes i cell w steps v →
          (v.Crashed i ↔ ∃ u ∈ steps, u.Overruns i (c.scheduler.intervalSeconds * 1000)) ∧
          ((∀ u ∈ steps,
              (u.uptime + u.clock) / 1000 + c.scheduler.intervalSeconds < 9223372036854775808) →
            ¬v.Crashed i) := by
  obtain ⟨settings, hsettings, -⟩ := Config.settings_of_validate hvalid
  refine ⟨settings, hsettings, fun i cell w v steps hbegins hgoes => ?_⟩
  have hsome := Config.interval_of_validate hvalid
  have hinterval : settings.scheduler.interval = c.scheduler.intervalSeconds * 1000 :=
    congrArg Settings.interval (Config.scheduler_of_supervisorSettings hsettings)
  have hiff := (hgoes.crashed_iff hbegins).2
  rw [hinterval] at hiff
  refine ⟨hiff, fun hfits hcrashed => ?_⟩
  obtain ⟨u, hu, hoverruns⟩ := hiff.mp hcrashed
  have hlate := hoverruns.too_late (by omega)
  have hshown := hfits u hu
  omega

/-- A world with nothing but a scheduler that is about to begin. -/
def loopStart (settings : Settings) : World :=
  (World.addScheduler { wall := Instant.first } settings).runScheduler 0

theorem loopStart_begins (settings : Settings) : (loopStart settings).Begins 0 0 settings where
  task := ⟨_, rfl, rfl, rfl⟩
  settings := rfl
  crashless := ⟨fun _ => nofun, fun _ => nofun, fun _ => nofun⟩

/-- The scheduler of the default configuration is about to begin. -/
def defaultStart : World := loopStart (settingsWith {}).scheduler

/-- It waits for its first tick. -/
def defaultWaits : World := defaultStart.setJob 0 (.scheduler 0 (some 1000) none)

/-- The tick is due. -/
def defaultDue : World := { defaultWaits with clock := 1000 }

/-- The tick begins, and nothing crashes. -/
theorem defaultScheduler_ticks :
    ({} : Config).validate = .ok () ∧
      ∃ v tick, World.Goes 0 0 defaultStart [defaultStart, defaultDue] v ∧
        v.task? 0 = some { job := .scheduler 0 (some 2000) (some (tick, .selectingDue)) } ∧
        ¬v.Crashed 0 := by
  have hbegins : defaultStart.Begins 0 0 (settingsWith {}).scheduler := loopStart_begins _
  have hticks : ∃ v tick, defaultDue.stepTask 0 = some v ∧
      v.task? 0 = some { job := .scheduler 0 (some 2000) (some (tick, .selectingDue)) } :=
    ⟨_, _, rfl, rfl⟩
  obtain ⟨v, tick, hstep, htask⟩ := hticks
  have hwaits : World.Goes 0 0 defaultStart [defaultStart] defaultWaits := .step .start rfl
  have hdue : World.Goes 0 0 defaultStart [defaultStart] defaultDue :=
    .others hwaits ⟨Or.inl rfl, rfl, hbegins.crashless⟩
  have hgoes : World.Goes 0 0 defaultStart [defaultStart, defaultDue] v := .step hdue hstep
  obtain ⟨settings, hsettings, hcrashes⟩ := validated_scheduler_crashes_iff (c := {}) rfl
  obtain rfl := Except.ok.inj ((supervisorSettings_with {}).symm.trans hsettings)
  refine ⟨rfl, v, tick, hgoes, htask, (hcrashes 0 0 _ v _ hbegins hgoes).2 ?_⟩
  have hshown : ∀ clock ∈ [0, 1000], (86400000 + clock) / 1000 + 1 < 9223372036854775808 := by
    decide
  intro u hu
  rcases List.mem_pair.mp hu with rfl | rfl
  · exact hshown 0 (by decide)
  · exact hshown 1000 (by decide)

/-- A configuration with an interval of as many seconds as 63 bits hold. -/
def patientConfig : Config := { scheduler := { intervalSeconds := 9223372036854775807 } }

/-- It is accepted, and its scheduler crashes as it begins. -/
theorem patientScheduler_crashes :
    patientConfig.validate = .ok () ∧
      ∃ settings v, patientConfig.supervisorSettings = .ok settings ∧
        (loopStart settings.scheduler).stepTask 0 = some v ∧ v.Crashed 0 := by
  have hvalid : patientConfig.validate = .ok () := rfl
  obtain ⟨settings, hsettings, -⟩ := Config.settings_of_validate hvalid
  have hscheduler := Config.scheduler_of_supervisorSettings hsettings
  have hstep : (loopStart patientConfig.schedulerSettings).stepTask 0 =
      some ((loopStart patientConfig.schedulerSettings).finish 0 .crashed) := rfl
  refine ⟨hvalid, settings, _, hsettings, hscheduler ▸ hstep, ?_⟩
  exact ⟨_, rfl, rfl⟩

end Rehearsal

end Almanac
