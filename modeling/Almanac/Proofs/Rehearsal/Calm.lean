/-
  Almanac.Proofs.Rehearsal.Calm

  What the tasks of a rehearsal leave alone. The calls of a scheduler or a sender are calm: they
  do not touch the tasks, the shutdown signal or the faults, and they neither connect nor
  disconnect the broker. So a step of a task that is no supervisor changes the entry of that
  task, and sets off the shutdown signal if the task ends badly, and that is all that others
  can notice (`stepTask_cases`).
-/
import Almanac.Proofs.Rehearsal.Reliable
import Almanac.Proofs.Rehearsal.Tasks
import Almanac.Proofs.Sender

namespace Almanac.Rehearsal

open Storage (Keeps)
open Supervisor (Ending)

/-- What does not change when somebody uses the storage or the broker. -/
structure Calm (w w' : World) : Prop where
  tasks : w'.tasks = w.tasks
  root : w'.root = w.root
  faults : w'.faults = w.faults
  connected : w'.broker.connected = w.broker.connected

namespace Calm

variable {w v : World}

theorem refl (w : World) : Calm w w := ⟨rfl, rfl, rfl, rfl⟩

theorem trans {u : World} (h : Calm w v) (h' : Calm v u) : Calm w u where
  tasks := h'.tasks.trans h.tasks
  root := h'.root.trans h.root
  faults := h'.faults.trans h.faults
  connected := h'.connected.trans h.connected

theorem task? (h : Calm w v) (j : Nat) : v.task? j = w.task? j := by
  rw [World.task?, World.task?, h.tasks]

/-- The gate is nothing of theirs. -/
theorem gate (w : World) (gate : Gate) : Calm w { w with gate } := ⟨rfl, rfl, rfl, rfl⟩

end Calm

namespace World

variable {w w' : World} {j : Nat}

/-! ## Calm calls -/

/-- The storage changes nothing but what is stored. -/
theorem keepsAll_storage_of_memory {good : World → Prop}
    (h : ∀ memory w, good w → good { w with memory }) (closed : Bool) :
    (storage closed).KeepsAll good := by
  refine keepsAll_faulty World.faults ?_
  cases closed with
  | true => exact Storage.keepsAll_closedDatabase _
  | false => exact Storage.keepsAll_zoom_of_set _ h

theorem keepsAll_storage_calm (closed : Bool) (w : World) :
    (storage closed).KeepsAll (Calm w) :=
  keepsAll_storage_of_memory (fun _ _ h => ⟨h.1, h.2, h.3, h.4⟩) closed

/-- A call of the broker that is neither a start nor a stop. -/
theorem keeps_broker_calm {α : Type} (f : Broker.State Bytes → α × Broker.State Bytes)
    (hf : ∀ b, (f b).2.connected = b.connected) (w : World) :
    Keeps (Calm w)
      (Action.zoom World.broker (fun b v => { v with broker := b }) (Action.update f)) :=
  fun v h => ⟨h.tasks, h.root, h.faults, (hf v.broker).trans h.connected⟩

theorem keeps_publish (settings : Broker.PublishSettings) (body : Bytes) (w : World) :
    Keeps (Calm w) (client.publish settings body) :=
  keeps_struck _ (keeps_broker_calm (·.publish settings body)
    (fun b => b.connected_perform (.publish settings body)) w)

theorem keeps_consume (settings : Broker.ConsumeSettings) (w : World) :
    Keeps (Calm w) (client.consume settings) :=
  keeps_struck _ (keeps_broker_calm (·.consume settings)
    (fun b => b.connected_perform (.consume settings)) w)

theorem keeps_receive (c : Broker.Consumer) (w : World) : Keeps (Calm w) (client.receive c) :=
  keeps_broker_calm (·.receive c) (fun b => b.connected_perform (.receive c)) w

theorem keeps_ack (tag : Nat) (multiple : Bool) (w : World) :
    Keeps (Calm w) (client.ack tag multiple) :=
  keeps_broker_calm (·.ack tag multiple) (fun b => b.connected_perform (.ack tag multiple)) w

theorem keeps_drop (c : Broker.Consumer) (w : World) : Keeps (Calm w) (client.drop c) :=
  keeps_broker_calm (fun b => ((), b.drop c)) (fun b => b.connected_drop c) w

theorem keeps_scheduler (v : World) (settings : Scheduler.Settings) (tick : Scheduler.Tick)
    (stage : Scheduler.Stage) (w : World) :
    Keeps (Calm w) ((v.scheduler settings).step tick stage) :=
  have hstorage := keepsAll_storage_calm v.closedDatabase w
  Scheduler.keeps_step _ hstorage.eventsDueBetween hstorage.eventsBefore hstorage.deleteEvent
    (fun body => keeps_publish settings.publish body w) tick stage

/-- The sender of a task, over the broker of the world. -/
def sender (cell : Nat) (settings : Broker.ConsumeSettings) : Sender World where
  settings
  broker := client
  stopRequested := Action.look fun w =>
    w.root.triggered || (w.senders[cell]?.map (·.stop.triggered)).getD false

theorem keeps_sender (cell : Nat) (settings : Broker.ConsumeSettings) (t : Sender.Tally)
    (stage : Sender.Stage) (w : World) : Keeps (Calm w) ((sender cell settings).step t stage) :=
  Sender.keeps_step _ (keeps_consume settings w) (fun c => keeps_receive c w)
    (fun tag => keeps_ack tag false w) (fun c => keeps_drop c w) (.look _ _) t stage

/-! ## The effect of a step -/

/-- What a step of a task that is no supervisor does to the tasks. -/
inductive Effect (w : World) (j : Nat) : World → Prop
  | none {v : World} (hcalm : Calm w v) : Effect w j v
  | goesOn {v : World} {job : Job} (hcalm : Calm w v) (hleaf : job.isLeaf = true) :
      Effect w j (v.setJob j job)
  | hangs {v : World} (hcalm : Calm w v) : Effect w j (v.block j)
  | ends {v : World} {how : Ending} (hcalm : Calm w v) : Effect w j (v.finish j how)
  | leaves {v : World} {job : Job} {how : Ending} (hcalm : Calm w v)
      (hleaf : job.isLeaf = true) : Effect w j ((v.setJob j job).finish j how)

/-- An effect after something calm. -/
theorem Effect.of_calm {v : World} (hcalm : Calm w v) (h : Effect v j w') : Effect w j w' := by
  cases h with
  | none h => exact .none (hcalm.trans h)
  | goesOn h hleaf => exact .goesOn (hcalm.trans h) hleaf
  | hangs h => exact .hangs (hcalm.trans h)
  | ends h => exact .ends (hcalm.trans h)
  | leaves h hleaf => exact .leaves (hcalm.trans h) hleaf

/-- An effect leaves the other tasks as they were. -/
theorem Effect.alike {t : Task} (htask : w.task? j = some t) (hleaf : t.job.isLeaf = true)
    (h : Effect w j w') : Alike w w' := by
  have hold : ∀ v, Calm w v → ∀ t', v.task? j = some t' → t'.job.isLeaf = true := by
    intro v hcalm t' htask'
    rw [hcalm.task? j, htask] at htask'
    rwa [← Option.some.inj htask']
  cases h with
  | none hcalm => exact .of_tasks hcalm.tasks
  | goesOn hcalm hnew => exact (Alike.of_tasks hcalm.tasks).trans (.setJob (hold _ hcalm) hnew)
  | hangs hcalm => exact (Alike.of_tasks hcalm.tasks).trans (.block _ j)
  | ends hcalm => exact (Alike.of_tasks hcalm.tasks).trans (.finish _ j _)
  | leaves hcalm hnew =>
      exact ((Alike.of_tasks hcalm.tasks).trans (.setJob (hold _ hcalm) hnew)).trans
        (.finish _ j _)

theorem effect_of_workOnTick (w : World) (j cell : Nat) (settings : Scheduler.Settings)
    (alarm : Option Nat) (tick : Scheduler.Tick) (stage : Scheduler.Stage) :
    Effect w j (w.workOnTick j cell settings alarm tick stage) := by
  unfold workOnTick
  extract_lets inside
  have hinside : Calm w inside := by
    simp only [inside]
    split
    · exact .gate w _
    · exact .refl w
  refine .of_calm hinside ?_
  have hkeeps := keeps_scheduler w settings tick stage inside inside (.refl inside)
  rcases hperform : ((w.scheduler settings).step tick stage).perform inside with ⟨answer, v⟩
  rw [hperform] at hkeeps
  have hstep : (w.scheduler settings).step tick stage inside = (answer, v) := hperform
  rw [hstep]
  match answer with
  | .ok (tick', some stage') =>
      exact .goesOn (v := { v with gate := v.gate.leave (.task j) })
        (hkeeps.trans (.gate v _)) rfl
  | .ok (tick', none) =>
      let u : World := { v with
        schedulers := v.schedulers.modify cell fun c => { c with tally := tick'.recorded c.tally }
        gate := v.gate.leave (.task j) }
      exact .goesOn (v := u) (hkeeps.trans ⟨rfl, rfl, rfl, rfl⟩) rfl
  | .error .never => exact .hangs hkeeps
  | .error (.crash _) => exact .ends hkeeps

theorem effect_of_stepScheduler {cell : Nat} {alarm : Option Nat}
    {tick : Option (Scheduler.Tick × Scheduler.Stage)}
    (h : w.stepScheduler j cell alarm tick = some w') : Effect w j w' := by
  unfold stepScheduler at h
  obtain ⟨c, -, h⟩ := Option.bind_eq_some_iff.mp h
  match tick, alarm with
  | some (tick, stage), alarm =>
      simp only [stepTick] at h
      split at h
      · cases h
        exact effect_of_workOnTick ..
      · split at h
        · cases h
          exact effect_of_workOnTick ..
        · split at h
          · cases h
          · cases h
            exact .none (.gate w _)
  | none, none =>
      simp only at h
      split at h
      · cases h
        exact .goesOn (.refl w) rfl
      · cases h
        exact .ends (.refl w)
  | none, some due =>
      simp only at h
      split at h
      · cases h
        exact .ends (.refl w)
      · split at h
        · split at h
          · cases h
            exact .goesOn (.refl w) rfl
          · cases h
            exact .ends (.refl w)
        · cases h

theorem effect_of_stepSender {cell : Nat} {stage : Sender.Stage}
    (h : w.stepSender j cell stage = some w') : Effect w j w' := by
  unfold stepSender at h
  obtain ⟨c, -, h⟩ := Option.bind_eq_some_iff.mp h
  have hkeeps := keeps_sender cell c.settings c.tally stage w w (.refl w)
  rcases hperform : ((sender cell c.settings).step c.tally stage).perform w with ⟨answer, v⟩
  rw [hperform] at hkeeps
  have hstep : (sender cell c.settings).step c.tally stage w = (answer, v) := hperform
  simp only [sender] at hstep
  simp only [hstep] at h
  match answer with
  | .ok .waits => cases h
  | .ok (.moved tally next) =>
      let u : World :=
        { v with senders := v.senders.modify cell fun c => { c with tally } }
      have hcalm : Calm w u := hkeeps.trans ⟨rfl, rfl, rfl, rfl⟩
      have hleaf : (Job.sender cell next).isLeaf = true := rfl
      match next with
      | .ended (.ok ()) => cases h; exact .leaves hcalm hleaf
      | .ended (.error _) => cases h; exact .leaves hcalm hleaf
      | .registering => cases h; exact .goesOn hcalm hleaf
      | .consuming _ => cases h; exact .goesOn hcalm hleaf
  | .error .never => cases h; exact .hangs hkeeps
  | .error (.crash _) => cases h; exact .ends hkeeps

/-- A task that makes a step is running, and the step is one of these. -/
theorem stepTask_cases (h : w.stepTask j = some w') :
    ∃ t, w.task? j = some t ∧ t.isRunning = true ∧
      ((t.job.isLeaf = true ∧ Effect w j w') ∨
        ∃ run, t.job = .supervisor run ∧ w.stepSupervisor j run = some w') := by
  unfold stepTask at h
  obtain ⟨t, htask, h⟩ := Option.bind_eq_some_iff.mp h
  split at h
  · cases h
  · next hrunning =>
    refine ⟨t, htask, by simpa using hrunning, ?_⟩
    cases hjob : t.job with
    | server asked =>
        rw [hjob] at h
        simp only at h
        split at h
        · cases h
          exact Or.inl ⟨rfl, .ends (.refl w)⟩
        · cases h
    | scheduler cell alarm tick =>
        rw [hjob] at h
        exact Or.inl ⟨rfl, effect_of_stepScheduler h⟩
    | sender cell stage =>
        rw [hjob] at h
        exact Or.inl ⟨rfl, effect_of_stepSender h⟩
    | supervisor run =>
        rw [hjob] at h
        exact Or.inr ⟨run, rfl, h⟩

end World

end Almanac.Rehearsal
