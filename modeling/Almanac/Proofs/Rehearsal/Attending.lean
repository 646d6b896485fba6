/-
  Almanac.Proofs.Rehearsal.Attending

  The steps of the components of a supervisor that runs alone. A server does not touch the broker;
  what the scheduler publishes joins the messages that wait for the sender; the sender becomes the
  consumer of the queue, takes what waits there in order, and leaves when it is told to. So every
  step of every task leaves the queue tended, unless the sender leaves, and it does that only
  after the signal (`Tended.stepTask`).
-/
import Almanac.Proofs.Rehearsal.Tended

namespace Almanac.Rehearsal

open Service (Component)
open Supervisor (Ending Settings)

variable {s : Settings} {w w' v : World} {run : Run} {c : Component} {j : Nat} {t : Task}

/-! ## Servers -/

namespace Staffed

/-- A run that has started somebody has a queue for its sender. -/
theorem placed_iff (h : Staffed s w run) (hmem : (c, j) ∈ run.children) {name : String} :
    Placed name v run ↔ ∃ waiting, v.Awaits name waiting := by
  have hne : run.children ≠ [] := List.ne_nil_of_mem hmem
  have hfits := h.fits
  unfold Placed
  unfold Run.Fits at hfits
  cases hphase : run.phase with
  | starting | declaring | binding _ | abandoning _ =>
      simp only [hphase] at hfits
      exact (hne hfits).elim
  | spawning _ | watching | closing _ _ _ => exact Iff.rfl
  | ended outcome => exact (hne (h.ended outcome hphase)).elim

/-- A server ends. -/
theorem tended_finish (h : Staffed s w run) (hplaced : Placed s.queue.name w run)
    (hmem : (c, j) ∈ run.children) (hc : c ≠ .sender) (how : Ending) :
    Tended s (w.finish j how) :=
  have hframe := frame_finish h.run? j how
  h.tended hplaced hframe (h.member?_modify hmem hc (w.tasks_finish j how))
    (w.broker_finish j how)

end Staffed

/-! ## The scheduler -/

/-- What a call of the scheduler leaves: the queue keeps its messages for whoever listened
    before, and nothing else changes but what is stored. -/
structure Beside (name : String) (w v : World) : Prop where
  tasks : v.tasks = w.tasks
  root : v.root = w.root
  faults : v.faults = w.faults
  schedulers : v.schedulers = w.schedulers
  senders : v.senders = w.senders
  attends : ∃ waiting, v.broker.Attends name w.listener? waiting

/-- Publishing over the default exchange reaches the queue. -/
def Reaches (s : Settings) : Prop :=
  s.scheduler.publish.exchange = "" → s.scheduler.publish.routingKey = s.queue.name

namespace World

theorem keeps_publish_beside (hreaches : Reaches s) (body : Bytes) (w : World) :
    Storage.Keeps (Beside s.queue.name w) (client.publish s.scheduler.publish body) := by
  refine keeps_struck _ fun v h => ?_
  obtain ⟨waiting, hattends⟩ := h.attends
  refine ⟨h.tasks, h.root, h.faults, h.schedulers, h.senders, ?_⟩
  show ∃ waiting, (v.broker.publish s.scheduler.publish body).2.Attends _ _ waiting
  by_cases hexchange : s.scheduler.publish.exchange = ""
  · exact ⟨_, (hattends.publish hexchange (hreaches hexchange) body).2⟩
  · rw [hattends.publish_elsewhere hexchange body]
    exact ⟨waiting, hattends⟩

theorem keeps_scheduler_beside (hreaches : Reaches s) (u : World) (tick : Scheduler.Tick)
    (stage : Scheduler.Stage) (w : World) :
    Storage.Keeps (Beside s.queue.name w) ((u.scheduler s.scheduler).step tick stage) :=
  have hstorage : (storage u.closedDatabase).KeepsAll (Beside s.queue.name w) :=
    keepsAll_storage_of_memory
      (fun _ _ h => ⟨h.tasks, h.root, h.faults, h.schedulers, h.senders, h.attends⟩) _
  Scheduler.keeps_step _ hstorage.eventsDueBetween hstorage.eventsBefore hstorage.deleteEvent
    (fun body => keeps_publish_beside hreaches body w) tick stage

end World

namespace Staffed

variable {waiting : List (Broker.Message Bytes)}

/-- The task of a component that is not the sender has changed, after something that happened
    beside it. -/
theorem tended_beside (h : Staffed s w run) (hmem : (c, j) ∈ run.children) (hc : c ≠ .sender)
    (hbeside : Beside s.queue.name w v) {f : Task → Task}
    (htasks : w'.tasks = v.tasks.modify j f)
    (hjob : ∀ t, w.task? j = some t →
      (f t).job = t.job ∨ t.job.isLeaf = true ∧ ∀ c, run.Employs c t.job → run.Employs c (f t).job)
    (hbroker : w'.broker = v.broker)
    (hroot : v.root.triggered = true → w'.root.triggered = true) (hfaults : w'.faults = v.faults)
    (hsenders : w'.senders = v.senders)
    (hschedulers : ∀ x, v.schedulers[run.scheduler]? = some x →
      ∃ x', w'.schedulers[run.scheduler]? = some x' ∧ x'.settings = x.settings) :
    Tended s w' := by
  have htasks' : w'.tasks = w.tasks.modify j f := by rw [htasks, hbeside.tasks]
  have hframe : Frame run w w' := by
    refine .of_modify h.run? htasks' hjob ?_ ?_ ?_ ?_
    · rwa [hbeside.root] at hroot
    · rw [hfaults, hbeside.faults]
    · rwa [hbeside.schedulers] at hschedulers
    · rw [hsenders, hbeside.senders]
      exact fun x hx => ⟨x, hx, rfl, Or.inl⟩
  have hsender := h.member?_modify hmem hc htasks'
  obtain ⟨waiting, hattends⟩ := hbeside.attends
  refine ⟨run, hframe.staffed h (World.senderStays_congr hsender h.stays),
    (h.placed_iff hmem).mpr ⟨waiting, ?_⟩⟩
  rw [World.Awaits, World.listener?, hsender, hbroker]
  exact hattends

variable {alarm : Option Nat} {tick : Scheduler.Tick} {stage : Scheduler.Stage}

/-- What a scheduler does is what it did, at some point. -/
theorem scheduler_goes_on (htask : w.task? j = some t)
    {tick : Option (Scheduler.Tick × Scheduler.Stage)}
    (hjob : t.job = .scheduler run.scheduler alarm tick) (alarm' : Option Nat)
    (tick' : Option (Scheduler.Tick × Scheduler.Stage)) :
    ∀ t', w.task? j = some t' →
      ({ t' with job := .scheduler run.scheduler alarm' tick' } : Task).job = t'.job ∨
        t'.job.isLeaf = true ∧ ∀ c, run.Employs c t'.job →
          run.Employs c (.scheduler run.scheduler alarm' tick') := by
  intro t' htask'
  obtain rfl := Option.some.inj (htask.symm.trans htask')
  rw [hjob]
  refine Or.inr ⟨rfl, fun c hemploys => ?_⟩
  cases c <;> exact hemploys

/-- The scheduler works on a tick. -/
theorem tended_workOnTick (h : Staffed s w run) (hreaches : Reaches s)
    (hawaits : w.Awaits s.queue.name waiting) (hmem : (.scheduler, j) ∈ run.children)
    (htask : w.task? j = some t)
    (hjob : t.job = .scheduler run.scheduler alarm (some (tick, stage))) :
    Tended s (w.workOnTick j run.scheduler s.scheduler alarm tick stage) := by
  unfold World.workOnTick
  extract_lets inside
  have hinside : Beside s.queue.name w inside := by
    simp only [inside]
    split
    · exact ⟨rfl, rfl, rfl, rfl, rfl, waiting, hawaits⟩
    · exact ⟨rfl, rfl, rfl, rfl, rfl, waiting, hawaits⟩
  have hkeeps := World.keeps_scheduler_beside hreaches w tick stage w inside hinside
  rcases hperform : ((w.scheduler s.scheduler).step tick stage).perform inside with ⟨answer, v⟩
  rw [hperform] at hkeeps
  have hstep : (w.scheduler s.scheduler).step tick stage inside = (answer, v) := hperform
  rw [hstep]
  have hc : Component.scheduler ≠ .sender := by decide
  match answer with
  | .ok (tick', some stage') =>
      exact h.tended_beside hmem hc hkeeps rfl (scheduler_goes_on htask hjob _ _) rfl id rfl rfl
        fun x hx => ⟨x, hx, rfl⟩
  | .ok (tick', none) =>
      refine h.tended_beside hmem hc hkeeps rfl (scheduler_goes_on htask hjob _ _) rfl id rfl rfl
        fun x hx => ⟨{ x with tally := tick'.recorded x.tally }, ?_, rfl⟩
      simp [hx]
  | .error .never =>
      exact h.tended_beside hmem hc hkeeps rfl (fun _ _ => Or.inl rfl) rfl id rfl rfl
        fun x hx => ⟨x, hx, rfl⟩
  | .error (.crash _) =>
      exact h.tended_beside hmem hc hkeeps rfl (fun _ _ => Or.inl rfl) rfl id rfl rfl
        fun x hx => ⟨x, hx, rfl⟩

/-- A step of the loop of the scheduler. -/
theorem tended_stepScheduler (h : Staffed s w run) (hreaches : Reaches s)
    (hawaits : w.Awaits s.queue.name waiting) (hmem : (.scheduler, j) ∈ run.children)
    (htask : w.task? j = some t) {tick : Option (Scheduler.Tick × Scheduler.Stage)}
    (hjob : t.job = .scheduler run.scheduler alarm tick)
    (hstep : w.stepScheduler j run.scheduler alarm tick = some w') : Tended s w' := by
  obtain ⟨x, hx, hsettings⟩ := h.scheduler
  have hplaced : Placed s.queue.name w run := (h.placed_iff hmem).mpr ⟨waiting, hawaits⟩
  have hc : Component.scheduler ≠ .sender := by decide
  have hbeside : Beside s.queue.name w w := ⟨rfl, rfl, rfl, rfl, rfl, waiting, hawaits⟩
  unfold World.stepScheduler at hstep
  rw [hx, Option.bind_eq_bind, Option.bind_some] at hstep
  match tick, alarm, hjob, hstep with
  | some (tick, stage), alarm, hjob, hstep =>
      simp only [World.stepTick, hsettings] at hstep
      split at hstep
      · cases hstep
        exact h.tended_workOnTick hreaches hawaits hmem htask hjob
      · split at hstep
        · cases hstep
          exact h.tended_workOnTick hreaches hawaits hmem htask hjob
        · split at hstep
          · cases hstep
          -- It waits at the gate.
          · cases hstep
            exact h.tended hplaced (.of_tasks h.run? rfl rfl rfl rfl rfl) rfl rfl
  | none, none, hjob, hstep =>
      simp only at hstep
      split at hstep
      · cases hstep
        exact h.tended_beside hmem hc hbeside rfl (scheduler_goes_on htask hjob _ _) rfl id rfl rfl
          fun x hx => ⟨x, hx, rfl⟩
      · cases hstep
        exact h.tended_finish hplaced hmem hc .crashed
  | none, some due, hjob, hstep =>
      simp only at hstep
      split at hstep
      · cases hstep
        exact h.tended_finish hplaced hmem hc .clean
      · split at hstep
        · split at hstep
          · cases hstep
            exact h.tended_beside hmem hc hbeside rfl (scheduler_goes_on htask hjob _ _) rfl id
              rfl rfl fun x hx => ⟨x, hx, rfl⟩
          · cases hstep
            exact h.tended_finish hplaced hmem hc .crashed
        · cases hstep

end Staffed

/-! ## The sender -/

namespace World

variable {cell : Nat} {settings : Broker.ConsumeSettings} {tally : Sender.Tally}
  {consumer : Broker.Consumer} {b : Broker.State Bytes}

/-- Whether a sender has been told to stop. -/
def dismisses (w : World) (cell : Nat) : Bool :=
  w.root.triggered || (w.senders[cell]?.map (·.stop.triggered)).getD false

theorem stopRequested_perform {given : Bool} (h : w.dismisses cell = given) :
    (sender cell settings).stopRequested.perform w = (.ok given, w) := by
  rw [← h]
  rfl

theorem receive_perform {found : Broker.Received Bytes}
    (h : w.broker.receive consumer = (found, b)) :
    (client.receive consumer).perform w = (.ok found, { w with broker := b }) := by
  have hcall : (client.receive consumer).perform w =
      (.ok (w.broker.receive consumer).1,
        { w with broker := (w.broker.receive consumer).2 }) := rfl
  rw [hcall, h]

/-- A sender that registers. -/
theorem sender_registers (hfault : w.faults.broker .consume = none)
    (hconsume : w.broker.consume settings = (.ok consumer, b)) :
    ((sender cell settings).step tally .registering).perform w =
      (.ok (.moved tally (.consuming consumer)), { w with broker := b }) := by
  have hcall : (client.consume settings).perform w =
      (.ok (.ok consumer), { w with broker := b }) := by
    have hunfaulted := perform_unfaulted (fun v => v.faults.broker .consume)
      (fun b => b.consume settings) hfault
    rw [hconsume] at hunfaulted
    exact hunfaulted
  exact Action.perform_bind_of_ok hcall _

/-- A sender that has been told to stop. -/
theorem sender_leaves (hstop : w.dismisses cell = true) :
    ((sender cell settings).step tally (.consuming consumer)).perform w =
      (.ok (.moved tally (.ended (.ok ()))), { w with broker := w.broker.drop consumer }) :=
  Action.perform_bind_of_ok (stopRequested_perform hstop) _

/-- A sender that finds nothing. -/
theorem sender_waits (hstop : w.dismisses cell = false)
    (hreceive : w.broker.receive consumer = (.empty, b)) :
    ((sender cell settings).step tally (.consuming consumer)).perform w =
      (.ok .waits, { w with broker := b }) :=
  (Action.perform_bind_of_ok (stopRequested_perform hstop) _).trans
    (Action.perform_bind_of_ok (receive_perform hreceive) _)

/-- A sender that takes a delivery counts it, and acknowledges it unless it need not. -/
theorem sender_takes {d : Broker.Delivery Bytes} (hstop : w.dismisses cell = false)
    (hreceive : w.broker.receive consumer = (.delivery d, b)) :
    ∃ tally' b', ((sender cell settings).step tally (.consuming consumer)).perform w =
        (.ok (.moved tally' (.consuming consumer)), { w with broker := b' }) ∧
      tally'.received = tally.received + 1 ∧ (b' = b ∨ b' = (b.ack d.tag false).2) := by
  obtain ⟨tally', b', hhandle, hcount, hb'⟩ : ∃ tally' b',
      ((sender cell settings).handle tally d).perform { w with broker := b } =
        (.ok tally', { w with broker := b' }) ∧
      tally'.received = tally.received + 1 ∧ (b' = b ∨ b' = (b.ack d.tag false).2) := by
    have hsettings : (sender cell settings).settings = settings := rfl
    unfold Sender.handle
    rw [hsettings]
    cases settings.autoAck with
    | true => exact ⟨_, b, rfl, Sender.Tally.received_read _ _, Or.inl rfl⟩
    | false =>
        refine ⟨_, _, rfl, ?_, Or.inr rfl⟩
        rw [Sender.Tally.received_settled, Sender.Tally.received_read]
  refine ⟨tally', b', ?_, hcount, hb'⟩
  refine (Action.perform_bind_of_ok (stopRequested_perform hstop) _).trans ?_
  refine (Action.perform_bind_of_ok (receive_perform hreceive) _).trans ?_
  exact Action.perform_bind_of_ok hhandle _

/-- The world when a sender has come to a stage, with another tally and after a call of the
    broker. -/
def advanceSender (w : World) (j cell : Nat) (broker : Broker.State Bytes) (tally : Sender.Tally)
    (stage : Sender.Stage) : World :=
  { w.setJob j (.sender cell stage) with
    broker
    senders := w.senders.modify cell fun x => { x with tally } }

variable {x : SenderCell} {stage : Sender.Stage}

theorem stepSender_goes_on (hx : w.senders[cell]? = some x)
    (h : ((sender cell x.settings).step x.tally stage).perform w =
      (.ok (.moved tally (.consuming consumer)), { w with broker := b })) :
    w.stepSender j cell stage = some (w.advanceSender j cell b tally (.consuming consumer)) := by
  have hstep : (sender cell x.settings).step x.tally stage w = _ := h
  unfold stepSender
  simp only [sender] at hstep
  simp only [hx, Option.bind_eq_bind, Option.bind_some, hstep]
  rfl

theorem stepSender_waits (hx : w.senders[cell]? = some x)
    (h : ((sender cell x.settings).step x.tally stage).perform w = (.ok .waits, v)) :
    w.stepSender j cell stage = none := by
  have hstep : (sender cell x.settings).step x.tally stage w = _ := h
  unfold stepSender
  simp only [sender] at hstep
  simp only [hx, Option.bind_eq_bind, Option.bind_some, hstep]

theorem stepSender_leaves (hx : w.senders[cell]? = some x)
    (h : ((sender cell x.settings).step x.tally stage).perform w =
      (.ok (.moved tally (.ended (.ok ()))), { w with broker := b })) :
    w.stepSender j cell stage =
      some ((w.advanceSender j cell b tally (.ended (.ok ()))).finish j .clean) := by
  have hstep : (sender cell x.settings).step x.tally stage w = _ := h
  unfold stepSender
  simp only [sender] at hstep
  simp only [hx, Option.bind_eq_bind, Option.bind_some, hstep]
  rfl

end World

namespace Staffed

variable {waiting : List (Broker.Message Bytes)} {consumer : Broker.Consumer}
  {stage : Sender.Stage}

/-- The sender listens if it consumes. -/
theorem listener?_of_task (h : Staffed s w run) (hmem : (.sender, j) ∈ run.children)
    (htask : w.task? j = some t) : w.listener? = t.job.consumer? := by
  rw [World.listener?, h.member hmem, htask]
  rfl

/-- The sender consumes, and messages wait for it. -/
theorem consuming (h : Staffed s w run) (hmem : (.sender, j) ∈ run.children)
    {b : Broker.State Bytes} (hattends : b.Attends s.queue.name (some consumer) waiting)
    (tally : Sender.Tally) :
    let u := w.advanceSender j run.sender b tally (.consuming consumer)
    Staffed s u run ∧ u.listener? = some consumer ∧ u.Awaits s.queue.name waiting := by
  intro u
  obtain ⟨t, htask, hemploys⟩ := h.children .sender j hmem
  obtain ⟨stage, hjob⟩ := hemploys.sender
  have htask' : u.task? j = some { t with job := .sender run.sender (.consuming consumer) } :=
    World.task?_setJob htask _
  have hframe : Frame run w u := by
    refine .of_modify (j := j)
      (f := fun t => { t with job := .sender run.sender (.consuming consumer) }) h.run? rfl
      (fun t' ht' => ?_) id rfl (fun x hx => ⟨x, hx, rfl⟩) fun x hx => ?_
    · obtain rfl := Option.some.inj (htask.symm.trans ht')
      rw [hjob]
      refine Or.inr ⟨rfl, fun c hemploys => ?_⟩
      cases c <;> exact hemploys
    · exact ⟨{ x with tally }, by simp [u, World.advanceSender, hx], rfl, Or.inl⟩
  have hmember : u.member? .sender =
      some { t with job := .sender run.sender (.consuming consumer) } := by
    rw [World.member?_of_run? hframe.run?, h.lookup hmem]
    exact htask'
  have hlistener : u.listener? = some consumer := by
    rw [World.listener?, hmember]
    rfl
  refine ⟨hframe.staffed h fun t' ht' => ?_, hlistener, ?_⟩
  · rw [hmember] at ht'
    rw [← Option.some.inj ht']
    exact h.stays t ((h.member hmem).trans htask)
  · rw [World.Awaits, hlistener]
    exact hattends

/-- A sender that has ended has left. -/
theorem leaves_of_finish (h : Staffed s w run) (hmem : (.sender, j) ∈ run.children)
    (b : Broker.State Bytes) (tally : Sender.Tally) (stage : Sender.Stage) :
    ¬((w.advanceSender j run.sender b tally stage).finish j .clean).SenderStays := by
  obtain ⟨t, htask, -⟩ := h.children .sender j hmem
  let u := w.advanceSender j run.sender b tally stage
  have hne : j ≠ 0 := (h.place hmem).1
  have hended : (u.finish j .clean).task? j =
      some { t with job := .sender run.sender stage, status := .ended .clean } := by
    have hjob : u.task? j = some { t with job := .sender run.sender stage } :=
      World.task?_setJob htask _
    rw [World.task?, u.tasks_finish j .clean, List.getElem?_modify_eq, ← World.task?, hjob]
    rfl
  have hrun : (u.finish j .clean).run? 0 = some run := by
    obtain ⟨t₀, htask₀, hjob₀⟩ := World.run?_eq_some.mp h.run?
    refine World.run?_eq_some.mpr ⟨t₀, ?_, hjob₀⟩
    have hzero : u.task? 0 = w.task? 0 := World.task?_setJob_ne hne _
    rw [World.task?, u.tasks_finish j .clean]
    exact (World.task?_setTask u j _ 0).trans ((if_neg hne).trans (hzero.trans htask₀))
  exact h.not_stays hmem hrun rfl hended rfl

/-- The sender is told to stop only after the signal. -/
theorem triggered_of_dismisses (h : Staffed s w run) (hstop : w.dismisses run.sender = true) :
    w.root.triggered = true := by
  obtain ⟨x, hx, -, htold⟩ := h.sender
  rw [World.dismisses, hx, Bool.or_eq_true] at hstop
  exact hstop.elim id htold

/-- Registering makes the sender the consumer of the queue. -/
theorem registers (h : Staffed s w run) (hjoined : Joined s)
    (hawaits : w.Awaits s.queue.name waiting) (hmem : (.sender, j) ∈ run.children)
    (htask : w.task? j = some t) (hjob : t.job = .sender run.sender .registering) :
    ∃ b tally consumer, consumer.queue = s.queue.name ∧
      b.Attends s.queue.name (some consumer) waiting ∧
      w.stepSender j run.sender .registering =
        some (w.advanceSender j run.sender b tally (.consuming consumer)) := by
  obtain ⟨x, hx, hsettings, -⟩ := h.sender
  have hlistener : w.listener? = none := by
    rw [h.listener?_of_task hmem htask, hjob]
    rfl
  rw [World.Awaits, hlistener, ← hjoined.consumes] at hawaits
  obtain ⟨consumer, hok, hqueue, hattends⟩ := hawaits.consume
  rw [hjoined.consumes] at hqueue hattends
  refine ⟨(w.broker.consume s.consume).2, x.tally, consumer, hqueue, hattends, ?_⟩
  refine World.stepSender_goes_on hx (World.sender_registers (h.faults .consume) ?_)
  rw [hsettings, ← hok]

/-- The sender takes the first message that waits for it. -/
theorem takes (h : Staffed s w run) {m : Broker.Message Bytes}
    (hawaits : w.Awaits s.queue.name (m :: waiting)) (hmem : (.sender, j) ∈ run.children)
    (htask : w.task? j = some t) (hjob : t.job = .sender run.sender (.consuming consumer))
    (hstop : w.dismisses run.sender = false) {x : SenderCell}
    (hx : w.senders[run.sender]? = some x) :
    ∃ b tally, tally.received = x.tally.received + 1 ∧
      b.Attends s.queue.name (some consumer) waiting ∧
      w.stepSender j run.sender (.consuming consumer) =
        some (w.advanceSender j run.sender b tally (.consuming consumer)) := by
  have hlistener : w.listener? = some consumer := by
    rw [h.listener?_of_task hmem htask, hjob]
    rfl
  rw [World.Awaits, hlistener] at hawaits
  obtain ⟨d, -, hreceive, hattends⟩ := hawaits.receive_cons
  obtain ⟨tally, b, hstep, hcount, hb⟩ :=
    World.sender_takes hstop (Prod.ext hreceive rfl)
  refine ⟨b, tally, hcount, ?_, World.stepSender_goes_on hx hstep⟩
  rcases hb with rfl | rfl
  · exact hattends
  · exact hattends.ack d.tag false

/-- A step of the sender. -/
theorem tends_stepSender (h : Staffed s w run) (hjoined : Joined s)
    (hawaits : w.Awaits s.queue.name waiting) (hmem : (.sender, j) ∈ run.children)
    (htask : w.task? j = some t) (hjob : t.job = .sender run.sender stage)
    (hstep : w.stepSender j run.sender stage = some w') : Tends s w w' := by
  obtain ⟨x, hx, hsettings, -⟩ := h.sender
  match stage, hjob, hstep with
  | .registering, hjob, hstep =>
      obtain ⟨b, tally, consumer, -, hattends, hmoved⟩ :=
        h.registers hjoined hawaits hmem htask hjob
      obtain rfl := Option.some.inj (hstep.symm.trans hmoved)
      obtain ⟨hstaffed, -, hnow⟩ := h.consuming hmem hattends tally
      exact Or.inl ⟨run, hstaffed, (h.placed_iff hmem).mpr ⟨waiting, hnow⟩⟩
  | .consuming consumer, hjob, hstep =>
      cases hstop : w.dismisses run.sender with
      | true =>
          have hleft : w.stepSender j run.sender (.consuming consumer) = some _ :=
            World.stepSender_leaves hx (World.sender_leaves hstop)
          obtain rfl := Option.some.inj (hstep.symm.trans hleft)
          exact Or.inr ⟨h.triggered_of_dismisses hstop, h.leaves_of_finish hmem _ _ _⟩
      | false =>
          match waiting, hawaits with
          | m :: waiting, hawaits =>
              obtain ⟨b, tally, -, hattends, hmoved⟩ :=
                h.takes hawaits hmem htask hjob hstop hx
              obtain rfl := Option.some.inj (hstep.symm.trans hmoved)
              obtain ⟨hstaffed, -, hnow⟩ := h.consuming hmem hattends tally
              exact Or.inl ⟨run, hstaffed, (h.placed_iff hmem).mpr ⟨waiting, hnow⟩⟩
          | [], hawaits =>
              have hlistener : w.listener? = some consumer := by
                rw [h.listener?_of_task hmem htask, hjob]
                rfl
              rw [World.Awaits, hlistener] at hawaits
              have hwaits : w.stepSender j run.sender (.consuming consumer) = none :=
                World.stepSender_waits hx (World.sender_waits hstop hawaits.receive_nil)
              rw [hwaits] at hstep
              cases hstep
  | .ended outcome, hjob, hstep =>
      have hwaits : w.stepSender j run.sender (.ended outcome) = none :=
        World.stepSender_waits (v := w) hx rfl
      rw [hwaits] at hstep
      cases hstep

end Staffed

/-! ## Every task -/

/-- A step of any task. -/
theorem Tended.stepTask (h : Tended s w) (hjoined : Joined s) (hreaches : Reaches s)
    (hstep : w.stepTask j = some w') : Tends s w w' := by
  obtain ⟨run, hstaffed, hplaced⟩ := h
  unfold World.stepTask at hstep
  obtain ⟨t, htask, hstep⟩ := Option.bind_eq_some_iff.mp hstep
  split at hstep
  · cases hstep
  · cases hjob : t.job with
    | supervisor run' =>
        rw [hjob] at hstep
        -- There is only one supervisor.
        have hzero : j = 0 := by
          by_contra hne
          obtain ⟨c, hmem⟩ :=
            hstaffed.staff j (Nat.pos_of_ne_zero hne) (World.lt_of_task? htask)
          obtain ⟨t', htask', hemploys⟩ := hstaffed.children c j hmem
          obtain rfl := Option.some.inj (htask.symm.trans htask')
          have hleaf := hemploys.isLeaf
          rw [hjob] at hleaf
          cases hleaf
        subst hzero
        obtain rfl := Option.some.inj
          (hstaffed.run?.symm.trans (World.run?_eq_some.mpr ⟨t, htask, hjob⟩))
        exact hstaffed.tends_stepSupervisor hplaced hjoined hstep
    | server asked =>
        obtain ⟨c, hmem, hc⟩ := hstaffed.of_server htask hjob
        rw [hjob] at hstep
        simp only at hstep
        split at hstep
        · cases hstep
          exact Or.inl (hstaffed.tended_finish hplaced hmem hc .clean)
        · cases hstep
    | scheduler cell alarm tick =>
        obtain ⟨hmem, rfl⟩ := hstaffed.of_scheduler htask hjob
        obtain ⟨waiting, hawaits⟩ := (hstaffed.placed_iff hmem).mp hplaced
        rw [hjob] at hstep
        exact Or.inl (hstaffed.tended_stepScheduler hreaches hawaits hmem htask hjob hstep)
    | sender cell stage =>
        obtain ⟨hmem, rfl⟩ := hstaffed.of_sender htask hjob
        obtain ⟨waiting, hawaits⟩ := (hstaffed.placed_iff hmem).mp hplaced
        rw [hjob] at hstep
        exact hstaffed.tends_stepSender hjoined hawaits hmem htask hjob hstep

end Almanac.Rehearsal
