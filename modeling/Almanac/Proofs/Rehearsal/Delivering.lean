/-
  Almanac.Proofs.Rehearsal.Delivering

  A service that runs with a validated configuration, alone over a broker of its own. If it
  publishes over the default exchange, then in every run, for as long as the sender stays, the
  queue is declared and consumed, each message that the scheduler can write joins those that wait
  for the sender, and the sender takes them in order (`validated_configuration_delivers`).

  The check of a configuration says nothing of other exchanges, and those reach no queue: what the
  scheduler publishes there is counted as published and is gone (`published_elsewhere_is_lost`).
-/
import Almanac.Config.Check
import Almanac.Proofs.Json.Admitted
import Almanac.Proofs.Rehearsal.Attending
import Almanac.Proofs.Rehearsal.Reliable
import Mathlib.Logic.Relation

namespace Almanac

/-! ## What the check says -/

namespace Config

open Rehearsal (Joined Reaches)

theorem of_refuseIf {condition : Bool} {fault : Fault} (h : refuseIf condition fault = .ok ()) :
    condition = false := by
  cases condition with
  | false => rfl
  | true => cases h

/-- A validated configuration gives settings of a supervisor, and the sender consumes the queue
    that is declared. -/
theorem settings_of_validate {c : Config} (h : c.validate = .ok ()) :
    ∃ s, c.supervisorSettings = .ok s ∧ s.queue = c.queue ∧ s.scheduler.publish = c.publish ∧
      Joined s ∧ Reaches s := by
  unfold validate at h
  obtain ⟨_, -, h⟩ := Json.bind_eq_ok.mp h
  obtain ⟨_, -, h⟩ := Json.bind_eq_ok.mp h
  obtain ⟨_, -, h⟩ := Json.bind_eq_ok.mp h
  obtain ⟨_, -, h⟩ := Json.bind_eq_ok.mp h
  obtain ⟨_, -, h⟩ := Json.bind_eq_ok.mp h
  obtain ⟨_, hconsume, h⟩ := Json.bind_eq_ok.mp h
  obtain ⟨_, hpublish, h⟩ := Json.bind_eq_ok.mp h
  obtain ⟨http, hhttp, h⟩ := Json.bind_eq_ok.mp h
  obtain ⟨grpc, hgrpc, -⟩ := Json.bind_eq_ok.mp h
  have hqueue : c.consume.queue = c.queue.name := by simpa using of_refuseIf hconsume
  have hkey : c.publish.exchange = "" → c.publish.routingKey = c.queue.name := by
    simpa using of_refuseIf hpublish
  let s : Supervisor.Settings :=
    { http, grpc, scheduler := c.schedulerSettings, consume := c.consume, queue := c.queue,
      drain := c.drainSeconds * 1000 }
  refine ⟨s, ?_, rfl, rfl, ⟨fun component => ?_, hqueue⟩, hkey⟩
  · unfold supervisorSettings
    rw [hhttp, hgrpc]
    rfl
  · cases component <;> rfl

end Config

namespace Rehearsal

open Broker (Consumer)
open Scheduler (Tick)
open Supervisor (Ending Settings)

/-! ## Runs of a service -/

/-- Nothing has been done in a world yet, as far as the broker and the tasks go. -/
structure World.Fresh (w : World) : Prop where
  tasks : w.tasks = []
  broker : w.broker = {}
  faults : ∀ call, w.faults.broker call = none

/-- What can happen next while a service runs that has its broker for itself, up to the point
    where its sender leaves. -/
inductive ServiceStep (w : World) : World → Prop
  | task {j : Nat} {w' : World} (hstep : w.stepTask j = some w') (hstays : w'.SenderStays) :
      ServiceStep w w'
  /-- A server ends, for reasons of its own. -/
  | ends {j : Nat} {t : Task} {asked : Bool} (how : Ending) (htask : w.task? j = some t)
      (hserver : t.job = .server asked) : ServiceStep w (w.finish j how)
  /-- Others use the storage, time passes, the signal may be given, and so on. -/
  | others {w' : World} (htasks : w'.tasks = w.tasks) (hbroker : w'.broker = w.broker)
      (hfaults : w'.faults.broker = w.faults.broker) (hschedulers : w'.schedulers = w.schedulers)
      (hsenders : w'.senders = w.senders)
      (hroot : w.root.triggered = true → w'.root.triggered = true) : ServiceStep w w'

def ServiceRun : World → World → Prop := Relation.ReflTransGen ServiceStep

section

variable {s : Settings} {w w' base : World}

theorem Tended.step (h : Tended s w) (hjoined : Joined s) (hreaches : Reaches s)
    (hstep : ServiceStep w w') : Tended s w' := by
  cases hstep with
  | task hstep hstays =>
      rcases h.stepTask hjoined hreaches hstep with htended | ⟨-, hleft⟩
      · exact htended
      · exact (hleft hstays).elim
  | ends how htask hserver =>
      obtain ⟨run, hstaffed, hplaced⟩ := h
      obtain ⟨c, hmem, hc⟩ := hstaffed.of_server htask hserver
      exact hstaffed.tended_finish hplaced hmem hc how
  | others htasks hbroker hfaults hschedulers hsenders hroot =>
      obtain ⟨run, hstaffed, hplaced⟩ := h
      have hframe : Frame run w w' := by
        refine .of_modify (j := 0) (f := id) hstaffed.run? ?_ (fun _ _ => Or.inl rfl) hroot hfaults
          ?_ ?_
        · rw [htasks, List.modify_id]
        · rw [hschedulers]
          exact fun x hx => ⟨x, hx, rfl⟩
        · rw [hsenders]
          exact fun x hx => ⟨x, hx, rfl, Or.inl⟩
      exact hstaffed.tended hplaced hframe (World.member?_of_tasks htasks _) hbroker

theorem Tended.run (h : Tended s w) (hjoined : Joined s) (hreaches : Reaches s)
    (hrun : ServiceRun w w') : Tended s w' := by
  induction hrun with
  | refl => exact h
  | tail _ hstep ih => exact ih.step hjoined hreaches hstep

/-- A supervisor that is about to start. -/
theorem Tended.start (hfresh : base.Fresh) (s : Settings) : Tended s (base.runSupervisor s) := by
  let run : Run :=
    { settings := s, scheduler := base.schedulers.length, sender := base.senders.length }
  have htask : (base.runSupervisor s).tasks = [{ job := .supervisor run }] := by
    show base.tasks ++ _ = _
    rw [hfresh.tasks]
    rfl
  have hrun : (base.runSupervisor s).run? 0 = some run := by
    refine World.run?_eq_some.mpr ⟨{ job := .supervisor run }, ?_, rfl⟩
    rw [World.task?, htask]
    rfl
  refine ⟨run, ?_, hfresh.broker⟩
  exact {
    run? := hrun
    settings := rfl
    fits := rfl
    ended := by simp [run]
    closing := by simp [run]
    children := by simp [run]
    staff := fun k hpos hlt => by
      rw [htask, List.length_singleton] at hlt
      omega
    faults := hfresh.faults
    scheduler := ⟨_, List.getElem?_concat_length, rfl⟩
    sender := ⟨_, List.getElem?_concat_length, rfl, fun h => by cases h⟩
    stays := fun t ht => by
      rw [World.member?_of_run? hrun] at ht
      cases ht }

end

/-! ## Delivery -/

/-- What a service with a configuration does with its notifications, in a world that it has come
    to. -/
structure World.Delivers (c : Config) (w : World) : Prop where
  /-- The queue is declared, and nothing is in it. -/
  declares : ∀ t run, w.task? 0 = some t → t.isRunning = true → t.job = .supervisor run →
    run.phase = .declaring → ∃ w', w.stepTask 0 = some w' ∧
      w'.run? 0 = some { run with phase := .binding [.http, .grpc] } ∧ w'.Awaits c.queue.name []
  /-- The sender becomes the consumer of that queue, and finds there what has waited for it. -/
  registers : ∀ j t cell, w.task? j = some t → t.isRunning = true →
    t.job = .sender cell .registering → ∃ w' consumer waiting,
      w.Awaits c.queue.name waiting ∧ w.stepTask j = some w' ∧ consumer.queue = c.queue.name ∧
      w'.listener? = some consumer ∧ w'.Awaits c.queue.name waiting
  /-- A message that the scheduler can write is counted as published, and joins those that wait
      for the sender. -/
  publishes : ∀ j t cell alarm (tick : Tick) (e : Event) due body, w.task? j = some t →
    t.isRunning = true → t.job = .scheduler cell alarm (some (tick, .publishing (e :: due))) →
    e.announcement.encode = .ok body → ∃ w' tick' waiting,
      w.Awaits c.queue.name waiting ∧ w.stepTask j = some w' ∧
      w'.task? j = some { t with job := .scheduler cell alarm (some (tick', .publishing due)) } ∧
      tick'.report = { tick.report with published := tick.report.published + 1 } ∧
      w'.Awaits c.queue.name (waiting ++ [Broker.State.message c.publish body])
  /-- Until the signal the sender takes the first message that waits for it. -/
  takes : ∀ j t cell consumer x, w.task? j = some t → t.isRunning = true →
    t.job = .sender cell (.consuming consumer) → w.senders[cell]? = some x →
    w.root.triggered = false → ∃ waiting, w.Awaits c.queue.name waiting ∧
      ∀ m rest, waiting = m :: rest → ∃ w' x', w.stepTask j = some w' ∧
        w'.Awaits c.queue.name rest ∧ w'.senders[cell]? = some x' ∧
        x'.tally.received = x.tally.received + 1
  /-- The sender does not leave before the signal. -/
  stays : ∀ j w', w.stepTask j = some w' → ¬w'.SenderStays → w.root.triggered = true

namespace World

variable {w : World} {j : Nat} {t : Task}

theorem stepTask_of_scheduler {cell : Nat} {alarm : Option Nat}
    {tick : Option (Tick × Scheduler.Stage)} (htask : w.task? j = some t)
    (hrunning : t.isRunning = true) (hjob : t.job = .scheduler cell alarm tick) :
    w.stepTask j = w.stepScheduler j cell alarm tick := by
  simp [stepTask, htask, hrunning, hjob]

theorem stepTask_of_sender {cell : Nat} {stage : Sender.Stage} (htask : w.task? j = some t)
    (hrunning : t.isRunning = true) (hjob : t.job = .sender cell stage) :
    w.stepTask j = w.stepSender j cell stage := by
  simp [stepTask, htask, hrunning, hjob]

theorem stepTask_of_supervisor {run : Run} (htask : w.task? j = some t)
    (hrunning : t.isRunning = true) (hjob : t.job = .supervisor run) :
    w.stepTask j = w.stepSupervisor j run := by
  simp [stepTask, htask, hrunning, hjob]

/-- The gate lets a task pass with what its next call needs, and the world is then this one. -/
def Passes (w : World) (j : Nat) (needs : Option Access) (inside : World) : Prop :=
  match needs with
  | none => inside = w
  | some access => w.gate.admits (.task j) access = true ∧
      inside = { w with gate := w.gate.enter (.task j) access }

/-- A scheduler goes on with its tick. -/
theorem stepScheduler_works {inside w' : World} {cell : Nat} {alarm : Option Nat}
    {x : SchedulerCell} {tick tick' : Tick} {stage stage' : Scheduler.Stage}
    (hx : w.schedulers[cell]? = some x) (hpasses : w.Passes j (accessOf tick stage) inside)
    (hstep : (w.scheduler x.settings).step tick stage inside = (.ok (tick', some stage'), w')) :
    w.stepScheduler j cell alarm (some (tick, stage)) =
      some { w'.setJob j (.scheduler cell alarm (some (tick', stage'))) with
        gate := w'.gate.leave (.task j) } := by
  have hsettled : w.stepTick j cell x.settings alarm tick stage =
      some { w'.setJob j (.scheduler cell alarm (some (tick', stage'))) with
        gate := w'.gate.leave (.task j) } := by
    cases haccess : accessOf tick stage with
    | none =>
        rw [haccess] at hpasses
        obtain rfl : inside = w := hpasses
        simp only [stepTick, workOnTick, haccess, hstep]
    | some access =>
        rw [haccess] at hpasses
        obtain ⟨hadmits, rfl⟩ := hpasses
        simp only [stepTick, workOnTick, haccess, hadmits, hstep, if_true]
  simp only [stepScheduler, hx, Option.bind_eq_bind, Option.bind_some, hsettled]

/-- Publishing without a fault asks the broker. -/
theorem announce_answered {u : World} {settings : Scheduler.Settings} {e : Event} {body : Bytes}
    (hfaults : ∀ call, w.faults.broker call = none)
    (hencode : e.announcement.encode = .ok body) :
    ((u.scheduler settings).announce e).perform w =
      (.ok ((w.broker.publish settings.publish body).1.mapError Service.Error.broker),
        { w with broker := (w.broker.publish settings.publish body).2 }) :=
  Scheduler.announce_of_publish _ hencode (perform_publish (hfaults .publish) _ body)

end World

namespace Staffed

variable {s : Settings} {w : World} {run : Run} {j cell : Nat} {t : Task} {alarm : Option Nat}
  {tick : Tick} {e : Event} {due : List Event} {body : Bytes}

/-- The scheduler hands the message of an event to the broker, and counts the answer. -/
theorem stepTask_publishing (h : Staffed s w run) (htask : w.task? j = some t)
    (hrunning : t.isRunning = true)
    (hjob : t.job = .scheduler cell alarm (some (tick, .publishing (e :: due))))
    (hencode : e.announcement.encode = .ok body) {answer : Except Broker.Error Unit}
    {b : Broker.State Bytes} (hpublish : w.broker.publish s.scheduler.publish body = (answer, b)) :
    ∃ w' tick', w.stepTask j = some w' ∧ w'.broker = b ∧ w'.listener? = w.listener? ∧
      tick' = tick.note (.announced e (answer.mapError .broker)) ∧
      w'.task? j = some
        { t with job := .scheduler cell alarm (some (tick', .publishing due)) } := by
  obtain ⟨hmem, rfl⟩ := h.of_scheduler htask hjob
  obtain ⟨x, hx, hsettings⟩ := h.scheduler
  have hannounce : ((w.scheduler x.settings).announce e).perform w =
      (.ok (answer.mapError .broker), { w with broker := b }) := by
    rw [World.announce_answered h.faults hencode, hsettings, hpublish]
  -- Announcing needs nothing of the gate.
  have hpasses : w.Passes j (World.accessOf tick (.publishing (e :: due))) w := rfl
  have hcall : ((w.scheduler x.settings).step tick (.publishing (e :: due))).perform w =
      (.ok (tick.note (.announced e (answer.mapError .broker)), some (.publishing due)),
        { w with broker := b }) := (Scheduler.step_of_call _ rfl hannounce).1
  have hstep : w.stepScheduler j run.scheduler alarm (some (tick, .publishing (e :: due))) = _ :=
    World.stepScheduler_works hx hpasses hcall
  rw [World.stepTask_of_scheduler htask hrunning hjob]
  refine ⟨_, _, hstep, rfl, ?_, rfl, World.task?_setJob htask _⟩
  rw [World.listener?, World.listener?, h.member?_modify hmem (by decide) rfl]

/-- The queue that is declared is there for the sender, and empty. -/
theorem declares (h : Staffed s w run) (hplaced : Placed s.queue.name w run) (hjoined : Joined s)
    (htask : w.task? 0 = some t) (hrunning : t.isRunning = true) (hjob : t.job = .supervisor run)
    (hphase : run.phase = .declaring) :
    ∃ w', w.stepTask 0 = some w' ∧
      w'.run? 0 = some { run with phase := .binding [.http, .grpc] } ∧
      w'.Awaits s.queue.name [] := by
  obtain ⟨hok, hattends⟩ := Broker.State.attends_of_declare (β := Bytes) s.queue
  rw [Placed, hphase] at hplaced
  rw [← hplaced] at hok hattends
  let v : World := { w with broker := (w.broker.declare s.queue).2 }
  have hcall : (World.client.declare s.queue).perform w = (.ok (.ok ()), v) := by
    have hunfaulted := World.perform_unfaulted (fun v => v.faults.broker .declare)
      (fun b => b.declare s.queue) (h.faults .declare)
    rw [hok] at hunfaulted
    exact hunfaulted
  have hservers : ([.http, .grpc] : List Service.Component).filter run.settings.enables =
      [.http, .grpc] := by
    rw [h.settings]
    exact List.filter_eq_self.mpr fun c _ => hjoined.enables c
  have hadvance : Supervisor.Advance (World.host 0) run.settings w run.phase none
      (.binding [.http, .grpc]) v := by
    rw [hphase, ← hservers]
    rw [← h.settings] at hcall
    exact .declared hcall
  have hrun : v.run? 0 = some run := h.run?
  have hrun' : (v.setPhase 0 (.binding [.http, .grpc])).run? 0 =
      some { run with phase := .binding [.http, .grpc] } := by
    rw [World.setPhase_eq hrun]
    exact World.run?_eq_some.mpr ⟨_, World.task?_setJob htask _, rfl⟩
  refine ⟨v.setPhase 0 (.binding [.http, .grpc]), ?_, hrun', ?_⟩
  · rw [World.stepTask_of_supervisor htask hrunning hjob]
    exact World.stepSupervisor_of_advance hadvance
  · -- Nobody has been started yet.
    have hchildren : run.children = [] := by
      have hfits := h.fits
      rwa [Run.Fits, hphase] at hfits
    have hnobody : (v.setPhase 0 (.binding [.http, .grpc])).listener? = none := by
      rw [World.listener?, World.member?_of_run? hrun']
      show ((run.children.lookup .sender).bind _).bind _ = none
      rw [hchildren]
      rfl
    rw [World.Awaits, hnobody, World.setPhase_eq hrun]
    exact hattends

end Staffed

/-- A service that is tended, and publishes over the default exchange, delivers. -/
theorem Tended.delivers {s : Settings} {w : World} {c : Config} (h : Tended s w)
    (hjoined : Joined s) (hreaches : Reaches s) (hqueue : s.queue = c.queue)
    (hpublish : s.scheduler.publish = c.publish) (hexchange : c.publish.exchange = "") :
    w.Delivers c := by
  obtain ⟨run, hstaffed, hplaced⟩ := h
  have hname : s.queue.name = c.queue.name := congrArg _ hqueue
  rw [← hpublish] at hexchange
  constructor
  case declares =>
    intro t run' htask hrunning hjob hphase
    obtain rfl := Option.some.inj
      (hstaffed.run?.symm.trans (World.run?_eq_some.mpr ⟨t, htask, hjob⟩))
    rw [← hname]
    exact hstaffed.declares hplaced hjoined htask hrunning hjob hphase
  case registers =>
    intro j t cell htask hrunning hjob
    obtain ⟨hmem, rfl⟩ := hstaffed.of_sender htask hjob
    obtain ⟨waiting, hawaits⟩ := (hstaffed.placed_iff hmem).mp hplaced
    obtain ⟨b, tally, consumer, hlistens, hattends, hstep⟩ :=
      hstaffed.registers hjoined hawaits hmem htask hjob
    obtain ⟨-, hlistener, hnow⟩ := hstaffed.consuming hmem hattends tally
    rw [← hname]
    refine ⟨_, consumer, waiting, hawaits, ?_, hlistens, hlistener, hnow⟩
    rw [World.stepTask_of_sender htask hrunning hjob, hstep]
  case publishes =>
    intro j t cell alarm tick e due body htask hrunning hjob hencode
    obtain ⟨hmem, -⟩ := hstaffed.of_scheduler htask hjob
    obtain ⟨waiting, hawaits⟩ := (hstaffed.placed_iff hmem).mp hplaced
    obtain ⟨hok, hattends⟩ := hawaits.publish hexchange (hreaches hexchange) body
    obtain ⟨w', tick', hstep, hbroker, hlistener, htick, htask'⟩ :=
      hstaffed.stepTask_publishing htask hrunning hjob hencode (Prod.ext hok rfl)
    rw [← hname, ← hpublish]
    refine ⟨w', tick', waiting, hawaits, hstep, htask', ?_, ?_⟩
    · rw [htick]
      rfl
    · rw [World.Awaits, hlistener, hbroker]
      exact hattends
  case takes =>
    intro j t cell consumer x htask hrunning hjob hx hquiet
    obtain ⟨hmem, rfl⟩ := hstaffed.of_sender htask hjob
    obtain ⟨waiting, hawaits⟩ := (hstaffed.placed_iff hmem).mp hplaced
    have hstop : w.dismisses run.sender = false := by
      by_contra hstop
      rw [hstaffed.triggered_of_dismisses (by simpa using hstop)] at hquiet
      cases hquiet
    rw [← hname]
    refine ⟨waiting, hawaits, ?_⟩
    rintro m rest rfl
    obtain ⟨b, tally, hcount, hattends, hstep⟩ :=
      hstaffed.takes hawaits hmem htask hjob hstop hx
    obtain ⟨-, -, hnow⟩ := hstaffed.consuming hmem hattends tally
    refine ⟨_, { x with tally }, ?_, hnow, ?_, hcount⟩
    · rw [World.stepTask_of_sender htask hrunning hjob, hstep]
    · simp [World.advanceSender, hx]
  case stays =>
    intro j w' hstep hleft
    rcases Tended.stepTask ⟨run, hstaffed, hplaced⟩ hjoined hreaches hstep with
      ⟨run', hstaffed', -⟩ | ⟨htriggered, -⟩
    · exact (hleft hstaffed'.stays).elim
    · exact htriggered

/-! ## A service with an event that is due -/

/-- Steps of the tasks with these numbers, one after the other, as long as the sender stays. -/
def World.serviceSteps (w : World) : List Nat → Option World
  | [] => some w
  | j :: js =>
    (w.stepTask j).bind fun v =>
      if (v.member? .sender).all Task.isRunning then v.serviceSteps js else none

theorem serviceRun_of_steps {w w' : World} (js : List Nat) (h : w.serviceSteps js = some w') :
    ServiceRun w w' := by
  induction js generalizing w with
  | nil =>
      cases h
      exact .refl
  | cons j js ih =>
      obtain ⟨v, hstep, hrest⟩ := Option.bind_eq_some_iff.mp h
      split at hrest
      · next hall =>
        refine .head (.task hstep fun t ht => ?_) (ih hrest)
        rw [ht] at hall
        exact hall
      · cases hrest

/-- The settings of a service that has a configuration of its own only for where it publishes. -/
def settingsWith (publish : Broker.PublishSettings) : Settings := { scheduler := { publish } }

theorem supervisorSettings_with (publish : Broker.PublishSettings) :
    ({ publish } : Config).supervisorSettings = .ok (settingsWith publish) := by
  have hhttp : ({ publish } : Config).http.address = .ok ⟨Net.Host.loopback, 8080⟩ := by
    show Config.ServerSection.address { port := Config.defaultHttpPort } = _
    decide +kernel
  have hgrpc : ({ publish } : Config).grpc.address = .ok ⟨Net.Host.loopback, 50051⟩ := by
    show Config.ServerSection.address { port := Config.defaultRpcPort } = _
    decide +kernel
  have hscheduler : Config.schedulerSettings { publish } = { publish } := by
    show ({ interval := 1 * 1000, catchUp := 60 * 1000000000, publish } : Scheduler.Settings) = _
    rfl
  have hdrain : Config.drainSeconds { publish } * 1000 = 5000 := by
    show 5 * 1000 = 5000
    rfl
  rw [Config.supervisorSettings, hhttp, hgrpc, hscheduler, hdrain]
  rfl

section

variable (publish : Broker.PublishSettings)

/-- A supervisor with these settings, at some point of its start. -/
def startingRun (phase : Supervisor.Phase) (children : List (Service.Component × Nat)) : Run where
  settings := settingsWith publish
  phase
  scheduler := 0
  sender := 0
  children

/-- A service with these tasks, over the storage with the event. -/
def dueService (tasks : List Task) : World :=
  { dueWorld.runSupervisor (settingsWith publish) with
    broker := { connected := true, queues := [(Broker.defaultQueue, { settings := {} })] }
    listeners := [⟨Net.Host.loopback, 8080⟩, ⟨Net.Host.loopback, 50051⟩]
    tasks }

def boundService : World :=
  dueService publish
    [{ job := .supervisor
        (startingRun publish (.spawning [.http, .grpc, .scheduler, .sender]) []) }]

def servingService : World :=
  dueService publish
    [{ job := .supervisor
        (startingRun publish (.spawning [.scheduler, .sender]) [(.http, 1), (.grpc, 2)]) },
      { job := .server false, supervised := true },
      { job := .server false, supervised := true }]

/-- The service so long after it began, when everything has been started and the scheduler is at
    some point of its loop. -/
def startedService (clock : Nat) (alarm : Option Nat) (tick : Option (Tick × Scheduler.Stage)) :
    World :=
  let tasks : List Task := [
    { job := .supervisor (startingRun publish .watching
        [(.http, 1), (.grpc, 2), (.scheduler, 3), (.sender, 4)]) },
    { job := .server false, supervised := true },
    { job := .server false, supervised := true },
    { job := .scheduler 0 alarm tick, supervised := true },
    { job := .sender 0 .registering, supervised := true }]
  { dueService publish tasks with clock }

/-- The tick that has found the event. -/
def foundTick : Tick := { dueTick with through := some dueTick.now, report := { due := 1 } }

/-- The scheduler is about to announce the event. -/
def announcingService : World :=
  startedService publish 1000 (some 2000) (some (foundTick, .publishing [dueEvent]))

theorem run_startedService :
    ServiceRun (dueWorld.runSupervisor (settingsWith publish))
      (startedService publish 0 none none) := by
  have hbound : ServiceRun (dueWorld.runSupervisor (settingsWith publish)) (boundService publish) :=
    serviceRun_of_steps [0, 0, 0, 0, 0] rfl
  have hserving : ServiceRun (boundService publish) (servingService publish) :=
    serviceRun_of_steps [0, 0] rfl
  have hstarted : ServiceRun (servingService publish) (startedService publish 0 none none) :=
    serviceRun_of_steps [0, 0, 0] rfl
  exact (hbound.trans hserving).trans hstarted

theorem stepScheduler_waits {w : World} {j cell alarm : Nat} {x : SchedulerCell}
    (hx : w.schedulers[cell]? = some x)
    (halarm : w.firstAlarm? x.settings.interval = some alarm) :
    w.stepScheduler j cell none none = some (w.setJob j (.scheduler cell (some alarm) none)) := by
  simp only [World.stepScheduler, hx, Option.bind_eq_bind, Option.bind_some, halarm]

theorem stepScheduler_begins {w : World} {j cell due next : Nat} {x : SchedulerCell}
    (hx : w.schedulers[cell]? = some x) (hroot : w.root.triggered = false)
    (hstop : x.stop.triggered = false) (hdue : due ≤ w.clock)
    (hnext : w.nextAlarm? due x.settings.interval = some next) :
    w.stepScheduler j cell (some due) none =
      some (w.setJob j (.scheduler cell (some next)
        (some (.begin x.settings x.tally w.wall, .selectingDue)))) := by
  simp [World.stepScheduler, hx, hroot, hstop, hdue, hnext]

theorem run_announcingService :
    ServiceRun (startedService publish 0 none none) (announcingService publish) := by
  have hcell (clock alarm tick) : (startedService publish clock alarm tick).schedulers[0]? =
      some { settings := { publish } } := rfl
  have hwaits : (startedService publish 0 none none).stepTask 3 =
      some (startedService publish 0 (some 1000) none) := by
    have halarm : (startedService publish 0 none none).firstAlarm? 1000 = some 1000 := by
      -- The numbers are large, so they are compared before anything unfolds them.
      show (if 1000 = 0 then none
        else if (86400000 + 0 + 1000) / 1000 < 9223372036854775808 then some (0 + 1000)
        else none) = some 1000
      simp
    exact stepScheduler_waits (hcell 0 none none) halarm
  have hbegins : (startedService publish 1000 (some 1000) none).stepTask 3 =
      some (startedService publish 1000 (some 2000) (some (dueTick, .selectingDue))) := by
    have hnext : (startedService publish 1000 (some 1000) none).nextAlarm? 1000 1000 =
        some 2000 := by
      have hlater : (startedService publish 1000 (some 1000) none).after? 1000 1000 =
          some 2000 := by
        show (if (86400000 + 1000 + 1000) / 1000 < 9223372036854775808 then some (1000 + 1000)
          else none) = some 2000
        simp
      have hpunctual : ¬1000 + 5 < (startedService publish 1000 (some 1000) none).clock := by
        show ¬1000 + 5 < 1000
        omega
      rw [World.nextAlarm?, if_neg hpunctual, hlater, Option.some_or]
    exact stepScheduler_begins (hcell 1000 (some 1000) none) rfl rfl le_rfl hnext
  have hselects : (startedService publish 1000 (some 2000)
      (some (dueTick, .selectingDue))).stepTask 3 = some (announcingService publish) := by
    let w : World := startedService publish 1000 (some 2000) (some (dueTick, .selectingDue))
    let inside : World := { w with gate := w.gate.enter (.task 3) .read }
    have hwindow : dueTick.hasWindow = true := by decide
    have hpasses : w.Passes 3 (World.accessOf dueTick .selectingDue) inside := by
      rw [World.accessOf, if_pos hwindow]
      exact ⟨rfl, rfl⟩
    have hfinds : ((w.scheduler { publish }).step dueTick .selectingDue).perform inside =
        (.ok (foundTick, some (.publishing [dueEvent])), inside) := dueTick_finds rfl rfl rfl
    exact World.stepScheduler_works (hcell 1000 (some 2000) (some (dueTick, .selectingDue)))
      hpasses hfinds
  have hstays (clock alarm tick) : (startedService publish clock alarm tick).SenderStays := by
    rintro t ht
    cases ht
    rfl
  have hlater : ServiceStep (startedService publish 0 (some 1000) none)
      (startedService publish 1000 (some 1000) none) :=
    .others rfl rfl rfl rfl rfl id
  exact .head (.task hwaits (hstays _ _ _)) (.head hlater
    (.head (.task hbegins (hstays _ _ _)) (.single (.task hselects (hstays _ _ _)))))

theorem run_toAnnouncing :
    ServiceRun (dueWorld.runSupervisor (settingsWith publish)) (announcingService publish) :=
  (run_startedService publish).trans (run_announcingService publish)

end

theorem dueWorld_fresh : dueWorld.Fresh := ⟨rfl, rfl, fun _ => rfl⟩

/-! ## Validated configurations -/

/-- A validated configuration that publishes over the default exchange delivers: at every point of
    every run, until the sender leaves. -/
theorem validated_configuration_delivers {c : Config} (hvalid : c.validate = .ok ())
    (hexchange : c.publish.exchange = "") :
    ∃ settings, c.supervisorSettings = .ok settings ∧
      ∀ base w : World, base.Fresh → ServiceRun (base.runSupervisor settings) w → w.Delivers c := by
  obtain ⟨settings, hsettings, hqueue, hpublish, hjoined, hreaches⟩ :=
    Config.settings_of_validate hvalid
  refine ⟨settings, hsettings, fun base w hfresh hrun => ?_⟩
  have htended : Tended settings w := (Tended.start hfresh settings).run hjoined hreaches hrun
  exact htended.delivers hjoined hreaches hqueue hpublish hexchange

/-- The service with the default configuration delivers the event. -/
theorem dueEvent_delivered :
    ({} : Config).validate = .ok () ∧ ({} : Config).publish.exchange = "" ∧
      ∃ body w' tick waiting, dueEvent.announcement.encode = .ok body ∧
        (announcingService {}).Awaits Broker.defaultQueue waiting ∧
        (announcingService {}).stepTask 3 = some w' ∧
        w'.task? 3 = some
          { job := .scheduler 0 (some 2000) (some (tick, .publishing [])), supervised := true } ∧
        tick.report = { due := 1, published := 1 } ∧
        w'.Awaits Broker.defaultQueue (waiting ++ [Broker.State.message {} body]) := by
  obtain ⟨body, hencode⟩ := dueEvent_encodes
  obtain ⟨settings, hsettings, hdelivers⟩ :=
    validated_configuration_delivers (c := {}) rfl rfl
  obtain rfl := Except.ok.inj ((supervisorSettings_with {}).symm.trans hsettings)
  obtain ⟨w', tick, waiting, hbefore, hstep, htask, hreport, hafter⟩ :=
    (hdelivers dueWorld _ dueWorld_fresh (run_toAnnouncing {})).publishes 3 _ 0 (some 2000)
      foundTick dueEvent [] body rfl rfl rfl hencode
  exact ⟨rfl, rfl, body, w', tick, waiting, hencode, hbefore, hstep, htask, hreport, hafter⟩

/-- With any other exchange a validated configuration delivers nothing: what the scheduler
    publishes leaves the broker as it was, and still counts as published unless it is mandatory. -/
theorem published_elsewhere_is_lost {c : Config} (hvalid : c.validate = .ok ())
    (hexchange : c.publish.exchange ≠ "") :
    ∃ settings, c.supervisorSettings = .ok settings ∧
      ∀ base w : World, base.Fresh → ServiceRun (base.runSupervisor settings) w →
        ∀ j t cell alarm (tick : Tick) (e : Event) due body, w.task? j = some t →
          t.isRunning = true →
          t.job = .scheduler cell alarm (some (tick, .publishing (e :: due))) →
          e.announcement.encode = .ok body → ∃ w' tick',
            w.stepTask j = some w' ∧ w'.broker = w.broker ∧
            w'.task? j = some
              { t with job := .scheduler cell alarm (some (tick', .publishing due)) } ∧
            tick'.report.published =
              tick.report.published + if c.publish.mandatory then 0 else 1 := by
  obtain ⟨settings, hsettings, hqueue, hpublish, hjoined, hreaches⟩ :=
    Config.settings_of_validate hvalid
  refine ⟨settings, hsettings, fun base w hfresh hrun => ?_⟩
  intro j t cell alarm tick e due body htask hrunning hjob hencode
  obtain ⟨run, hstaffed, hplaced⟩ := (Tended.start hfresh settings).run hjoined hreaches hrun
  obtain ⟨hmem, -⟩ := hstaffed.of_scheduler htask hjob
  obtain ⟨waiting, hawaits⟩ := (hstaffed.placed_iff hmem).mp hplaced
  rw [← hpublish] at hexchange ⊢
  obtain ⟨w', tick', hstep, hbroker, -, htick, htask'⟩ :=
    hstaffed.stepTask_publishing htask hrunning hjob hencode
      (hawaits.publish_elsewhere hexchange body)
  refine ⟨w', tick', hstep, hbroker, htask', ?_⟩
  rw [htick]
  cases settings.scheduler.publish.mandatory <;> rfl

/-- A configuration that names an exchange. -/
def elsewhere : Config := { publish := { exchange := "x" } }

/-- That configuration is valid, but the event reaches no queue, and is counted as published. -/
theorem elsewhere_loses_event :
    elsewhere.validate = .ok () ∧
      elsewhere.supervisorSettings = .ok (settingsWith elsewhere.publish) ∧ dueWorld.Fresh ∧
      ServiceRun (dueWorld.runSupervisor (settingsWith elsewhere.publish))
        (announcingService elsewhere.publish) ∧
      (∃ body, dueEvent.announcement.encode = .ok body) ∧
      ∃ w' tick, (announcingService elsewhere.publish).stepTask 3 = some w' ∧
        w'.broker.queues = [(elsewhere.queue.name, { settings := elsewhere.queue })] ∧
        w'.task? 3 = some
          { job := .scheduler 0 (some 2000) (some (tick, .publishing [])), supervised := true } ∧
        tick.report.published = 1 := by
  have hvalid : elsewhere.validate = .ok () := rfl
  have hsettings := supervisorSettings_with elsewhere.publish
  have hrun := run_toAnnouncing elsewhere.publish
  obtain ⟨body, hencode⟩ := dueEvent_encodes
  obtain ⟨settings, hsettings', hlost⟩ :=
    published_elsewhere_is_lost (c := elsewhere) hvalid (by decide)
  obtain rfl := Except.ok.inj (hsettings.symm.trans hsettings')
  obtain ⟨w', tick, hstep, hbroker, htask, hcount⟩ :=
    hlost dueWorld _ dueWorld_fresh hrun 3 _ 0 (some 2000) foundTick dueEvent [] body rfl rfl rfl
      hencode
  refine ⟨hvalid, hsettings, dueWorld_fresh, hrun, ⟨body, hencode⟩, w', tick, hstep, ?_, htask,
    hcount⟩
  rw [hbroker]
  rfl

end Rehearsal

end Almanac
