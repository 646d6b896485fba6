/-
  Almanac.Proofs.Rehearsal.BrokerLast

  The broker outlives its users. A supervisor starts the broker before it starts anything else
  and stops it when everything else has ended; so as long as nobody else connects or
  disconnects the broker, and no component has to be aborted, the broker is connected whenever
  a component can make a step, and it is not when the supervisor has ended
  (`broker_outlives_users`).
-/
import Almanac.Proofs.Rehearsal.Calm
import Almanac.Proofs.Rehearsal.Hosted
import Mathlib.Data.List.Infix
import Mathlib.Logic.Relation

namespace Almanac.Rehearsal

open Service (Component)
open Supervisor (Advance Deed Ending Phase Teardown teardown)

namespace World

variable {w w' v : World} {i j : Nat} {t : Task}

/-! ## Being served -/

/-- Whether the broker is the one in memory, but for faults of declaring a queue. -/
def Spared (w : World) : Prop := ∀ call, call ≠ .declare → w.faults.broker call = none

theorem Spared.of_faults (h : w.Spared) (hfaults : v.faults = w.faults) : v.Spared := by
  rw [Spared, hfaults]
  exact h

/-- Calls without a fault are calls of the broker in memory. -/
theorem serves_of_answer {α : Type} {fault : World → Option (Fault Broker.Error)}
    {f : Broker.State Bytes → Broker.Outcome Bytes α} (hfault : fault w = none)
    (hanswer : (f w.broker).1 ≠ .error .notConnected) :
    Broker.Serves (struck fault (Action.zoom World.broker (fun b v => { v with broker := b })
      (Action.update f))) w := by
  rw [Broker.Serves, perform_struck, hfault]
  exact fun h => hanswer (Except.ok.inj h)

theorem serves_publish (hspared : w.Spared) (hconnected : w.broker.connected = true)
    (settings : Broker.PublishSettings) (body : Bytes) :
    Broker.Serves (client.publish settings body) w := by
  have hfault := Faults.ofPublishing_eq_none (hspared .publish (by decide)) body
  exact serves_of_answer (f := fun b => b.publish settings body) hfault
    (Broker.State.publish_answer hconnected settings body)

theorem serves_consume (hspared : w.Spared) (hconnected : w.broker.connected = true)
    (settings : Broker.ConsumeSettings) : Broker.Serves (client.consume settings) w :=
  serves_of_answer (f := fun b => b.consume settings) (hspared .consume (by decide))
    (Broker.State.consume_answer hconnected settings)

theorem serves_ack (hconnected : w.broker.connected = true) (tag : Nat) (multiple : Bool) :
    Broker.Serves (client.ack tag multiple) w :=
  fun h => Broker.State.ack_answer hconnected tag multiple (Except.ok.inj h)

/-- What the broker is to the next step of a task: it is connected, and a scheduler or a sender
    makes the same step over a broker that crashes in place of answering that it is not. -/
structure Served (w : World) (t : Task) : Prop where
  connected : w.broker.connected = true
  ticks : ∀ cell alarm tick stage, t.job = .scheduler cell alarm (some (tick, stage)) →
    ∀ settings gate,
      ((w.scheduler settings).strict.step tick stage).perform { w with gate } =
        ((w.scheduler settings).step tick stage).perform { w with gate }
  sends : ∀ cell stage, t.job = .sender cell stage → ∀ settings tally,
    ((sender cell settings).strict.step tally stage).perform w =
      ((sender cell settings).step tally stage).perform w

theorem served (hspared : w.Spared) (hconnected : w.broker.connected = true) (t : Task) :
    w.Served t where
  connected := hconnected
  ticks _ _ tick stage _ settings gate := by
    let inside : World := { w with gate }
    have hspared' : inside.Spared := hspared
    exact Scheduler.step_strict _ (w := inside) (serves_publish hspared' hconnected) tick stage
  sends cell stage _ settings tally := by
    -- Whatever the sender does before it acknowledges is calm.
    have hconsume : ∀ v, Calm w v → Broker.Serves (client.consume settings) v := fun v h =>
      serves_consume (hspared.of_faults h.faults) (h.connected.trans hconnected) settings
    have hack : ∀ tag v, Calm w v → Broker.Serves (client.ack tag false) v := fun tag v h =>
      serves_ack (h.connected.trans hconnected) tag false
    exact Sender.step_strict _ hconsume hack (fun c => keeps_receive c w) (.look _ _) (.refl w)
      tally stage

end World

/-! ## The phases of a supervisor -/

/-- Whether the broker is connected in a phase, from the start of the broker on. -/
def holdsBroker : Phase → Bool
  | .starting | .ended _ => false
  | .closing steps _ _ => !steps.isEmpty
  | _ => true

/-- Whether a component may be running in a phase. In the teardown it has to be waited for yet. -/
def mayRun (c : Component) : Phase → Prop
  | .spawning _ | .watching => True
  | .closing steps _ _ => .join c ∈ steps
  | _ => False

/-- A component that may be running has a broker. -/
theorem holdsBroker_of_mayRun {c : Component} {phase : Phase} (h : mayRun c phase) :
    holdsBroker phase = true := by
  cases phase with
  | closing steps awaiting report =>
      cases steps with
      | nil => cases h
      | cons step rest => rfl
  | spawning components => rfl
  | watching => rfl
  | _ => cases h

theorem eq_nil_of_stopBroker {rest : List Teardown} (h : .stopBroker :: rest <:+ teardown) :
    rest = [] := by
  simpa [teardown, List.tails] using (List.mem_tails _ _).mpr h

theorem ne_nil_of_step {step : Teardown} {rest : List Teardown} (h : step :: rest <:+ teardown)
    (hstep : step ≠ .stopBroker) : rest ≠ [] := by
  rintro rfl
  have hlast := h.getLast (by simp)
  exact hstep (hlast.trans rfl)

/-- The components that a run has spawned, with those that it is about to spawn. -/
def Run.Manned (run : Run) (pending : List Component) : Prop :=
  run.children.map Prod.fst ++ pending =
    [.http, .grpc, .scheduler, .sender].filter run.settings.enables

/-- A run has the components that belong to its phase. -/
def Run.Fits (run : Run) : Prop :=
  match run.phase with
  | .starting | .declaring | .binding _ | .abandoning _ => run.children = []
  | .spawning components => run.Manned components
  | .watching => run.Manned []
  | .closing steps awaiting _ =>
    run.Manned [] ∧ steps <:+ teardown ∧ ∀ deadline, awaiting ≠ .broker deadline
  | .ended _ => True

namespace Run.Manned

variable {run : Run} {pending : List Component} (h : run.Manned pending)
include h

/-- Only what is enabled is spawned. -/
theorem enables {x : Component × Nat} (hx : x ∈ run.children) :
    run.settings.enables x.1 = true := by
  have hmem : x.1 ∈ run.children.map Prod.fst ++ pending :=
    List.mem_append_left _ (List.mem_map_of_mem hx)
  rw [h] at hmem
  exact (List.mem_filter.mp hmem).2

/-- A component has one task. -/
theorem unique {x y : Component × Nat} (hx : x ∈ run.children) (hy : y ∈ run.children)
    (hsame : x.1 = y.1) : x = y := by
  have hnodup : (run.children.map Prod.fst ++ pending).Nodup := by
    rw [h]
    exact List.Nodup.filter _ (by decide)
  exact List.inj_on_of_nodup_map hnodup.of_append_left hx hy hsame

end Run.Manned

namespace World

variable {w w' v : World} {i j : Nat} {run : Run}

/-! ## Calls of a supervisor -/

theorem calm_of_declare {settings : Broker.QueueSettings}
    {answer : Except Stall (Except Broker.Error Unit)}
    (hcall : (client.declare settings).perform w = (answer, v)) : Calm w v := by
  rcases declare_cases hcall with ⟨-, rfl⟩ | ⟨-, rfl, -⟩
  · exact ⟨rfl, rfl, rfl, w.broker.connected_perform (.declare settings)⟩
  · exact .refl v

theorem calm_of_bind {c : Component} {a : Net.Address}
    {answer : Except Stall (Except Service.Error Unit)}
    (hcall : ((host i).bind c a).perform w = (answer, v)) : Calm w v := by
  obtain ⟨-, rfl⟩ := bind_perform hcall
  unfold World.bind
  split
  · exact .refl w
  · exact ⟨rfl, rfl, rfl, rfl⟩

theorem connected_of_start {answer : Except Stall (Except Broker.Error Unit)}
    (hspared : w.Spared) (hcall : client.start.perform w = (answer, v)) :
    answer = .ok (.ok ()) ∧ v.tasks = w.tasks ∧ v.faults = w.faults ∧
      v.broker.connected = true := by
  rcases start_cases hcall with ⟨hanswer, rfl⟩ | ⟨hfault, -⟩
  · exact ⟨hanswer, rfl, rfl, rfl⟩
  · exact (hfault (hspared .start (by decide))).elim

theorem disconnected_of_stop {answer : Except Stall (Except Broker.Error Unit)}
    (hspared : w.Spared) (hcall : client.stop.perform w = (answer, v)) :
    answer = .ok (.ok ()) ∧ v.tasks = w.tasks ∧ v.faults = w.faults ∧
      v.broker.connected = false := by
  rcases stop_cases hcall with ⟨hanswer, rfl⟩ | ⟨hfault, -⟩
  · exact ⟨hanswer, rfl, rfl, w.broker.connected_perform .stop⟩
  · exact (hfault (hspared .stop (by decide))).elim

/-! ## What a run keeps -/

/-- No component that is waited for takes too long to end. -/
def InTime (i : Nat) (w : World) : Prop :=
  ∀ run c rest deadline report, w.run? i = some run →
    run.phase = .closing (.join c :: rest) (.task deadline) report →
      w.childEnding i c = none → w.clock < deadline

/-- A supervisor whose run is where it should be, with a broker that is connected whenever it
    should be. -/
structure Kept (i : Nat) (w : World) (run : Run) : Prop where
  run? : w.run? i = some run
  spared : w.Spared
  fits : run.Fits
  broker : run.phase ≠ .starting → w.broker.connected = holdsBroker run.phase
  /-- The components are no supervisors, and run only when they may. -/
  children : ∀ c child, (c, child) ∈ run.children → ∃ t, w.task? child = some t ∧
    t.job.isLeaf = true ∧ (t.isRunning = true → mayRun c run.phase)

/-- There is such a supervisor. -/
def Orderly (i : Nat) (w : World) : Prop := ∃ run, Kept i w run

namespace Kept

/-- Others have done something. -/
theorem keep (h : Kept i w run) (hretains : w.Retains v) (hspared : v.Spared)
    (hbroker : run.phase ≠ .starting → v.broker.connected = w.broker.connected) :
    Kept i v run where
  run? := hretains.run? h.run?
  spared := hspared
  fits := h.fits
  broker hphase := (hbroker hphase).trans (h.broker hphase)
  children c child hmem := by
    obtain ⟨t, htask, hleaf, hrunning⟩ := h.children c child hmem
    obtain ⟨t', htask', hfollows⟩ := hretains child t htask
    exact ⟨t', htask', hfollows.isLeaf hleaf, fun h => hrunning (hfollows.running h)⟩

theorem finish (h : Kept i w run) (j : Nat) (how : Ending) : Kept i (w.finish j how) run :=
  h.keep (Alike.finish w j how).retains (h.spared.of_faults (w.faults_finish j how)) fun _ =>
    congrArg _ (w.broker_finish j how)

/-- The supervisor has come to another phase. -/
theorem moved (h : Kept i w run) (hretains : w.Retains v) (hfaults : v.faults = w.faults)
    {phase : Phase} (hfits : { run with phase : Run }.Fits)
    (hbroker : phase ≠ .starting → v.broker.connected = holdsBroker phase)
    (hmay : ∀ c child t, (c, child) ∈ run.children → w.task? child = some t →
      t.isRunning = true → mayRun c run.phase → mayRun c phase) :
    Orderly i (v.setPhase i phase) := by
  have hrun : v.run? i = some run := hretains.run? h.run?
  obtain ⟨ts, htask, -⟩ := run?_eq_some.mp hrun
  rw [setPhase_eq hrun]
  refine ⟨{ run with phase }, run?_eq_some.mpr ⟨_, task?_setJob htask _, rfl⟩,
    h.spared.of_faults hfaults, hfits, hbroker, fun c child hmem => ?_⟩
  obtain ⟨t, htask, hleaf, hrunning⟩ := h.children c child hmem
  obtain ⟨t', htask', hfollows⟩ := hretains child t htask
  have hne : i ≠ child := ne_of_isLeaf hrun htask' (hfollows.isLeaf hleaf)
  refine ⟨t', (task?_setJob_ne hne _).trans htask', hfollows.isLeaf hleaf, fun h => ?_⟩
  have hwas := hfollows.running h
  exact hmay c child t hmem htask hwas (hrunning hwas)

/-- The supervisor has started the task of a component. -/
theorem spawned (h : Kept i w run) {c : Component} {components : List Component}
    (hphase : run.phase = .spawning (c :: components)) :
    Orderly i ((w.spawnChild i c).setPhase i (.spawning components)) := by
  obtain ⟨new, hnew, -, -, heq⟩ := spawnChild_eq h.run? c
  obtain ⟨ts, htask, -⟩ := run?_eq_some.mp h.run?
  let u : World := w.setJob i (.supervisor { run with
    children := run.children ++ [(c, w.tasks.length)] })
  have hlength : u.tasks.length = w.tasks.length := List.length_modify ..
  -- The new task is behind the others, and those are as they were.
  have hold : ∀ k t, w.task? k = some t → i ≠ k → (u.spawn new).task? k = some t := by
    intro k t htask hne
    refine (List.getElem?_append_left (hlength ▸ lt_of_task? htask)).trans ?_
    exact (task?_setJob_ne hne _).trans htask
  have hbehind : (u.spawn new).task? w.tasks.length = some new := by
    rw [← hlength]
    exact List.getElem?_concat_length
  have hrun : (u.spawn new).run? i =
      some { run with children := run.children ++ [(c, w.tasks.length)] } :=
    run?_eq_some.mpr ⟨_, (List.getElem?_append_left (hlength ▸ lt_of_task? htask)).trans
      (task?_setJob htask _), rfl⟩
  rw [heq, setPhase_eq hrun]
  obtain ⟨ts', htask', -⟩ := run?_eq_some.mp hrun
  have hfits : run.Manned (c :: components) := by
    have hfits := h.fits
    rwa [Run.Fits, hphase] at hfits
  refine ⟨_, run?_eq_some.mpr ⟨_, task?_setJob htask' _, rfl⟩, h.spared, ?_, fun _ => ?_,
    fun c' child hmem => ?_⟩
  · simpa [Run.Fits, Run.Manned] using hfits
  · have hbroker := h.broker (by simp [hphase])
    rw [hphase] at hbroker
    exact hbroker
  · rcases List.mem_append.mp hmem with hmem | hmem
    · obtain ⟨t, htask, hleaf, -⟩ := h.children c' child hmem
      have hne : i ≠ child := ne_of_isLeaf h.run? htask hleaf
      exact ⟨t, (task?_setJob_ne hne _).trans (hold child t htask hne), hleaf, fun _ => trivial⟩
    · obtain ⟨rfl, rfl⟩ := Prod.mk.inj (List.mem_singleton.mp hmem)
      have hne : i ≠ w.tasks.length := (lt_of_task? htask).ne
      exact ⟨new, (task?_setJob_ne hne _).trans hbehind, hnew, fun _ => trivial⟩

/-! ### The steps of the supervisor -/

variable {phase : Phase} {step : Teardown} {rest : List Teardown}
  {awaiting : Supervisor.Awaiting} {report : Supervisor.Report}

theorem fitsAt (h : Kept i w run) (hphase : run.phase = phase) : { run with phase : Run }.Fits := by
  rw [← hphase]
  exact h.fits

theorem brokerAt (h : Kept i w run) (hphase : run.phase = phase) (hbegun : phase ≠ .starting) :
    w.broker.connected = holdsBroker phase := by
  rw [← hphase] at hbegun ⊢
  exact h.broker hbegun

/-- A step of the teardown is over. Nobody runs who has been waited for. -/
theorem stepped (h : Kept i w run) (hphase : run.phase = .closing (step :: rest) awaiting report)
    (hretains : w.Retains v) (hfaults : v.faults = w.faults)
    (hbroker : v.broker.connected = !rest.isEmpty)
    (hdone : ∀ c child t, step = .join c → (c, child) ∈ run.children → w.task? child = some t →
      t.isRunning = false) (report' : Supervisor.Report) :
    Orderly i (v.setPhase i (.closing rest .nothing report')) := by
  obtain ⟨hmanned, hsuffix, -⟩ := h.fitsAt hphase
  refine h.moved hretains hfaults ⟨hmanned, (List.suffix_cons step rest).trans hsuffix, by simp⟩
    (fun _ => hbroker) fun c child t hmem htask hrunning hmay => ?_
  rw [hphase] at hmay
  rcases List.mem_cons.mp hmay with hjoin | hrest
  · rw [hdone c child t hjoin.symm hmem htask] at hrunning
    cases hrunning
  · exact hrest

/-- Until the broker is stopped there is a step left. -/
theorem connected_of_step (h : Kept i w run)
    (hphase : run.phase = .closing (step :: rest) awaiting report) (hstep : step ≠ .stopBroker) :
    w.broker.connected = !rest.isEmpty := by
  obtain ⟨-, hsuffix, -⟩ := h.fitsAt hphase
  rw [h.brokerAt hphase (by simp)]
  simp [holdsBroker, ne_nil_of_step hsuffix hstep]

/-- Asking a component to end is no more than that. -/
theorem retains_stopChild (h : Kept i w run) (c : Component) :
    w.Retains (w.stopChild i c) ∧ (w.stopChild i c).faults = w.faults ∧
      (w.stopChild i c).broker = w.broker := by
  unfold stopChild
  split
  · exact ⟨(Alike.of_tasks rfl).retains, rfl, rfl⟩
  · exact ⟨(Alike.of_tasks rfl).retains, rfl, rfl⟩
  · split
    · next child hchild =>
      refine ⟨(Alike.setJob (fun t htask => ?_) rfl).retains, rfl, rfl⟩
      obtain ⟨run', hrun', hmem⟩ := child?_eq_some hchild
      obtain rfl := Option.some.inj (h.run?.symm.trans hrun')
      obtain ⟨t', htask', hleaf, -⟩ := h.children _ child hmem
      rwa [Option.some.inj (htask.symm.trans htask')]
    · exact ⟨(Alike.of_tasks rfl).retains, rfl, rfl⟩

/-- A component that has ended does not run. -/
theorem done_of_childEnding (h : Kept i w run) {pending : List Component}
    (hmanned : run.Manned pending) {c : Component} {how : Ending}
    (hending : w.childEnding i c = some how) {child : Nat} {t : Task}
    (hmem : (c, child) ∈ run.children) (htask : w.task? child = some t) : t.isRunning = false := by
  obtain ⟨run', child', t', hrun', hmem', htask', hstatus⟩ := childEnding_eq_some hending
  obtain rfl := Option.some.inj (h.run?.symm.trans hrun')
  obtain ⟨-, rfl⟩ := Prod.mk.inj (hmanned.unique hmem hmem' rfl)
  obtain rfl := Option.some.inj (htask.symm.trans htask')
  rw [Task.isRunning, hstatus]

/-- A supervisor that has no components yet has come to another phase, calmly. -/
theorem movedAlone (h : Kept i w run) (hchildren : run.children = []) (hcalm : Calm w v)
    (hfits : { run with phase : Run }.Fits) (hbroker : w.broker.connected = holdsBroker phase) :
    Orderly i (v.setPhase i phase) :=
  h.moved (Alike.of_tasks hcalm.tasks).retains hcalm.faults hfits
    (fun _ => hcalm.connected.trans hbroker) (by simp [hchildren])

/-- A step of the teardown: there are others until the broker is stopped. -/
theorem closing (h : Kept i w run) (htime : InTime i w) {steps : List Teardown}
    (hphase : run.phase = .closing steps awaiting report) {deed : Option Deed}
    (hadvance : Advance (host i) run.settings w (.closing steps awaiting report) deed phase v) :
    Orderly i (v.setPhase i phase) := by
  cases hadvance with
  | asked hcall =>
      obtain rfl := stop_perform hcall
      obtain ⟨hretains, hfaults, hbroker⟩ := h.retains_stopChild _
      have hconnected := h.connected_of_step hphase (by simp)
      exact h.stepped hphase hretains hfaults (by rw [hbroker, hconnected]) (by simp) _
  | absent henabled =>
      have hmanned : run.Manned [] := (h.fitsAt hphase).1
      refine h.stepped hphase (Alike.of_tasks rfl).retains rfl
        (h.connected_of_step hphase (by simp)) (fun c child t hjoin hmem _ => ?_) _
      obtain rfl := Teardown.join.inj hjoin
      rw [hmanned.enables hmem] at henabled
      cases henabled
  | joined henabled hcall =>
      obtain ⟨hending, rfl⟩ := ending_perform hcall
      have hmanned : run.Manned [] := (h.fitsAt hphase).1
      refine h.stepped hphase (Alike.of_tasks rfl).retains rfl
        (h.connected_of_step hphase (by simp)) (fun c child t hjoin hmem htask => ?_) _
      obtain rfl := Teardown.join.inj hjoin
      exact h.done_of_childEnding hmanned hending hmem htask
  | overdue henabled hcall hclock hlate habort =>
      obtain ⟨hending, rfl⟩ := ending_perform hcall
      obtain ⟨rfl, rfl⟩ := clock_perform hclock
      exact absurd (htime run _ _ _ _ h.run? hphase hending) (Nat.not_lt.mpr hlate)
  | awaited henabled hcall hclock hnew =>
      obtain ⟨-, rfl⟩ := ending_perform hcall
      obtain ⟨-, rfl⟩ := clock_perform hclock
      have hbroker := h.brokerAt hphase (by simp)
      obtain ⟨hmanned, hsuffix, -⟩ := h.fitsAt hphase
      refine h.moved (Alike.of_tasks rfl).retains rfl ⟨hmanned, hsuffix, by simp⟩
        (fun _ => hbroker) fun c child t _ _ _ hmay => ?_
      rwa [hphase] at hmay
  | brokerStopped hclock hnew hcall =>
      obtain ⟨-, rfl⟩ := clock_perform hclock
      obtain ⟨-, htasks, hfaults, hstopped⟩ := disconnected_of_stop h.spared hcall
      obtain ⟨-, hsuffix, -⟩ := h.fitsAt hphase
      obtain rfl := eq_nil_of_stopBroker hsuffix
      exact h.stepped hphase (Alike.of_tasks htasks).retains hfaults hstopped (by simp) _
  | brokerRefused hclock hnew hcall =>
      obtain ⟨-, rfl⟩ := clock_perform hclock
      cases (disconnected_of_stop h.spared hcall).1
  | brokerAwaited hclock hnew hcall =>
      obtain ⟨-, rfl⟩ := clock_perform hclock
      cases (disconnected_of_stop h.spared hcall).1
  | brokerOverdue hclock hlate =>
      obtain ⟨-, -, hnot⟩ := h.fitsAt hphase
      exact (hnot _ rfl).elim
  | reported =>
      have hbroker := h.brokerAt hphase (by simp)
      refine h.moved (Alike.of_tasks rfl).retains rfl trivial (fun _ => hbroker)
        fun c child t _ _ _ hmay => ?_
      rw [hphase] at hmay
      cases hmay

/-- A step that advances the supervisor leaves it and its broker as they should be. -/
theorem advance (h : Kept i w run) (htime : InTime i w) {deed : Option Deed}
    (hadvance : Advance (host i) run.settings w run.phase deed phase v) :
    Orderly i (v.setPhase i phase) := by
  generalize hphase : run.phase = before at hadvance
  cases before with
  | starting =>
      have hchildren : run.children = [] := h.fitsAt hphase
      cases hadvance with
      | started hcall =>
          obtain ⟨-, htasks, hfaults, hstarted⟩ := connected_of_start h.spared hcall
          exact h.moved (Alike.of_tasks htasks).retains hfaults hchildren (fun _ => hstarted)
            (by simp [hchildren])
      | notStarted hcall => cases (connected_of_start h.spared hcall).1
  -- There are no components yet, and the broker stays connected.
  | declaring =>
      have hbroker := h.brokerAt hphase (by simp)
      have hchildren : run.children = [] := h.fitsAt hphase
      cases hadvance with
      | declared hcall =>
          exact h.movedAlone hchildren (calm_of_declare hcall) hchildren hbroker
      | notDeclared hcall =>
          exact h.movedAlone hchildren (calm_of_declare hcall) hchildren hbroker
  | binding servers =>
      have hbroker := h.brokerAt hphase (by simp)
      have hchildren : run.children = [] := h.fitsAt hphase
      cases hadvance with
      | bound hcall => exact h.movedAlone hchildren (calm_of_bind hcall) hchildren hbroker
      | notBound hcall => exact h.movedAlone hchildren (calm_of_bind hcall) hchildren hbroker
      | allBound =>
          refine h.movedAlone hchildren (.refl w) ?_ hbroker
          simp [Run.Fits, Run.Manned, hchildren]
  | abandoning cause =>
      have hchildren : run.children = [] := h.fitsAt hphase
      cases hadvance with
      | abandoned hcall =>
          obtain ⟨-, htasks, hfaults, hstopped⟩ := disconnected_of_stop h.spared hcall
          exact h.moved (Alike.of_tasks htasks).retains hfaults trivial (fun _ => hstopped)
            (by simp [hchildren])
  -- The components are started, and run until they are waited for.
  | spawning components =>
      cases hadvance with
      | spawned hcall =>
          obtain rfl := spawn_perform hcall
          exact h.spawned hphase
      | allSpawned =>
          have hbroker := h.brokerAt hphase (by simp)
          have hmanned : run.Manned [] := h.fitsAt hphase
          exact h.moved (Alike.of_tasks rfl).retains rfl hmanned (fun _ => hbroker)
            fun _ _ _ _ _ _ _ => trivial
  | watching =>
      cases hadvance with
      | signalled hcall =>
          obtain ⟨-, rfl⟩ := shutdown_perform hcall
          have hbroker := h.brokerAt hphase (by simp)
          have hmanned : run.Manned [] := h.fitsAt hphase
          refine h.moved (Alike.of_tasks rfl).retains rfl ⟨hmanned, List.suffix_rfl, by simp⟩
            (fun _ => hbroker) fun c _ _ _ _ _ _ => ?_
          cases c <;> simp [mayRun, teardown]
  | closing steps awaiting report => exact h.closing htime hphase hadvance
  | ended outcome => cases hadvance

end Kept

theorem Orderly.conclude (h : Orderly i w) (phase : Phase) : Orderly i (w.conclude i phase) := by
  obtain ⟨run, hkept⟩ := h
  unfold World.conclude
  split
  · exact ⟨run, hkept.finish i _⟩
  · exact ⟨run, hkept.finish i _⟩
  · exact ⟨run, hkept⟩

/-- Whatever comes of a step of the supervisor, it leaves things as they should be. -/
theorem Kept.stepSupervisor (h : Kept i w run) (htime : InTime i w)
    (hstep : w.stepSupervisor i run = some w') : Orderly i w' := by
  rcases stepSupervisor_cases hstep with ⟨deed, phase, v, hadvance, rfl⟩ | ⟨stall, -, rfl | rfl⟩
  · exact (h.advance htime hadvance).conclude phase
  · exact ⟨run, h.keep (Alike.block w i).retains h.spared fun _ => rfl⟩
  · exact ⟨run, h.finish i _⟩

/-! ## What a step of another task keeps -/

theorem Effect.spared (h : Effect w j w') (hspared : w.Spared) :
    w'.Spared ∧ w'.broker.connected = w.broker.connected := by
  cases h with
  | none hcalm => exact ⟨hspared.of_faults hcalm.faults, hcalm.connected⟩
  | goesOn hcalm _ => exact ⟨hspared.of_faults hcalm.faults, hcalm.connected⟩
  | hangs hcalm => exact ⟨hspared.of_faults hcalm.faults, hcalm.connected⟩
  | ends hcalm =>
      refine ⟨hspared.of_faults ((faults_finish ..).trans hcalm.faults), ?_⟩
      rw [broker_finish, hcalm.connected]
  | leaves hcalm _ =>
      refine ⟨hspared.of_faults ((faults_finish ..).trans hcalm.faults), ?_⟩
      rw [broker_finish]
      exact hcalm.connected

end World

/-! ## Runs -/

/-- What can happen next, while a supervisor runs over a broker that nobody else starts or stops,
    and no component keeps it waiting for too long. -/
inductive OrderlyStep (i : Nat) (w : World) : World → Prop
  /-- The supervisor makes a step. -/
  | supervisor {w' : World} (htime : World.InTime i w) (hstep : w.stepTask i = some w') :
      OrderlyStep i w w'
  /-- A task that is no supervisor makes a step. -/
  | task {j : Nat} {t : Task} {w' : World} (htask : w.task? j = some t)
      (hleaf : t.job.isLeaf = true) (hstep : w.stepTask j = some w') : OrderlyStep i w w'
  /-- A task that is no supervisor ends, for reasons of its own. -/
  | ends {j : Nat} {t : Task} (how : Ending) (htask : w.task? j = some t)
      (hleaf : t.job.isLeaf = true) (hrunning : t.isRunning = true) :
      OrderlyStep i w (w.finish j how)
  /-- Others change what they like, and may start tasks. From the start of the broker on they
      neither connect nor disconnect it. -/
  | others {w' : World} (new : List Task) (htasks : w'.tasks = w.tasks ++ new)
      (hspared : w'.Spared)
      (hbroker : ∀ run, w.run? i = some run → run.phase ≠ .starting →
        w'.broker.connected = w.broker.connected) :
      OrderlyStep i w w'

def OrderlyRun (i : Nat) : World → World → Prop := Relation.ReflTransGen (OrderlyStep i)

namespace World

variable {w w' base : World} {i : Nat}

theorem Orderly.step (h : Orderly i w) (hstep : OrderlyStep i w w') : Orderly i w' := by
  obtain ⟨run, hkept⟩ := h
  cases hstep with
  | supervisor htime hstep =>
      obtain ⟨ts, htask, hjob⟩ := run?_eq_some.mp hkept.run?
      obtain ⟨t, htask', -, ⟨hleaf, -⟩ | ⟨run', hjob', hsupervisor⟩⟩ := stepTask_cases hstep
      · exact (ne_of_isLeaf hkept.run? htask' hleaf rfl).elim
      · obtain rfl := Option.some.inj (htask.symm.trans htask')
        obtain rfl := Job.supervisor.inj (hjob.symm.trans hjob')
        exact hkept.stepSupervisor htime hsupervisor
  | task htask hleaf hstep =>
      obtain ⟨t', htask', -, ⟨-, heffect⟩ | ⟨run', hjob', -⟩⟩ := stepTask_cases hstep
      · obtain ⟨hspared, hconnected⟩ := heffect.spared hkept.spared
        exact ⟨run, hkept.keep (heffect.alike htask hleaf).retains hspared fun _ => hconnected⟩
      · obtain rfl := Option.some.inj (htask.symm.trans htask')
        simp [hjob', Job.isLeaf] at hleaf
  | ends how htask hleaf hrunning => exact ⟨run, hkept.finish _ how⟩
  | others new htasks hspared hbroker =>
      exact ⟨run, hkept.keep (.append htasks) hspared fun hphase => hbroker run hkept.run? hphase⟩

theorem Orderly.run (h : Orderly i w) (hrun : OrderlyRun i w w') : Orderly i w' := by
  induction hrun with
  | refl => exact h
  | tail _ hstep ih => exact ih.step hstep

theorem Orderly.start (hspared : base.Spared) (settings : Supervisor.Settings) :
    Orderly base.tasks.length (base.runSupervisor settings) := by
  let run : Run :=
    { settings, scheduler := base.schedulers.length, sender := base.senders.length }
  have htask : (base.runSupervisor settings).task? base.tasks.length =
      some { job := .supervisor run } := List.getElem?_concat_length
  exact ⟨run, run?_eq_some.mpr ⟨_, htask, rfl⟩, hspared, rfl, fun h => (h rfl).elim, by simp [run]⟩

end World

/-- Whenever the task of a component can make a step the broker is connected, and none of its
    calls is answered that it is not; and when the supervisor has ended the broker is not
    connected any more. -/
theorem broker_outlives_users {base w : World} (hspared : base.Spared)
    (settings : Supervisor.Settings)
    (hrun : OrderlyRun base.tasks.length (base.runSupervisor settings) w) :
    ∃ run, w.run? base.tasks.length = some run ∧
      (∀ c child t, (c, child) ∈ run.children → w.task? child = some t → t.isRunning = true →
        w.Served t) ∧
      (∀ outcome, run.phase = .ended outcome → w.broker.connected = false) := by
  obtain ⟨run, hkept⟩ := (World.Orderly.start hspared settings).run hrun
  refine ⟨run, hkept.run?, fun c child t hmem htask hrunning => ?_, fun outcome hphase => ?_⟩
  · obtain ⟨t', htask', -, hmay⟩ := hkept.children c child hmem
    obtain rfl := Option.some.inj (htask.symm.trans htask')
    have hholds := holdsBroker_of_mayRun (hmay hrunning)
    have hbegun : run.phase ≠ .starting := fun h => by simp [h, holdsBroker] at hholds
    exact World.served hkept.spared ((hkept.broker hbegun).trans hholds) t
  · exact hkept.brokerAt hphase (by simp)

/-- A supervisor that does not wait for a component is in time. -/
theorem World.inTime_of_phase {w : World} {i : Nat} {run : Run} (hrun : w.run? i = some run)
    (hphase : ∀ deadline, run.phase.deadline? ≠ some deadline) : World.InTime i w := by
  intro run' c rest deadline report hrun' hclosing _
  obtain rfl := Option.some.inj (hrun.symm.trans hrun')
  exact (hphase deadline (by rw [hclosing]; rfl)).elim

/-- A sender alone, for a queue that its supervisor declares. -/
def senderSettings : Supervisor.Settings where
  consume := { queue := "q" }
  queue := { name := "q" }
  components := [.sender]

def calmBase : World := { wall := Instant.first }

/-- A server alone. -/
def serverSettings : Supervisor.Settings where
  components := [.http]

/-- Somebody else listens where the server should. -/
def busyBase : World := { wall := Instant.first, listeners := [serverSettings.http] }

/-- A sender that is about to consume is served, and after a bind that failed the broker is not
    connected. -/
theorem sender_served_and_broker_stopped :
    (∃ w t, OrderlyRun 0 (calmBase.runSupervisor senderSettings) w ∧ w.task? 1 = some t ∧
        t.job = .sender 0 .registering ∧ t.isRunning = true ∧ w.Served t) ∧
      ∃ w run cause, OrderlyRun 0 (busyBase.runSupervisor serverSettings) w ∧
        w.run? 0 = some run ∧ run.phase = .ended (.error cause) ∧ w.broker.connected = false := by
  constructor
  · have hspared : calmBase.Spared := fun _ _ => rfl
    have hrun : OrderlyRun 0 (calmBase.runSupervisor senderSettings) _ :=
      (((Relation.ReflTransGen.refl
        |>.tail (.supervisor (World.inTime_of_phase rfl nofun) rfl))
        |>.tail (.supervisor (World.inTime_of_phase rfl nofun) rfl))
        |>.tail (.supervisor (World.inTime_of_phase rfl nofun) rfl))
        |>.tail (.supervisor (World.inTime_of_phase rfl nofun) rfl)
    obtain ⟨run, hrun?, hserved, -⟩ := broker_outlives_users hspared _ hrun
    obtain rfl := Option.some.inj hrun?
    exact ⟨_, _, hrun, rfl, rfl, rfl, hserved .sender 1 _ (by decide) rfl rfl⟩
  · have hspared : busyBase.Spared := fun _ _ => rfl
    have hrun : OrderlyRun 0 (busyBase.runSupervisor serverSettings) _ :=
      (((Relation.ReflTransGen.refl
        |>.tail (.supervisor (World.inTime_of_phase rfl nofun) rfl))
        |>.tail (.supervisor (World.inTime_of_phase rfl nofun) rfl))
        |>.tail (.supervisor (World.inTime_of_phase rfl nofun) rfl))
        |>.tail (.supervisor (World.inTime_of_phase rfl nofun) rfl)
    obtain ⟨run, hrun?, -, hstopped⟩ := broker_outlives_users hspared _ hrun
    obtain rfl := Option.some.inj hrun?
    exact ⟨_, _, _, hrun, rfl, rfl, hstopped _ rfl⟩

end Almanac.Rehearsal
