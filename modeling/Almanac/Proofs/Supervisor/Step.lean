/-
  Almanac.Proofs.Supervisor.Step

  What one step of a supervisor can do. `Advance` lists the calls that a step makes of its host,
  what they have to answer, and the phase that follows; `step_iff_advance` says that the list is
  complete and that nothing in it is made up. A step of the teardown that is over leaves a
  `Deed`, which says how it went.
-/
import Almanac.Proofs.Action
import Almanac.Supervisor

namespace Almanac.Supervisor

open Service (Component)

/-- How the wait for a component went. -/
inductive Joining
  /-- There is no such component in the run. -/
  | absent
  | ended (how : Ending)
  /-- It was still running when the time was up. -/
  | overdue

/-- How the broker was stopped. -/
inductive Stopping
  | done
  | refused (cause : Broker.Error)
  /-- There was no answer when the time was up. -/
  | overdue

/-- A step of the teardown that is over. -/
inductive Deed
  | asked (c : Component)
  | joined (c : Component) (how : Joining)
  | stopped (how : Stopping)

/-- Which step of the teardown it was. -/
def Deed.step : Deed → Teardown
  | .asked c => .stop c
  | .joined c _ => .join c
  | .stopped _ => .stopBroker

variable {σ : Type} (host : Host σ) (settings : Settings)

/-- What one step does from a world: the deed it leaves, if any, the next phase and the next
    world. -/
inductive Advance (w : σ) : Phase → Option Deed → Phase → σ → Prop
  | started {w' : σ} (hcall : host.broker.start.perform w = (.ok (.ok ()), w')) :
      Advance w .starting none .declaring w'
  | notStarted {cause : Broker.Error} {w' : σ}
      (hcall : host.broker.start.perform w = (.ok (.error cause), w')) :
      Advance w .starting none (.ended (.error (.broker cause))) w'
  | declared {w' : σ}
      (hcall : (host.broker.declare settings.queue).perform w = (.ok (.ok ()), w')) :
      Advance w .declaring none (.binding ([.http, .grpc].filter settings.enables)) w'
  | notDeclared {cause : Broker.Error} {w' : σ}
      (hcall : (host.broker.declare settings.queue).perform w = (.ok (.error cause), w')) :
      Advance w .declaring none (.abandoning (.broker cause)) w'
  | bound {c : Component} {servers : List Component} {w' : σ}
      (hcall : (host.bind c (settings.address c)).perform w = (.ok (.ok ()), w')) :
      Advance w (.binding (c :: servers)) none (.binding servers) w'
  | notBound {c : Component} {servers : List Component} {cause : Service.Error} {w' : σ}
      (hcall : (host.bind c (settings.address c)).perform w = (.ok (.error cause), w')) :
      Advance w (.binding (c :: servers)) none (.abandoning cause) w'
  | allBound :
      Advance w (.binding []) none
        (.spawning ([.http, .grpc, .scheduler, .sender].filter settings.enables)) w
  | spawned {c : Component} {components : List Component} {w' : σ}
      (hcall : (host.spawn c).perform w = (.ok (), w')) :
      Advance w (.spawning (c :: components)) none (.spawning components) w'
  | allSpawned : Advance w (.spawning []) none .watching w
  | signalled {w' : σ} (hcall : host.shutdown.perform w = (.ok true, w')) :
      Advance w .watching none (.closing teardown .nothing {}) w'
  | asked {c : Component} {rest : List Teardown} {awaiting : Awaiting} {report : Report} {w' : σ}
      (hcall : (host.stop c).perform w = (.ok (), w')) :
      Advance w (.closing (.stop c :: rest) awaiting report) (some (.asked c))
        (.closing rest .nothing report) w'
  | absent {c : Component} {rest : List Teardown} {awaiting : Awaiting} {report : Report}
      (henabled : settings.enables c = false) :
      Advance w (.closing (.join c :: rest) awaiting report) (some (.joined c .absent))
        (.closing rest .nothing report) w
  | joined {c : Component} {rest : List Teardown} {awaiting : Awaiting} {report : Report}
      {how : Ending} {w' : σ} (henabled : settings.enables c = true)
      (hcall : (host.ending c).perform w = (.ok (some how), w')) :
      Advance w (.closing (.join c :: rest) awaiting report) (some (.joined c (.ended how)))
        (.closing rest .nothing (report.ended c how)) w'
  | awaited {c : Component} {rest : List Teardown} {awaiting : Awaiting} {report : Report}
      {now : Nat} {w₁ w' : σ} (henabled : settings.enables c = true)
      (hcall : (host.ending c).perform w = (.ok none, w₁))
      (hclock : host.clock.perform w₁ = (.ok now, w'))
      (hnew : ∀ deadline, awaiting ≠ .task deadline) :
      Advance w (.closing (.join c :: rest) awaiting report) none
        (.closing (.join c :: rest) (.task (now + settings.drain)) report) w'
  | overdue {c : Component} {rest : List Teardown} {deadline now : Nat} {report : Report}
      {w₁ w₂ w' : σ} (henabled : settings.enables c = true)
      (hcall : (host.ending c).perform w = (.ok none, w₁))
      (hclock : host.clock.perform w₁ = (.ok now, w₂)) (hlate : deadline ≤ now)
      (habort : (host.abort c).perform w₂ = (.ok (), w')) :
      Advance w (.closing (.join c :: rest) (.task deadline) report) (some (.joined c .overdue))
        (.closing rest .nothing (report.noteTeardown c.name "drain timed out")) w'
  | brokerStopped {rest : List Teardown} {awaiting : Awaiting} {report : Report} {now : Nat}
      {w₁ w' : σ} (hclock : host.clock.perform w = (.ok now, w₁))
      (hnew : ∀ deadline, awaiting ≠ .broker deadline)
      (hcall : host.broker.stop.perform w₁ = (.ok (.ok ()), w')) :
      Advance w (.closing (.stopBroker :: rest) awaiting report) (some (.stopped .done))
        (.closing rest .nothing report) w'
  | brokerRefused {rest : List Teardown} {awaiting : Awaiting} {report : Report} {now : Nat}
      {cause : Broker.Error} {w₁ w' : σ} (hclock : host.clock.perform w = (.ok now, w₁))
      (hnew : ∀ deadline, awaiting ≠ .broker deadline)
      (hcall : host.broker.stop.perform w₁ = (.ok (.error cause), w')) :
      Advance w (.closing (.stopBroker :: rest) awaiting report) (some (.stopped (.refused cause)))
        (.closing rest .nothing (report.noteTeardown "broker" cause.text)) w'
  | brokerAwaited {rest : List Teardown} {awaiting : Awaiting} {report : Report} {now : Nat}
      {w₁ w' : σ} (hclock : host.clock.perform w = (.ok now, w₁))
      (hnew : ∀ deadline, awaiting ≠ .broker deadline)
      (hcall : host.broker.stop.perform w₁ = (.error .never, w')) :
      Advance w (.closing (.stopBroker :: rest) awaiting report) none
        (.closing (.stopBroker :: rest) (.broker (now + settings.drain)) report) w'
  | brokerOverdue {rest : List Teardown} {deadline now : Nat} {report : Report} {w' : σ}
      (hclock : host.clock.perform w = (.ok now, w')) (hlate : deadline ≤ now) :
      Advance w (.closing (.stopBroker :: rest) (.broker deadline) report)
        (some (.stopped .overdue))
        (.closing rest .nothing (report.noteTeardown "broker" "timed out")) w'
  | reported {awaiting : Awaiting} {report : Report} :
      Advance w (.closing [] awaiting report) none (.ended (.ok report)) w
  | abandoned {cause : Service.Error} {answer : Except Broker.Error Unit} {w' : σ}
      (hcall : host.broker.stop.perform w = (.ok answer, w')) :
      Advance w (.abandoning cause) none (.ended (.error cause)) w'

variable {host settings} {w w' : σ} {phase phase' : Phase}

/-! ## Every step is in the list -/

/-- A wait that is not for a task is no wait for a task. -/
theorem joinStep_eq (c : Component) (rest : List Teardown) {awaiting : Awaiting} (report : Report)
    (hnew : ∀ deadline, awaiting ≠ .task deadline) :
    joinStep host settings c rest awaiting report =
      joinStep host settings c rest .nothing report := by
  cases awaiting with
  | task deadline => exact (hnew deadline rfl).elim
  | nothing => rfl
  | broker _ => rfl

theorem stopBrokerStep_eq (rest : List Teardown) {awaiting : Awaiting} (report : Report)
    (hnew : ∀ deadline, awaiting ≠ .broker deadline) :
    stopBrokerStep host settings rest awaiting report =
      stopBrokerStep host settings rest .nothing report := by
  cases awaiting with
  | broker deadline => exact (hnew deadline rfl).elim
  | nothing => rfl
  | task _ => rfl

theorem advance_of_joinStep {c : Component} {rest : List Teardown} {awaiting : Awaiting}
    {report : Report}
    (h : (joinStep host settings c rest awaiting report).perform w = (.ok (some phase'), w')) :
    ∃ deed, Advance host settings w (.closing (.join c :: rest) awaiting report) deed phase'
      w' := by
  cases henabled : settings.enables c with
  | false =>
      rw [joinStep, henabled] at h
      cases h
      exact ⟨_, .absent henabled⟩
  | true =>
      rw [joinStep, henabled] at h
      obtain ⟨how, w₁, hending, h⟩ := Action.perform_bind_eq_ok.mp h
      cases how with
      | some how =>
          cases h
          exact ⟨_, .joined henabled hending⟩
      | none =>
          obtain ⟨now, w₂, hclock, h⟩ := Action.perform_bind_eq_ok.mp h
          cases awaiting with
          | nothing => cases h; exact ⟨_, .awaited henabled hending hclock (by simp)⟩
          | broker _ => cases h; exact ⟨_, .awaited henabled hending hclock (by simp)⟩
          | task deadline =>
              simp only at h
              split at h
              · next hlate =>
                obtain ⟨_, w₃, habort, h⟩ := Action.perform_bind_eq_ok.mp h
                cases h
                exact ⟨_, .overdue henabled hending hclock hlate habort⟩
              · cases h

theorem advance_of_stopBrokerStep {rest : List Teardown} {awaiting : Awaiting} {report : Report}
    (h : (stopBrokerStep host settings rest awaiting report).perform w =
      (.ok (some phase'), w')) :
    ∃ deed, Advance host settings w (.closing (.stopBroker :: rest) awaiting report) deed phase'
      w' := by
  by_cases hawaiting : ∃ deadline, awaiting = .broker deadline
  · obtain ⟨deadline, rfl⟩ := hawaiting
    obtain ⟨now, w₁, hclock, h⟩ := Action.perform_bind_eq_ok.mp h
    simp only at h
    split at h
    · next hlate =>
      cases h
      exact ⟨_, .brokerOverdue hclock hlate⟩
    · cases h
  · have hnew : ∀ deadline, awaiting ≠ .broker deadline := fun deadline heq =>
      hawaiting ⟨deadline, heq⟩
    rw [stopBrokerStep_eq rest report hnew] at h
    obtain ⟨now, w₁, hclock, h⟩ := Action.perform_bind_eq_ok.mp h
    obtain ⟨answer, w₂, hstop, h⟩ := Action.perform_bind_eq_ok.mp h
    have hcall : host.broker.stop.perform w₁ = (answer, w₂) := by
      cases hstop
      rfl
    match answer, hcall, h with
    | .ok (.ok ()), hcall, h => cases h; exact ⟨_, .brokerStopped hclock hnew hcall⟩
    | .ok (.error cause), hcall, h => cases h; exact ⟨_, .brokerRefused hclock hnew hcall⟩
    | .error .never, hcall, h => cases h; exact ⟨_, .brokerAwaited hclock hnew hcall⟩
    | .error (.crash _), _, h => cases h

/-- A step that moves on is in the list. -/
theorem advance_of_step (h : (step host settings phase).perform w = (.ok (some phase'), w')) :
    ∃ deed, Advance host settings w phase deed phase' w' := by
  match phase, h with
  | .starting, h =>
      obtain ⟨answer, w₁, hcall, h⟩ := Action.perform_bind_eq_ok.mp h
      cases answer with
      | ok _ => cases h; exact ⟨_, .started hcall⟩
      | error cause => cases h; exact ⟨_, .notStarted hcall⟩
  | .declaring, h =>
      obtain ⟨answer, w₁, hcall, h⟩ := Action.perform_bind_eq_ok.mp h
      cases answer with
      | ok _ => cases h; exact ⟨_, .declared hcall⟩
      | error cause => cases h; exact ⟨_, .notDeclared hcall⟩
  | .binding (c :: servers), h =>
      obtain ⟨answer, w₁, hcall, h⟩ := Action.perform_bind_eq_ok.mp h
      cases answer with
      | ok _ => cases h; exact ⟨_, .bound hcall⟩
      | error cause => cases h; exact ⟨_, .notBound hcall⟩
  | .binding [], h => cases h; exact ⟨_, .allBound⟩
  | .spawning (c :: components), h =>
      obtain ⟨_, w₁, hcall, h⟩ := Action.perform_bind_eq_ok.mp h
      cases h
      exact ⟨_, .spawned hcall⟩
  | .spawning [], h => cases h; exact ⟨_, .allSpawned⟩
  | .watching, h =>
      obtain ⟨given, w₁, hcall, h⟩ := Action.perform_bind_eq_ok.mp h
      cases given with
      | true => cases h; exact ⟨_, .signalled hcall⟩
      | false => cases h
  | .closing (.stop c :: rest) awaiting report, h =>
      obtain ⟨_, w₁, hcall, h⟩ := Action.perform_bind_eq_ok.mp h
      cases h
      exact ⟨_, .asked hcall⟩
  | .closing (.join c :: rest) awaiting report, h => exact advance_of_joinStep h
  | .closing (.stopBroker :: rest) awaiting report, h => exact advance_of_stopBrokerStep h
  | .closing [] awaiting report, h => cases h; exact ⟨_, .reported⟩
  | .abandoning cause, h =>
      obtain ⟨answer, w₁, hcall, h⟩ := Action.perform_bind_eq_ok.mp h
      cases h
      exact ⟨_, .abandoned hcall⟩
  | .ended outcome, h => cases h

/-! ## The list makes nothing up -/

/-- A broker that is not waited for yet is asked to stop, and its answer decides. -/
theorem perform_stopBrokerStep {rest : List Teardown} {awaiting : Awaiting} {report : Report}
    {now : Nat} {w₁ : σ} {answer : Except Stall (Except Broker.Error Unit)}
    (hclock : host.clock.perform w = (.ok now, w₁))
    (hnew : ∀ deadline, awaiting ≠ .broker deadline)
    (hcall : host.broker.stop.perform w₁ = (answer, w')) :
    (stopBrokerStep host settings rest awaiting report).perform w =
      Action.perform (match answer with
        | .ok (.ok ()) => return some (.closing rest .nothing report)
        | .ok (.error cause) =>
          return some (.closing rest .nothing (report.noteTeardown "broker" cause.text))
        | .error .never =>
          return some (.closing (.stopBroker :: rest) (.broker (now + settings.drain)) report)
        | .error (.crash message) => Action.crash message) w' := by
  obtain ⟨rfl, rfl⟩ : answer = (host.broker.stop.perform w₁).1 ∧
      w' = (host.broker.stop.perform w₁).2 := by
    rw [hcall]
    exact ⟨rfl, rfl⟩
  rw [stopBrokerStep_eq rest report hnew]
  refine (Action.perform_bind_of_ok hclock _).trans ?_
  exact Action.perform_bind_of_ok (Action.perform_attempt host.broker.stop w₁) _

theorem step_of_advance {deed : Option Deed} (h : Advance host settings w phase deed phase' w') :
    (step host settings phase).perform w = (.ok (some phase'), w') := by
  cases h with
  | started hcall => exact Action.perform_bind_of_ok hcall _
  | notStarted hcall => exact Action.perform_bind_of_ok hcall _
  | declared hcall => exact Action.perform_bind_of_ok hcall _
  | notDeclared hcall => exact Action.perform_bind_of_ok hcall _
  | bound hcall => exact Action.perform_bind_of_ok hcall _
  | notBound hcall => exact Action.perform_bind_of_ok hcall _
  | allBound => rfl
  | spawned hcall => exact Action.perform_bind_of_ok hcall _
  | allSpawned => rfl
  | signalled hcall => exact Action.perform_bind_of_ok hcall _
  | asked hcall => exact Action.perform_bind_of_ok hcall _
  | absent henabled =>
      rw [step, joinStep, henabled]
      rfl
  | joined henabled hcall =>
      rw [step, joinStep, henabled]
      exact Action.perform_bind_of_ok hcall _
  | @awaited c rest awaiting report now w₁ _ henabled hcall hclock hnew =>
      rw [step, joinStep_eq c rest report hnew, joinStep, henabled]
      exact (Action.perform_bind_of_ok hcall _).trans (Action.perform_bind_of_ok hclock _)
  | overdue henabled hcall hclock hlate habort =>
      rw [step, joinStep, henabled]
      refine (Action.perform_bind_of_ok hcall _).trans ?_
      refine (Action.perform_bind_of_ok hclock _).trans ?_
      simp only [if_pos hlate]
      exact Action.perform_bind_of_ok habort _
  | brokerStopped hclock hnew hcall =>
      exact perform_stopBrokerStep hclock hnew hcall
  | brokerRefused hclock hnew hcall =>
      exact perform_stopBrokerStep hclock hnew hcall
  | brokerAwaited hclock hnew hcall =>
      exact perform_stopBrokerStep hclock hnew hcall
  | brokerOverdue hclock hlate =>
      refine (Action.perform_bind_of_ok hclock _).trans ?_
      simp only [if_pos hlate]
      rfl
  | reported => rfl
  | abandoned hcall => exact Action.perform_bind_of_ok hcall _

/-- A step that moves on is one of the list. -/
theorem step_iff_advance :
    (step host settings phase).perform w = (.ok (some phase'), w') ↔
      ∃ deed, Advance host settings w phase deed phase' w' :=
  ⟨advance_of_step, fun ⟨_, h⟩ => step_of_advance h⟩

end Almanac.Supervisor
