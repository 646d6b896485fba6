/-
  Almanac.Proofs.Rehearsal.Hosted

  The supervisors of a rehearsal. What they ask of the broker is done, or it has a fault and
  nothing is changed; nothing else that they ask can stall. So a step of a supervisor advances
  it, or it stalls in a call that has a fault, in the world as it was (`stepSupervisor_cases`).
-/
import Almanac.Proofs.Rehearsal.Reliable
import Almanac.Proofs.Rehearsal.Tasks
import Almanac.Proofs.Supervisor.Step

namespace Almanac.Rehearsal

open Service (Component)
open Supervisor (Advance Deed Phase)

/-- A change of an entry does not reach what comes behind the list. -/
theorem modify_append_of_lt {α : Type} {l : List α} {i : Nat} (h : i < l.length) (r : List α)
    (f : α → α) : (l ++ r).modify i f = l.modify i f ++ r := by
  induction l generalizing i with
  | nil => simp at h
  | cons a l ih =>
      cases i with
      | zero => rfl
      | succ i => simp [ih (Nat.lt_of_succ_lt_succ h)]

namespace World

variable {w w' : World} {i : Nat}

/-! ## The broker -/

/-- A call of the broker that has no fault is the call of the broker in memory. -/
theorem perform_unfaulted {α : Type} (fault : World → Option (Fault Broker.Error))
    (f : Broker.State Bytes → Broker.Outcome Bytes α) (h : fault w = none) :
    (struck fault (Action.zoom World.broker (fun b v => { v with broker := b })
      (Action.update f))).perform w = (.ok (f w.broker).1, { w with broker := (f w.broker).2 }) := by
  rw [perform_struck, h]
  rfl

/-- A call of the broker that may have a fault. -/
theorem faulty_call_cases {call : BrokerCall} {f : Broker.State Bytes → Broker.Outcome Bytes Unit}
    {answer : Except Stall (Except Broker.Error Unit)}
    (h : (struck (fun v : World => v.faults.broker call) (Action.zoom World.broker
      (fun b v => { v with broker := b }) (Action.update f))).perform w = (answer, w')) :
    (answer = .ok (f w.broker).1 ∧ w' = { w with broker := (f w.broker).2 }) ∨
      (w.faults.broker call ≠ none ∧ w' = w ∧ answer ≠ .ok (.ok ())) := by
  rw [perform_struck] at h
  rcases hfault : w.faults.broker call with - | fault
  · rw [hfault] at h
    cases h
    exact Or.inl ⟨rfl, rfl⟩
  · rw [hfault] at h
    cases fault <;> cases h <;> exact Or.inr ⟨by simp, rfl, by simp⟩

variable {answer : Except Stall (Except Broker.Error Unit)}

theorem start_cases (h : client.start.perform w = (answer, w')) :
    (answer = .ok (.ok ()) ∧ w' = { w with broker := w.broker.start }) ∨
      (w.faults.broker .start ≠ none ∧ w' = w ∧ answer ≠ .ok (.ok ())) :=
  faulty_call_cases (f := fun b => (.ok (), b.start)) h

theorem stop_cases (h : client.stop.perform w = (answer, w')) :
    (answer = .ok (.ok ()) ∧ w' = { w with broker := w.broker.stop }) ∨
      (w.faults.broker .stop ≠ none ∧ w' = w ∧ answer ≠ .ok (.ok ())) :=
  faulty_call_cases (f := fun b => (.ok (), b.stop)) h

theorem declare_cases {settings : Broker.QueueSettings}
    (h : (client.declare settings).perform w = (answer, w')) :
    (answer = .ok (w.broker.declare settings).1 ∧
        w' = { w with broker := (w.broker.declare settings).2 }) ∨
      (w.faults.broker .declare ≠ none ∧ w' = w ∧ answer ≠ .ok (.ok ())) :=
  faulty_call_cases (f := fun b => b.declare settings) h

/-! ## Other calls -/

theorem bind_perform {c : Component} {a : Net.Address}
    {answer : Except Stall (Except Service.Error Unit)}
    (h : ((host i).bind c a).perform w = (answer, w')) :
    answer = .ok (w.bind c a).1 ∧ w' = (w.bind c a).2 :=
  ⟨(congrArg Prod.fst h).symm, (congrArg Prod.snd h).symm⟩

@[simp] theorem tasks_bind (w : World) (c : Component) (a : Net.Address) :
    (w.bind c a).2.tasks = w.tasks := by
  unfold bind
  split <;> rfl

/-- The task of a component is a new one behind the others, and the supervisor knows of it. -/
theorem spawnChild_eq {run : Run} (hrun : w.run? i = some run) (c : Component) :
    ∃ t, t.job.isLeaf = true ∧ t.supervised = true ∧ t.isRunning = true ∧
      w.spawnChild i c = (w.setJob i (.supervisor { run with
        children := run.children ++ [(c, w.tasks.length)] })).spawn t := by
  rw [spawnChild, hrun]
  cases c <;> exact ⟨_, rfl, rfl, rfl, rfl⟩

theorem setPhase_eq {run : Run} (hrun : w.run? i = some run) (phase : Phase) :
    w.setPhase i phase = w.setJob i (.supervisor { run with phase }) := by
  rw [setPhase, hrun]

theorem spawn_perform {c : Component} {answer : Except Stall Unit}
    (h : ((host i).spawn c).perform w = (answer, w')) : w' = w.spawnChild i c :=
  (congrArg Prod.snd h).symm

theorem stop_perform {c : Component} {answer : Except Stall Unit}
    (h : ((host i).stop c).perform w = (answer, w')) : w' = w.stopChild i c :=
  (congrArg Prod.snd h).symm

theorem abort_perform {c : Component} {answer : Except Stall Unit}
    (h : ((host i).abort c).perform w = (answer, w')) :
    w' = ((w.child? i c).map w.abort).getD w :=
  (congrArg Prod.snd h).symm

theorem ending_perform {c : Component} {how : Option Supervisor.Ending}
    (h : ((host i).ending c).perform w = (.ok how, w')) : w.childEnding i c = how ∧ w' = w :=
  ⟨Except.ok.inj (congrArg Prod.fst h), (congrArg Prod.snd h).symm⟩

theorem shutdown_perform {given : Bool} (h : (host i).shutdown.perform w = (.ok given, w')) :
    w.root.triggered = given ∧ w' = w :=
  ⟨Except.ok.inj (congrArg Prod.fst h), (congrArg Prod.snd h).symm⟩

theorem clock_perform {now : Nat} (h : (host i).clock.perform w = (.ok now, w')) :
    w.clock = now ∧ w' = w :=
  ⟨Except.ok.inj (congrArg Prod.fst h), (congrArg Prod.snd h).symm⟩

/-- What a step of a supervisor has done to the world, before it changes its phase. -/
inductive Asked (w : World) (i : Nat) : World → Prop
  | nothing : Asked w i w
  | broker (b : Broker.State Bytes) : Asked w i { w with broker := b }
  | bind (c : Component) (a : Net.Address) : Asked w i (w.bind c a).2
  | spawn (c : Component) : Asked w i (w.spawnChild i c)
  | stop (c : Component) : Asked w i (w.stopChild i c)
  | abort {c : Component} (hending : w.childEnding i c = none) :
      Asked w i (((w.child? i c).map w.abort).getD w)

/-- Whatever a supervisor does, it does no more than that. -/
theorem asked_of_advance {settings : Supervisor.Settings} {phase phase' : Phase}
    {deed : Option Deed} (h : Advance (host i) settings w phase deed phase' w') :
    Asked w i w' := by
  cases h with
  | started hcall => rcases start_cases hcall with ⟨-, rfl⟩ | ⟨-, rfl, -⟩ <;> constructor
  | notStarted hcall => rcases start_cases hcall with ⟨-, rfl⟩ | ⟨-, rfl, -⟩ <;> constructor
  | declared hcall => rcases declare_cases hcall with ⟨-, rfl⟩ | ⟨-, rfl, -⟩ <;> constructor
  | notDeclared hcall => rcases declare_cases hcall with ⟨-, rfl⟩ | ⟨-, rfl, -⟩ <;> constructor
  | abandoned hcall => rcases stop_cases hcall with ⟨-, rfl⟩ | ⟨-, rfl, -⟩ <;> constructor
  | bound hcall =>
      obtain ⟨-, rfl⟩ := bind_perform hcall
      exact .bind _ _
  | notBound hcall =>
      obtain ⟨-, rfl⟩ := bind_perform hcall
      exact .bind _ _
  | spawned hcall =>
      obtain rfl := spawn_perform hcall
      exact .spawn _
  | asked hcall =>
      obtain rfl := stop_perform hcall
      exact .stop _
  | overdue _ hcall hclock _ habort =>
      obtain ⟨hrunning, rfl⟩ := ending_perform hcall
      obtain ⟨-, rfl⟩ := clock_perform hclock
      obtain rfl := abort_perform habort
      exact .abort hrunning
  | signalled hcall =>
      obtain ⟨-, rfl⟩ := shutdown_perform hcall
      exact .nothing
  | joined _ hcall =>
      obtain ⟨-, rfl⟩ := ending_perform hcall
      exact .nothing
  | awaited _ hcall hclock _ =>
      obtain ⟨-, rfl⟩ := ending_perform hcall
      obtain ⟨-, rfl⟩ := clock_perform hclock
      exact .nothing
  | brokerStopped hclock _ hcall =>
      obtain ⟨-, rfl⟩ := clock_perform hclock
      rcases stop_cases hcall with ⟨-, rfl⟩ | ⟨-, rfl, -⟩ <;> constructor
  | brokerRefused hclock _ hcall =>
      obtain ⟨-, rfl⟩ := clock_perform hclock
      rcases stop_cases hcall with ⟨-, rfl⟩ | ⟨-, rfl, -⟩ <;> constructor
  | brokerAwaited hclock _ hcall =>
      obtain ⟨-, rfl⟩ := clock_perform hclock
      rcases stop_cases hcall with ⟨-, rfl⟩ | ⟨-, rfl, -⟩ <;> constructor
  | brokerOverdue hclock _ =>
      obtain ⟨-, rfl⟩ := clock_perform hclock
      exact .nothing
  | allBound => exact .nothing
  | allSpawned => exact .nothing
  | absent _ => exact .nothing
  | reported => exact .nothing

/-! ## Stalls -/

/-- A call with a fault stalls where it is. -/
theorem stall_of_faulty_call {call : BrokerCall}
    {f : Broker.State Bytes → Broker.Outcome Bytes Unit} {stall : Stall}
    (h : (struck (fun v : World => v.faults.broker call) (Action.zoom World.broker
      (fun b v => { v with broker := b }) (Action.update f))).perform w = (.error stall, w')) :
    w' = w := by
  rcases faulty_call_cases h with ⟨hanswer, -⟩ | ⟨-, hsame, -⟩
  · cases hanswer
  · exact hsame

/-- Waiting for a component does not stall. -/
theorem no_stall_of_joinStep {settings : Supervisor.Settings} {c : Component}
    {rest : List Supervisor.Teardown} {awaiting : Supervisor.Awaiting}
    {report : Supervisor.Report} {stall : Stall} :
    (Supervisor.joinStep (host i) settings c rest awaiting report).perform w ≠
      (.error stall, w') := by
  intro h
  unfold Supervisor.joinStep at h
  split at h
  · cases h
  · rcases Action.stall_of_perform_bind h with h | ⟨how, w₁, -, h⟩
    · cases h
    · cases how with
      | some _ => cases h
      | none =>
          rcases Action.stall_of_perform_bind h with h | ⟨now, w₂, -, h⟩
          · cases h
          · cases awaiting with
            | task deadline =>
                simp only at h
                split at h
                · rcases Action.stall_of_perform_bind h with h | ⟨_, w₃, -, h⟩ <;> cases h
                · cases h
            | _ => cases h

theorem stall_of_stopBrokerStep {settings : Supervisor.Settings}
    {rest : List Supervisor.Teardown} {awaiting : Supervisor.Awaiting}
    {report : Supervisor.Report} {stall : Stall}
    (h : (Supervisor.stopBrokerStep (host i) settings rest awaiting report).perform w =
      (.error stall, w')) : w' = w := by
  by_cases hawaiting : ∃ deadline, awaiting = .broker deadline
  · obtain ⟨deadline, rfl⟩ := hawaiting
    rcases Action.stall_of_perform_bind h with h | ⟨now, w₁, -, h⟩
    · cases h
    · simp only at h
      split at h <;> cases h
  · rw [Supervisor.stopBrokerStep_eq rest report fun deadline heq => hawaiting ⟨deadline, heq⟩] at h
    rcases Action.stall_of_perform_bind h with h | ⟨now, w₁, hclock, h⟩
    · cases h
    · cases hclock
      rcases Action.stall_of_perform_bind h with h | ⟨answer, w₂, hstop, h⟩
      · cases h
      · have hcall : client.stop.perform w = (answer, w₂) := by
          cases hstop
          rfl
        match answer, hcall, h with
        | .ok (.ok ()), _, h => cases h
        | .ok (.error _), _, h => cases h
        | .error .never, _, h => cases h
        | .error (.crash _), hcall, h =>
            cases h
            exact stall_of_faulty_call (f := fun b => (.ok (), b.stop)) hcall

/-- A supervisor stalls in the world as it was. -/
theorem stall_of_step {settings : Supervisor.Settings} {phase : Phase} {stall : Stall}
    (h : (Supervisor.step (host i) settings phase).perform w = (.error stall, w')) : w' = w := by
  match phase, h with
  | .starting, h =>
      rcases Action.stall_of_perform_bind h with h | ⟨answer, w₁, -, h⟩
      · exact stall_of_faulty_call (f := fun b => (.ok (), b.start)) h
      · cases answer <;> cases h
  | .declaring, h =>
      rcases Action.stall_of_perform_bind h with h | ⟨answer, w₁, -, h⟩
      · exact stall_of_faulty_call (f := fun b => b.declare settings.queue) h
      · cases answer <;> cases h
  | .abandoning cause, h =>
      rcases Action.stall_of_perform_bind h with h | ⟨answer, w₁, -, h⟩
      · exact stall_of_faulty_call (f := fun b => (.ok (), b.stop)) h
      · cases h
  | .closing (.stopBroker :: rest) awaiting report, h => exact stall_of_stopBrokerStep h
  | .closing (.join c :: rest) awaiting report, h => exact (no_stall_of_joinStep h).elim
  -- Nothing else that a supervisor asks for has faults.
  | .binding (c :: servers), h =>
      rcases Action.stall_of_perform_bind h with h | ⟨answer, w₁, -, h⟩
      · cases h
      · cases answer <;> cases h
  | .spawning (c :: components), h =>
      rcases Action.stall_of_perform_bind h with h | ⟨answer, w₁, -, h⟩ <;> cases h
  | .watching, h =>
      rcases Action.stall_of_perform_bind h with h | ⟨answer, w₁, -, h⟩
      · cases h
      · cases answer <;> cases h
  | .closing (.stop c :: rest) awaiting report, h =>
      rcases Action.stall_of_perform_bind h with h | ⟨answer, w₁, -, h⟩ <;> cases h
  | .binding [], h => cases h
  | .spawning [], h => cases h
  | .closing [] awaiting report, h => cases h
  | .ended outcome, h => cases h

/-! ## One step -/

/-- The world when a supervisor has come to a phase. -/
def conclude (w : World) (i : Nat) : Phase → World
  | .ended (.ok _) => w.finish i .clean
  | .ended (.error cause) => w.finish i (.failed cause)
  | _ => w

theorem alike_conclude (w : World) (i : Nat) (phase : Phase) : Alike w (w.conclude i phase) := by
  unfold conclude
  split
  · exact .finish w i _
  · exact .finish w i _
  · exact .of_tasks rfl

/-- A step of a supervisor advances it, or stalls and changes nothing but its status. -/
theorem stepSupervisor_cases {run : Run} (h : w.stepSupervisor i run = some w') :
    (∃ deed phase v, Advance (host i) run.settings w run.phase deed phase v ∧
        w' = (v.setPhase i phase).conclude i phase) ∨
      ∃ stall, (Supervisor.step (host i) run.settings run.phase).perform w = (.error stall, w) ∧
        (w' = w.block i ∨ w' = w.finish i .crashed) := by
  unfold stepSupervisor at h
  rcases hperform : (Supervisor.step (host i) run.settings run.phase).perform w with ⟨answer, v⟩
  have hstep : Supervisor.step (host i) run.settings run.phase w = (answer, v) := hperform
  rw [hstep] at h
  match answer with
  | .ok none => cases h
  | .ok (some phase) =>
      obtain ⟨deed, hadvance⟩ := Supervisor.advance_of_step hperform
      refine Or.inl ⟨deed, phase, v, hadvance, ?_⟩
      match phase, h with
      | .ended (.ok _), h => cases h; rfl
      | .ended (.error _), h => cases h; rfl
      | .starting, h => cases h; rfl
      | .declaring, h => cases h; rfl
      | .binding _, h => cases h; rfl
      | .spawning _, h => cases h; rfl
      | .watching, h => cases h; rfl
      | .closing _ _ _, h => cases h; rfl
      | .abandoning _, h => cases h; rfl
  | .error stall =>
      obtain rfl : v = w := stall_of_step hperform
      refine Or.inr ⟨stall, rfl, ?_⟩
      cases stall with
      | never => cases h; exact Or.inl rfl
      | crash _ => cases h; exact Or.inr rfl

/-- A step that advances the supervisor is the step that it makes. -/
theorem stepSupervisor_of_advance {run : Run} {deed : Option Deed} {phase : Phase} {v : World}
    (h : Advance (host i) run.settings w run.phase deed phase v) :
    w.stepSupervisor i run = some ((v.setPhase i phase).conclude i phase) := by
  have hstep : Supervisor.step (host i) run.settings run.phase w = (.ok (some phase), v) :=
    Supervisor.step_of_advance h
  unfold stepSupervisor
  rw [hstep]
  match phase with
  | .ended (.ok _) => rfl
  | .ended (.error _) => rfl
  | .starting => rfl
  | .declaring => rfl
  | .binding _ => rfl
  | .spawning _ => rfl
  | .watching => rfl
  | .closing _ _ _ => rfl
  | .abandoning _ => rfl

end World

end Almanac.Rehearsal
