/-
  Almanac.Proofs.Rehearsal.Tended

  The steps of a supervisor that runs alone. Each of them leaves the queue with its messages for
  the sender, or ends the sender by force, which happens only in the teardown
  (`Staffed.tends_stepSupervisor`).
-/
import Almanac.Proofs.Rehearsal.Staffed

namespace Almanac.Rehearsal

open Service (Component)
open Supervisor (Advance Ending Phase Settings)

variable {s : Settings} {w w' v : World} {run : Run} {c : Component} {j : Nat} {t : Task}
  {phase : Phase}

/-! ## Keeping -/

theorem Placed.congr {name : String} (h : Placed name w run)
    (hsender : v.member? .sender = w.member? .sender) (hbroker : v.broker = w.broker) :
    Placed name v run := by
  unfold Placed at h ⊢
  split at h
  · exact hbroker.trans h
  · exact hbroker.trans h
  · exact h
  · exact h
  · obtain ⟨waiting, hawaits⟩ := h
    exact ⟨waiting, World.awaits_congr hsender hbroker hawaits⟩

theorem frame_finish (hrun : w.run? 0 = some run) (j : Nat) (how : Ending) :
    Frame run w (w.finish j how) := by
  refine .of_modify hrun (w.tasks_finish j how) (fun _ _ => Or.inl rfl) (w.root_finish j how)
    (congrArg _ (w.faults_finish j how)) ?_ ?_
  · obtain ⟨root, heq⟩ := w.finish_eq j how
    rw [heq]
    exact fun x hx => ⟨x, hx, rfl⟩
  · obtain ⟨root, heq⟩ := w.finish_eq j how
    rw [heq]
    exact fun x hx => ⟨x, hx, rfl, Or.inl⟩

namespace Staffed

/-- Nothing has happened to the sender or the broker. -/
theorem tended (h : Staffed s w run) (hplaced : Placed s.queue.name w run)
    (hframe : Frame run w v) (hsender : v.member? .sender = w.member? .sender)
    (hbroker : v.broker = w.broker) : Tended s v :=
  ⟨run, hframe.staffed h (World.senderStays_congr hsender h.stays), hplaced.congr hsender hbroker⟩

/-- The supervisor is none of its components. -/
theorem member?_modify_zero (h : Staffed s w run) {f : Task → Task} (hframe : Frame run w v)
    (htasks : v.tasks = w.tasks.modify 0 f) : v.member? .sender = w.member? .sender := by
  refine World.member?_congr h.run? hframe.run? rfl fun k hk => ?_
  have hne : k ≠ 0 := (h.place (Run.mem_of_lookup hk)).1
  rw [World.task?, htasks]
  exact (World.task?_setTask w 0 f k).trans (if_neg hne.symm)

/-- A component that has ended, and is not the sender. -/
theorem ne_sender_of_childEnding (h : Staffed s w run) {how : Ending}
    (hending : w.childEnding 0 c = some how) : c ≠ .sender := by
  rintro rfl
  obtain ⟨run', child, t, hrun', hmem, htask, hstatus⟩ := World.childEnding_eq_some hending
  obtain rfl := Option.some.inj (h.run?.symm.trans hrun')
  have hrunning := h.stays t ((h.member hmem).trans htask)
  rw [Task.isRunning, hstatus] at hrunning
  cases hrunning

/-- A sender that does not run has left. -/
theorem not_stays (h : Staffed s w run) (hmem : (.sender, j) ∈ run.children) {run' : Run}
    (hrun : v.run? 0 = some run') (hchildren : run'.children = run.children)
    (htask : v.task? j = some t) (hdone : t.isRunning = false) : ¬v.SenderStays := by
  intro hstays
  have hmember : v.member? .sender = some t := by
    rw [World.member?_of_run? hrun, hchildren, h.lookup hmem]
    exact htask
  rw [hstays t hmember] at hdone
  cases hdone

/-- So has a sender that is ended by force. -/
theorem leaves_of_abort (h : Staffed s w run) (hmem : (.sender, j) ∈ run.children)
    (phase : Phase) : ¬((w.abort j).setPhase 0 phase).SenderStays := by
  obtain ⟨t, htask, -⟩ := h.children .sender j hmem
  have hne : j ≠ 0 := (h.place hmem).1
  have haborted : (w.abort j).task? j = some { t with status := .aborted } := by
    rw [World.task?, w.tasks_abort j, List.getElem?_modify_eq, ← World.task?, htask]
    rfl
  obtain ⟨t₀, htask₀, hjob₀⟩ := World.run?_eq_some.mp h.run?
  have hzero : (w.abort j).task? 0 = some t₀ := by
    rw [World.task?, w.tasks_abort j]
    exact (World.task?_setTask w j _ 0).trans ((if_neg hne).trans htask₀)
  rw [World.setPhase_eq (World.run?_eq_some.mpr ⟨t₀, hzero, hjob₀⟩)]
  exact h.not_stays hmem (World.run?_eq_some.mpr ⟨_, World.task?_setJob hzero _, rfl⟩) rfl
    ((World.task?_setJob_ne hne.symm _).trans haborted) rfl

end Staffed

/-- A supervisor that has come to the end of its run is still the same. -/
theorem Tended.conclude (h : Tended s w) (phase : Phase) : Tended s (w.conclude 0 phase) := by
  obtain ⟨run, hstaffed, hplaced⟩ := h
  have hfinish : ∀ how, Tended s (w.finish 0 how) := fun how =>
    have hframe := frame_finish hstaffed.run? 0 how
    hstaffed.tended hplaced hframe
      (hstaffed.member?_modify_zero hframe (w.tasks_finish 0 how)) (w.broker_finish 0 how)
  unfold World.conclude
  split
  · exact hfinish .clean
  · exact hfinish (.failed _)
  · exact ⟨run, hstaffed, hplaced⟩

/-! ## The supervisor -/

namespace Staffed

variable {deed : Option Supervisor.Deed} {steps rest : List Supervisor.Teardown}
  {awaiting : Supervisor.Awaiting} {report : Supervisor.Report}

theorem fitsAt (h : Staffed s w run) {before : Phase} (hphase : run.phase = before) :
    { run with phase := before : Run }.Fits := by
  rw [← hphase]
  exact h.fits

/-- A step of the teardown that is no wait for the sender is over. -/
theorem stepped (h : Staffed s w run) (hplaced : Placed s.queue.name w run)
    {step : Supervisor.Teardown} (hphase : run.phase = .closing (step :: rest) awaiting report)
    (hstep : step ≠ .join .sender) (hframe : Frame run w v)
    (hsender : v.member? .sender = w.member? .sender) (hbroker : v.broker = w.broker)
    (report' : Supervisor.Report) :
    Tended s (v.setPhase 0 (.closing rest .nothing report')) := by
  obtain ⟨htriggered, hjoin⟩ := h.closing _ _ _ hphase
  obtain ⟨hmanned, hsuffix, -⟩ := h.fitsAt hphase
  have hrest : .join .sender ∈ rest := by
    rcases List.mem_cons.mp hjoin with heq | hrest
    · exact (hstep heq.symm).elim
    · exact hrest
  refine h.phased hframe hsender ⟨hmanned, (List.suffix_cons step rest).trans hsuffix, by simp⟩
    (fun _ h => by cases h) (fun _ _ _ heq => ?_) ?_
  · cases heq
    exact ⟨htriggered, hrest⟩
  · rw [Placed, hphase] at hplaced
    obtain ⟨waiting, hawaits⟩ := hplaced
    exact ⟨waiting, World.awaits_congr hsender hbroker hawaits⟩

/-- A step of the teardown: the broker is not stopped before the sender has left. -/
theorem tends_closing (h : Staffed s w run) (hplaced : Placed s.queue.name w run)
    (hjoined : Joined s) (hphase : run.phase = .closing steps awaiting report)
    (hadvance :
      Advance (World.host 0) run.settings w (.closing steps awaiting report) deed phase v) :
    Tends s w ((v.setPhase 0 phase).conclude 0 phase) := by
  obtain ⟨htriggered, hjoin⟩ := h.closing _ _ _ hphase
  obtain ⟨hmanned, hsuffix, hnot⟩ := h.fitsAt hphase
  have hsame : Frame run w w := .of_tasks h.run? rfl rfl rfl rfl rfl
  cases hadvance with
  | asked hcall =>
      obtain rfl := World.stop_perform hcall
      obtain ⟨hframe, hsender, hbroker⟩ := h.frame_stopChild htriggered _
      exact Or.inl (h.stepped hplaced hphase (by simp) hframe hsender hbroker _)
  | absent henabled =>
      rw [h.settings, hjoined.enables] at henabled
      cases henabled
  | joined henabled hcall =>
      obtain ⟨hending, rfl⟩ := World.ending_perform hcall
      have hne := h.ne_sender_of_childEnding hending
      exact Or.inl (h.stepped hplaced hphase (by simpa using hne) hsame rfl rfl _)
  | @awaited c rest awaiting report now w₁ _ henabled hcall hclock hnew =>
      obtain ⟨-, rfl⟩ := World.ending_perform hcall
      obtain ⟨-, rfl⟩ := World.clock_perform hclock
      refine Or.inl (h.phased hsame rfl ⟨hmanned, hsuffix, by simp⟩ (fun _ h => by cases h)
        (fun _ _ _ heq => ?_) ?_)
      · cases heq
        exact ⟨htriggered, hjoin⟩
      · rw [Placed, hphase] at hplaced
        exact hplaced
  | @overdue c rest deadline now report w₁ w₂ _ henabled hcall hclock hlate habort =>
      obtain ⟨hending, rfl⟩ := World.ending_perform hcall
      obtain ⟨-, rfl⟩ := World.clock_perform hclock
      obtain rfl := World.abort_perform habort
      -- All components have been started.
      obtain ⟨child, hmem⟩ : ∃ child, (c, child) ∈ run.children := by
        have hall : c ∈ run.children.map Prod.fst := by
          have heq : run.children.map Prod.fst ++ [] = _ := hmanned
          rw [List.append_nil] at heq
          rw [heq]
          refine List.mem_filter.mpr ⟨by cases c <;> simp, ?_⟩
          rw [h.settings]
          exact hjoined.enables c
        obtain ⟨⟨c', child⟩, hmem, rfl⟩ := List.mem_map.mp hall
        exact ⟨child, hmem⟩
      rw [World.child?_of_run? h.run?, h.lookup hmem]
      by_cases hc : c = .sender
      · subst hc
        exact Or.inr ⟨htriggered, h.leaves_of_abort hmem _⟩
      · obtain ⟨hframe, hsender, hbroker⟩ := h.frame_abort hmem hc
        exact Or.inl (h.stepped hplaced hphase (by simpa using hc) hframe hsender hbroker _)
  | brokerStopped | brokerRefused | brokerAwaited | brokerOverdue =>
      obtain rfl := eq_nil_of_stopBroker hsuffix
      simp at hjoin
  | reported => simp at hjoin

/-- Calls of the supervisor that concern neither its components nor the signal. -/
theorem frame_broker (h : Staffed s w run) (broker : Broker.State Bytes) :
    Frame run w { w with broker } := .of_tasks h.run? rfl rfl rfl rfl rfl

theorem frame_bind (h : Staffed s w run) (c : Component) (a : Net.Address) :
    Frame run w (w.bind c a).2 ∧ (w.bind c a).2.member? .sender = w.member? .sender ∧
      (w.bind c a).2.broker = w.broker := by
  unfold World.bind
  split <;> exact ⟨.of_tasks h.run? rfl rfl rfl rfl rfl, rfl, rfl⟩

/-- Nobody listens before anybody has been started. -/
theorem listener?_of_alone (h : Staffed s w run) (hchildren : run.children = []) :
    w.listener? = none := by
  rw [World.listener?, World.member?_of_run? h.run?, hchildren]
  rfl

/-- The supervisor has come to another phase, and has ended if that is the last one. -/
theorem tends_phased (h : Staffed s w run) (hframe : Frame run w v)
    (hsender : v.member? .sender = w.member? .sender) (hfits : { run with phase : Run }.Fits)
    (hended : ∀ outcome, phase = .ended outcome → run.children = [])
    (hclosing : ∀ steps awaiting report, phase = .closing steps awaiting report →
      w.root.triggered = true ∧ .join .sender ∈ steps)
    (hplaced : Placed s.queue.name v { run with phase }) :
    Tends s w ((v.setPhase 0 phase).conclude 0 phase) :=
  Or.inl ((h.phased hframe hsender hfits hended hclosing hplaced).conclude phase)

/-- A step of the supervisor. -/
theorem tends_advance (h : Staffed s w run) (hplaced : Placed s.queue.name w run)
    (hjoined : Joined s)
    (hadvance : Advance (World.host 0) run.settings w run.phase deed phase v) :
    Tends s w ((v.setPhase 0 phase).conclude 0 phase) := by
  generalize hphase : run.phase = before at hadvance
  have hfits := h.fitsAt hphase
  have hwas := hplaced
  rw [Placed, hphase] at hwas
  have hsame : Frame run w w := .of_tasks h.run? rfl rfl rfl rfl rfl
  cases before with
  | starting =>
      have hchildren : run.children = [] := hfits
      cases hadvance with
      | started hcall =>
          rcases World.start_cases hcall with ⟨-, rfl⟩ | ⟨hfault, -⟩
          · refine h.tends_phased (h.frame_broker _) rfl hchildren (by simp) (by simp) ?_
            show w.broker.start = _
            rw [hwas]
          · exact (hfault (h.faults .start)).elim
      | notStarted hcall =>
          rcases World.start_cases hcall with ⟨hanswer, -⟩ | ⟨hfault, -⟩
          · cases hanswer
          · exact (hfault (h.faults .start)).elim
  | declaring =>
      have hchildren : run.children = [] := hfits
      obtain ⟨hok, hattends⟩ := Broker.State.attends_of_declare (β := Bytes) s.queue
      rw [← hwas, ← h.settings] at hok hattends
      cases hadvance with
      | declared hcall =>
          rcases World.declare_cases hcall with ⟨-, rfl⟩ | ⟨hfault, -⟩
          · refine h.tends_phased (h.frame_broker _) rfl hchildren (by simp) (by simp) ⟨[], ?_⟩
            have hnobody := h.listener?_of_alone hchildren
            show (w.broker.declare run.settings.queue).2.Attends s.queue.name w.listener? []
            rw [hnobody, ← h.settings]
            exact hattends
          · exact (hfault (h.faults .declare)).elim
      | notDeclared hcall =>
          rcases World.declare_cases hcall with ⟨hanswer, -⟩ | ⟨hfault, -⟩
          · rw [hok] at hanswer
            cases hanswer
          · exact (hfault (h.faults .declare)).elim
  | binding servers =>
      have hchildren : run.children = [] := hfits
      obtain ⟨waiting, hawaits⟩ := hwas
      cases hadvance with
      | bound hcall =>
          obtain ⟨-, rfl⟩ := World.bind_perform hcall
          obtain ⟨hframe, hsender, hbroker⟩ := h.frame_bind _ _
          exact h.tends_phased hframe hsender hchildren (by simp) (by simp)
            ⟨waiting, World.awaits_congr hsender hbroker hawaits⟩
      | notBound hcall =>
          obtain ⟨-, rfl⟩ := World.bind_perform hcall
          obtain ⟨hframe, hsender, -⟩ := h.frame_bind _ _
          exact h.tends_phased hframe hsender hchildren (by simp) (by simp) hchildren
      | allBound =>
          refine h.tends_phased hsame rfl ?_ (by simp) (by simp) ⟨waiting, hawaits⟩
          simp [Run.Fits, Run.Manned, hchildren]
  | spawning components =>
      obtain ⟨waiting, hawaits⟩ := hwas
      cases hadvance with
      | spawned hcall =>
          obtain rfl := World.spawn_perform hcall
          exact Or.inl ((h.spawned hphase hawaits).conclude _)
      | allSpawned => exact h.tends_phased hsame rfl hfits (by simp) (by simp) ⟨waiting, hawaits⟩
  | watching =>
      obtain ⟨waiting, hawaits⟩ := hwas
      cases hadvance with
      | signalled hcall =>
          obtain ⟨htriggered, rfl⟩ := World.shutdown_perform hcall
          refine h.tends_phased hsame rfl ⟨hfits, List.suffix_rfl, by simp⟩ (by simp)
            (fun _ _ _ heq => ?_) ⟨waiting, hawaits⟩
          cases heq
          exact ⟨htriggered, by decide⟩
  | closing steps awaiting report => exact h.tends_closing hplaced hjoined hphase hadvance
  | abandoning cause =>
      have hchildren : run.children = [] := hfits
      cases hadvance with
      | abandoned hcall =>
          rcases World.stop_cases hcall with ⟨-, rfl⟩ | ⟨hfault, -⟩
          · exact h.tends_phased (h.frame_broker _) rfl trivial (fun _ _ => hchildren) (by simp)
              hchildren
          · exact (hfault (h.faults .stop)).elim
  | ended outcome => cases hadvance

/-- Whatever comes of a step of the supervisor. -/
theorem tends_stepSupervisor (h : Staffed s w run) (hplaced : Placed s.queue.name w run)
    (hjoined : Joined s) (hstep : w.stepSupervisor 0 run = some w') : Tends s w w' := by
  rcases World.stepSupervisor_cases hstep with ⟨deed, phase, v, hadvance, rfl⟩ |
    ⟨stall, -, rfl | rfl⟩
  · exact h.tends_advance hplaced hjoined hadvance
  · have hframe : Frame run w (w.block 0) :=
      .of_modify h.run? rfl (fun _ _ => Or.inl rfl) id rfl (fun x hx => ⟨x, hx, rfl⟩)
        fun x hx => ⟨x, hx, rfl, Or.inl⟩
    exact Or.inl (h.tended hplaced hframe (h.member?_modify_zero hframe rfl) rfl)
  · have hframe := frame_finish h.run? 0 .crashed
    exact Or.inl (h.tended hplaced hframe
      (h.member?_modify_zero hframe (w.tasks_finish 0 .crashed)) (w.broker_finish 0 .crashed))

end Staffed

end Almanac.Rehearsal
