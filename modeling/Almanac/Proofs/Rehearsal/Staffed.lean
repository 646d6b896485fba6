/-
  Almanac.Proofs.Rehearsal.Staffed

  A supervisor that is alone in its world with the components it has started. `Staffed` says who
  does what: each task is the supervisor or one of its components, the scheduler and the sender
  go by the settings of the run, and the sender has not left. `Tended` adds what the broker is
  in each phase: from the declaration of the queue until the teardown is through, the queue keeps
  its messages for the sender, whether it listens already or not yet.

  The frames say what leaves a world staffed: a task that goes on with its job, a component that
  has been started, asked to end, or ended by force.
-/
import Almanac.Proofs.Broker.Attended
import Almanac.Proofs.Rehearsal.BrokerLast

namespace Almanac.Rehearsal

open Broker (Consumer)
open Service (Component)
open Supervisor (Advance Ending Phase Settings)

/-! ## Components -/

/-- Whether a job is that of a component of a run. -/
def Run.Employs (run : Run) : Component → Job → Prop
  | .http, .server _ => True
  | .grpc, .server _ => True
  | .scheduler, .scheduler cell _ _ => cell = run.scheduler
  | .sender, .sender cell _ => cell = run.sender
  | _, _ => False

namespace Run.Employs

variable {run : Run} {c : Component} {job : Job}

theorem isLeaf (h : run.Employs c job) : job.isLeaf = true := by
  cases job with
  | supervisor _ => cases c <;> cases h
  | _ => rfl

theorem sender (h : run.Employs .sender job) : ∃ stage, job = .sender run.sender stage := by
  cases job with
  | sender cell stage =>
      obtain rfl : cell = run.sender := h
      exact ⟨stage, rfl⟩
  | _ => cases h

theorem eq_sender {cell : Nat} {stage : Sender.Stage} (h : run.Employs c (.sender cell stage)) :
    c = .sender := by
  cases c with
  | sender => rfl
  | _ => cases h

/-- What a server does is what a server does that has been told to end. -/
theorem server (h : run.Employs c job) (hserver : run.Employs c (.server true)) :
    ∃ asked, job = .server asked := by
  have hc : c = .http ∨ c = .grpc := by
    cases c with
    | http => exact Or.inl rfl
    | grpc => exact Or.inr rfl
    | _ => cases hserver
  cases job with
  | server asked => exact ⟨asked, rfl⟩
  | _ => rcases hc with rfl | rfl <;> cases h

end Run.Employs

/-- The consumer that a sender has become. -/
def Job.consumer? : Job → Option Consumer
  | .sender _ (.consuming c) => some c
  | _ => none

namespace World

/-- The task of a component of the supervisor. -/
def member? (w : World) (c : Component) : Option Task := (w.child? 0 c).bind w.task?

/-- The consumer that the sender has become, if it has been started and has registered. -/
def listener? (w : World) : Option Consumer := (w.member? .sender).bind fun t => t.job.consumer?

/-- The sender has not left: if it has been started it is still running. -/
def SenderStays (w : World) : Prop := ∀ t, w.member? .sender = some t → t.isRunning = true

/-- Messages wait for the sender at a queue. -/
def Awaits (w : World) (name : String) (waiting : List (Broker.Message Bytes)) : Prop :=
  w.broker.Attends name w.listener? waiting

end World

/-! ## The invariant -/

/-- The world of a supervisor that runs with some settings, alone, and whose sender stays. -/
structure Staffed (s : Settings) (w : World) (run : Run) : Prop where
  run? : w.run? 0 = some run
  settings : run.settings = s
  fits : run.Fits
  /-- A run that was given up has started nothing. -/
  ended : ∀ outcome, run.phase = .ended outcome → run.children = []
  /-- The teardown begins with the signal, and the sender is yet to be waited for. -/
  closing : ∀ steps awaiting report, run.phase = .closing steps awaiting report →
    w.root.triggered = true ∧ .join .sender ∈ steps
  children : ∀ c k, (c, k) ∈ run.children → ∃ t, w.task? k = some t ∧ run.Employs c t.job
  /-- There are no other tasks. -/
  staff : ∀ k, 0 < k → k < w.tasks.length → ∃ c, (c, k) ∈ run.children
  faults : ∀ call, w.faults.broker call = none
  scheduler : ∃ x, w.schedulers[run.scheduler]? = some x ∧ x.settings = s.scheduler
  sender : ∃ x, w.senders[run.sender]? = some x ∧ x.settings = s.consume ∧
    (x.stop.triggered = true → w.root.triggered = true)
  stays : w.SenderStays

/-- What the broker is to a run: it is new, it is started, it keeps the messages of a queue for
    the sender, or nobody needs it any more. -/
def Placed (name : String) (w : World) (run : Run) : Prop :=
  match run.phase with
  | .starting => w.broker = {}
  | .declaring => w.broker = Broker.State.start {}
  | .abandoning _ | .ended _ => run.children = []
  | _ => ∃ waiting, w.Awaits name waiting

/-- A supervisor whose queue is there for its sender. -/
def Tended (s : Settings) (w : World) : Prop :=
  ∃ run, Staffed s w run ∧ Placed s.queue.name w run

/-- What may become of such a world in one step: the sender leaves only after the signal. -/
def Tends (s : Settings) (w w' : World) : Prop :=
  Tended s w' ∨ w.root.triggered = true ∧ ¬w'.SenderStays

/-- Settings under which the sender consumes what the supervisor declares. -/
structure Joined (s : Settings) : Prop where
  enables : ∀ c, s.enables c = true
  consumes : s.consume.queue = s.queue.name

namespace World

variable {w v : World} {run run' : Run} {c : Component}

theorem child?_of_run? (hrun : w.run? 0 = some run) (c : Component) :
    w.child? 0 c = run.children.lookup c := by
  rw [child?, hrun]
  rfl

theorem member?_of_run? (hrun : w.run? 0 = some run) (c : Component) :
    w.member? c = (run.children.lookup c).bind w.task? := by
  rw [member?, child?_of_run? hrun]

/-- A component whose task is as it was. -/
theorem member?_congr (hrun : w.run? 0 = some run) (hrun' : v.run? 0 = some run')
    (hlookup : run'.children.lookup c = run.children.lookup c)
    (htask : ∀ k, run.children.lookup c = some k → v.task? k = w.task? k) :
    v.member? c = w.member? c := by
  rw [member?_of_run? hrun, member?_of_run? hrun', hlookup]
  cases hk : run.children.lookup c with
  | none => rfl
  | some k => exact htask k hk

theorem member?_of_tasks (h : v.tasks = w.tasks) (c : Component) : v.member? c = w.member? c := by
  have htask : v.task? = w.task? := funext fun k => by rw [task?, task?, h]
  simp only [member?, child?, run?, htask]

theorem senderStays_congr (h : v.member? .sender = w.member? .sender) (hstays : w.SenderStays) :
    v.SenderStays := by
  rw [SenderStays, h]
  exact hstays

theorem awaits_congr (h : v.member? .sender = w.member? .sender) (hbroker : v.broker = w.broker)
    {name : String} {waiting : List (Broker.Message Bytes)} (hawaits : w.Awaits name waiting) :
    v.Awaits name waiting := by
  rw [Awaits, listener?, h, hbroker]
  exact hawaits

end World

namespace Staffed

variable {s : Settings} {w w' v : World} {run : Run} {c : Component} {j : Nat} {t : Task}

/-- A component has one task. -/
theorem unique (h : Staffed s w run) {x y : Component × Nat} (hx : x ∈ run.children)
    (hy : y ∈ run.children) (hsame : x.1 = y.1) : x = y := by
  have hfits := h.fits
  unfold Run.Fits at hfits
  split at hfits
  · simp [hfits] at hx
  · simp [hfits] at hx
  · simp [hfits] at hx
  · simp [hfits] at hx
  · exact hfits.unique hx hy hsame
  · exact hfits.unique hx hy hsame
  · exact hfits.1.unique hx hy hsame
  · next outcome hphase => simp [h.ended outcome hphase] at hx

theorem lookup (h : Staffed s w run) (hmem : (c, j) ∈ run.children) :
    run.children.lookup c = some j := by
  cases hlookup : run.children.lookup c with
  | none =>
      have hnone := List.lookup_eq_none_iff.mp hlookup (c, j) hmem
      simp at hnone
  | some k =>
      rw [(Prod.mk.inj (h.unique hmem (Run.mem_of_lookup hlookup) rfl)).2]

theorem member (h : Staffed s w run) (hmem : (c, j) ∈ run.children) :
    w.member? c = w.task? j := by
  rw [World.member?_of_run? h.run?, h.lookup hmem]
  rfl

/-- Every task but that of the supervisor is the task of a component. -/
theorem component (h : Staffed s w run) (htask : w.task? j = some t)
    (hleaf : t.job.isLeaf = true) : ∃ c, (c, j) ∈ run.children ∧ run.Employs c t.job := by
  have hne : 0 ≠ j := World.ne_of_isLeaf h.run? htask hleaf
  obtain ⟨c, hmem⟩ := h.staff j (Nat.pos_of_ne_zero hne.symm) (World.lt_of_task? htask)
  obtain ⟨t', htask', hemploys⟩ := h.children c j hmem
  obtain rfl := Option.some.inj (htask.symm.trans htask')
  exact ⟨c, hmem, hemploys⟩

theorem of_server (h : Staffed s w run) {asked : Bool} (htask : w.task? j = some t)
    (hjob : t.job = .server asked) : ∃ c, (c, j) ∈ run.children ∧ c ≠ .sender := by
  obtain ⟨c, hmem, hemploys⟩ := h.component htask (by rw [hjob]; rfl)
  rw [hjob] at hemploys
  refine ⟨c, hmem, ?_⟩
  rintro rfl
  cases hemploys

theorem of_scheduler (h : Staffed s w run) {cell : Nat} {alarm : Option Nat}
    {tick : Option (Scheduler.Tick × Scheduler.Stage)} (htask : w.task? j = some t)
    (hjob : t.job = .scheduler cell alarm tick) :
    (.scheduler, j) ∈ run.children ∧ cell = run.scheduler := by
  obtain ⟨c, hmem, hemploys⟩ := h.component htask (by rw [hjob]; rfl)
  rw [hjob] at hemploys
  cases c with
  | scheduler => exact ⟨hmem, hemploys⟩
  | _ => cases hemploys

theorem of_sender (h : Staffed s w run) {cell : Nat} {stage : Sender.Stage}
    (htask : w.task? j = some t) (hjob : t.job = .sender cell stage) :
    (.sender, j) ∈ run.children ∧ cell = run.sender := by
  obtain ⟨c, hmem, hemploys⟩ := h.component htask (by rw [hjob]; rfl)
  rw [hjob] at hemploys
  obtain rfl := hemploys.eq_sender
  exact ⟨hmem, hemploys⟩

end Staffed

/-! ## Frames -/

/-- What becomes of the world apart from the broker: the components keep their jobs, and the
    settings are as they were. -/
structure Frame (run : Run) (w w' : World) : Prop where
  run? : w'.run? 0 = some run
  length : w'.tasks.length = w.tasks.length
  children : ∀ c k t, (c, k) ∈ run.children → w.task? k = some t → run.Employs c t.job →
    ∃ t', w'.task? k = some t' ∧ run.Employs c t'.job
  root : w.root.triggered = true → w'.root.triggered = true
  faults : w'.faults.broker = w.faults.broker
  scheduler : ∀ x, w.schedulers[run.scheduler]? = some x →
    ∃ x', w'.schedulers[run.scheduler]? = some x' ∧ x'.settings = x.settings
  sender : ∀ x, w.senders[run.sender]? = some x → ∃ x', w'.senders[run.sender]? = some x' ∧
    x'.settings = x.settings ∧ (x'.stop.triggered = true → x.stop.triggered = true ∨
      w'.root.triggered = true)

namespace Frame

variable {s : Settings} {w w' v : World} {run : Run}

theorem staffed (h : Frame run w w') (hw : Staffed s w run) (hstays : w'.SenderStays) :
    Staffed s w' run where
  run? := h.run?
  settings := hw.settings
  fits := hw.fits
  ended := hw.ended
  closing steps awaiting report hphase := by
    obtain ⟨htriggered, hjoin⟩ := hw.closing steps awaiting report hphase
    exact ⟨h.root htriggered, hjoin⟩
  children c k hmem := by
    obtain ⟨t, htask, hemploys⟩ := hw.children c k hmem
    exact h.children c k t hmem htask hemploys
  staff k hpos hlt := hw.staff k hpos (h.length ▸ hlt)
  faults call := by
    rw [h.faults]
    exact hw.faults call
  scheduler := by
    obtain ⟨x, hx, hsettings⟩ := hw.scheduler
    obtain ⟨x', hx', hsame⟩ := h.scheduler x hx
    exact ⟨x', hx', hsame.trans hsettings⟩
  sender := by
    obtain ⟨x, hx, hsettings, hstop⟩ := hw.sender
    obtain ⟨x', hx', hsame, hstop'⟩ := h.sender x hx
    refine ⟨x', hx', hsame.trans hsettings, fun htriggered => ?_⟩
    rcases hstop' htriggered with hbefore | hnow
    · exact h.root (hstop hbefore)
    · exact hnow
  stays := hstays

/-- One task changes, in a way that suits its component; the rest of the world changes only where
    nobody looks. -/
theorem of_modify {j : Nat} {f : Task → Task} (hrun : w.run? 0 = some run)
    (htasks : w'.tasks = w.tasks.modify j f)
    (hjob : ∀ t, w.task? j = some t →
      (f t).job = t.job ∨ t.job.isLeaf = true ∧ ∀ c, run.Employs c t.job → run.Employs c (f t).job)
    (hroot : w.root.triggered = true → w'.root.triggered = true)
    (hfaults : w'.faults.broker = w.faults.broker)
    (hscheduler : ∀ x, w.schedulers[run.scheduler]? = some x →
      ∃ x', w'.schedulers[run.scheduler]? = some x' ∧ x'.settings = x.settings)
    (hsender : ∀ x, w.senders[run.sender]? = some x → ∃ x', w'.senders[run.sender]? = some x' ∧
      x'.settings = x.settings ∧ (x'.stop.triggered = true → x.stop.triggered = true ∨
        w'.root.triggered = true)) : Frame run w w' where
  run? := by
    obtain ⟨t, htask, hsupervisor⟩ := World.run?_eq_some.mp hrun
    have hnew : w'.task? 0 = if j = 0 then (w.task? 0).map f else w.task? 0 := by
      rw [World.task?, htasks]
      exact World.task?_setTask w j f 0
    by_cases hj : j = 0
    · subst hj
      rw [if_pos rfl, htask] at hnew
      refine World.run?_eq_some.mpr ⟨_, hnew, ?_⟩
      rcases hjob t htask with hsame | ⟨hleaf, -⟩
      · exact hsame.trans hsupervisor
      · simp [hsupervisor, Job.isLeaf] at hleaf
    · rw [if_neg hj] at hnew
      exact World.run?_eq_some.mpr ⟨t, hnew.trans htask, hsupervisor⟩
  length := by rw [htasks, List.length_modify]
  children c k t hmem htask hemploys := by
    have hnew : w'.task? k = if j = k then (w.task? k).map f else w.task? k := by
      rw [World.task?, htasks]
      exact World.task?_setTask w j f k
    by_cases hjk : j = k
    · subst hjk
      rw [if_pos rfl, htask] at hnew
      refine ⟨f t, hnew, ?_⟩
      rcases hjob t htask with hsame | ⟨-, hkeeps⟩
      · rwa [hsame]
      · exact hkeeps c hemploys
    · rw [if_neg hjk] at hnew
      exact ⟨t, hnew.trans htask, hemploys⟩
  root := hroot
  faults := hfaults
  scheduler := hscheduler
  sender := hsender

/-- Nothing has happened to the tasks, the signal or the settings. -/
theorem of_tasks (hrun : w.run? 0 = some run) (htasks : v.tasks = w.tasks) (hroot : v.root = w.root)
    (hfaults : v.faults.broker = w.faults.broker) (hschedulers : v.schedulers = w.schedulers)
    (hsenders : v.senders = w.senders) : Frame run w v := by
  refine of_modify (j := 0) (f := id) hrun ?_ (fun t _ => Or.inl rfl) ?_ hfaults ?_ ?_
  · rw [htasks, List.modify_id]
  · rw [hroot]
    exact id
  · rw [hschedulers]
    exact fun x hx => ⟨x, hx, rfl⟩
  · rw [hsenders]
    exact fun x hx => ⟨x, hx, rfl, Or.inl⟩

end Frame

/-! ## The supervisor -/

namespace Staffed

variable {s : Settings} {w w' v : World} {run : Run} {c : Component} {j : Nat} {t : Task}
  {phase : Phase}

/-- The supervisor has come to another phase. -/
theorem phased (h : Staffed s w run) (hframe : Frame run w v)
    (hsender : v.member? .sender = w.member? .sender) (hfits : { run with phase : Run }.Fits)
    (hended : ∀ outcome, phase = .ended outcome → run.children = [])
    (hclosing : ∀ steps awaiting report, phase = .closing steps awaiting report →
      w.root.triggered = true ∧ .join .sender ∈ steps)
    (hplaced : Placed s.queue.name v { run with phase }) : Tended s (v.setPhase 0 phase) := by
  have hv : Staffed s v run := hframe.staffed h (World.senderStays_congr hsender h.stays)
  obtain ⟨t, htask, -⟩ := World.run?_eq_some.mp hv.run?
  rw [World.setPhase_eq hv.run?]
  let u : World := v.setJob 0 (.supervisor { run with phase })
  have hrun : u.run? 0 = some { run with phase } :=
    World.run?_eq_some.mpr ⟨_, World.task?_setJob htask _, rfl⟩
  -- The tasks of the components are not that of the supervisor.
  have hsame : ∀ c k, (c, k) ∈ run.children → u.task? k = v.task? k := by
    intro c k hmem
    obtain ⟨t', htask', hemploys⟩ := hv.children c k hmem
    exact World.task?_setJob_ne (World.ne_of_isLeaf hv.run? htask' hemploys.isLeaf) _
  have hmember : u.member? .sender = v.member? .sender :=
    World.member?_congr hv.run? hrun rfl fun k hk => hsame .sender k (Run.mem_of_lookup hk)
  refine ⟨{ run with phase }, ?_, ?_⟩
  · exact {
      run? := hrun
      settings := h.settings
      fits := hfits
      ended := hended
      closing := fun steps awaiting report hphase => by
        obtain ⟨htriggered, hjoin⟩ := hclosing steps awaiting report hphase
        exact ⟨hframe.root htriggered, hjoin⟩
      children := fun c k hmem => by
        obtain ⟨t', htask', hemploys⟩ := hv.children c k hmem
        exact ⟨t', (hsame c k hmem).trans htask', hemploys⟩
      staff := fun k hpos hlt => hv.staff k hpos (by simpa [World.setJob, World.setTask] using hlt)
      faults := hv.faults
      scheduler := hv.scheduler
      sender := hv.sender
      stays := World.senderStays_congr hmember hv.stays }
  · unfold Placed at hplaced ⊢
    split at hplaced
    · exact hplaced
    · exact hplaced
    · exact hplaced
    · exact hplaced
    · obtain ⟨waiting, hawaits⟩ := hplaced
      exact ⟨waiting, World.awaits_congr hmember rfl hawaits⟩

end Staffed

/-- A component has been started: its task is a new one behind the others. -/
structure Spawned (w : World) (run : Run) (c : Component) (new : Task) (v : World) (run' : Run) :
    Prop where
  run? : v.run? 0 = some run'
  children : run'.children = run.children ++ [(c, w.tasks.length)]
  length : v.tasks.length = w.tasks.length + 1
  kept : ∀ k, k ≠ 0 → k < w.tasks.length → v.task? k = w.task? k
  new : v.task? w.tasks.length = some new

/-- A new task does not consume yet, and nothing but the tasks changes when it is started. -/
theorem spawned_of_spawnChild {w : World} {run : Run} (hrun : w.run? 0 = some run) (c : Component)
    (phase : Phase) :
    ∃ new tasks, run.Employs c new.job ∧ new.job.consumer? = none ∧ new.isRunning = true ∧
      (w.spawnChild 0 c).setPhase 0 phase = { w with tasks } ∧
      Spawned w run c new { w with tasks }
        { run with children := run.children ++ [(c, w.tasks.length)], phase } := by
  obtain ⟨new, hemploys, hidle, hrunning, heq⟩ : ∃ new, run.Employs c new.job ∧
      new.job.consumer? = none ∧ new.isRunning = true ∧
      w.spawnChild 0 c = (w.setJob 0 (.supervisor { run with
        children := run.children ++ [(c, w.tasks.length)] })).spawn new := by
    rw [World.spawnChild, hrun]
    cases c <;> exact ⟨_, by simp [Run.Employs], rfl, rfl, rfl⟩
  obtain ⟨t, htask, -⟩ := World.run?_eq_some.mp hrun
  let run₁ : Run := { run with children := run.children ++ [(c, w.tasks.length)] }
  let u : World := (w.setJob 0 (.supervisor run₁)).spawn new
  have hlength : (w.setJob 0 (.supervisor run₁)).tasks.length = w.tasks.length :=
    List.length_modify ..
  have hold : ∀ k, k < w.tasks.length → u.task? k = (w.setJob 0 (.supervisor run₁)).task? k :=
    fun k hk => List.getElem?_append_left (hlength ▸ hk)
  have htask₁ : u.task? 0 = some { t with job := .supervisor run₁ } :=
    (hold 0 (World.lt_of_task? htask)).trans (World.task?_setJob htask _)
  have hrun₁ : u.run? 0 = some run₁ := World.run?_eq_some.mpr ⟨_, htask₁, rfl⟩
  have hpos : w.tasks.length ≠ 0 := Nat.ne_of_gt (World.lt_of_task? htask)
  refine ⟨new, (u.setJob 0 (.supervisor { run₁ with phase })).tasks, hemploys, hidle, hrunning, ?_,
    ?_, rfl, ?_, fun k hne hlt => ?_, ?_⟩
  · rw [heq]
    exact World.setPhase_eq hrun₁ phase
  · exact World.run?_eq_some.mpr ⟨_, World.task?_setJob htask₁ _, rfl⟩
  · simp [u, World.setJob, World.setTask, World.spawn]
  · have hset := World.task?_setJob_ne (w := u) hne.symm (.supervisor { run₁ with phase })
    exact hset.trans ((hold k hlt).trans (World.task?_setJob_ne hne.symm _))
  · have hset := World.task?_setJob_ne (w := u) hpos.symm (.supervisor { run₁ with phase })
    refine hset.trans ?_
    rw [← hlength]
    exact List.getElem?_concat_length

namespace Staffed

variable {s : Settings} {w w' v : World} {run run' : Run} {c : Component} {j : Nat} {t new : Task}

theorem place (h : Staffed s w run) (hmem : (c, j) ∈ run.children) :
    j ≠ 0 ∧ j < w.tasks.length := by
  obtain ⟨t, htask, hemploys⟩ := h.children c j hmem
  exact ⟨(World.ne_of_isLeaf h.run? htask hemploys.isLeaf).symm, World.lt_of_task? htask⟩

/-- The sender is the new task, or whom it was before. -/
theorem member?_spawned (h : Staffed s w run) (hspawned : Spawned w run c new v run') :
    v.member? .sender = w.member? .sender ∨
      w.member? .sender = none ∧ v.member? .sender = some new := by
  rw [World.member?_of_run? hspawned.run?, World.member?_of_run? h.run?, hspawned.children,
    List.lookup_append]
  cases hlookup : run.children.lookup .sender with
  | some k =>
      obtain ⟨hne, hlt⟩ := h.place (Run.mem_of_lookup hlookup)
      exact Or.inl (hspawned.kept k hne hlt)
  | none =>
      by_cases hc : Component.sender = c
      · subst hc
        refine Or.inr ⟨rfl, ?_⟩
        simpa using hspawned.new
      · have hother : (Component.sender == c) = false := by simpa using hc
        have hnew : ([(c, w.tasks.length)] : List (Component × Nat)).lookup .sender = none :=
          List.lookup_eq_none_iff.mpr (by simpa using hother)
        exact Or.inl (by simp [hnew])

/-- The supervisor has started the task of a component. -/
theorem spawned (h : Staffed s w run) {components : List Component}
    (hphase : run.phase = .spawning (c :: components)) {waiting : List (Broker.Message Bytes)}
    (hawaits : w.Awaits s.queue.name waiting) :
    Tended s ((w.spawnChild 0 c).setPhase 0 (.spawning components)) := by
  obtain ⟨new, tasks, hemploys, hidle, hrunning, heq, hspawned⟩ :=
    spawned_of_spawnChild h.run? c (.spawning components)
  rw [heq]
  have hsender := h.member?_spawned hspawned
  have hmanned : run.Manned (c :: components) := by
    have hfits := h.fits
    rwa [Run.Fits, hphase] at hfits
  refine ⟨{ run with
    children := run.children ++ [(c, w.tasks.length)], phase := .spawning components }, ?_,
    waiting, ?_⟩
  · exact {
      run? := hspawned.run?
      settings := h.settings
      fits := by simpa [Run.Fits, Run.Manned] using hmanned
      ended := fun outcome hended => by cases hended
      closing := fun steps awaiting report hclosing => by cases hclosing
      children := fun c' k hmem => by
        rcases List.mem_append.mp hmem with hmem | hmem
        · obtain ⟨hne, hlt⟩ := h.place hmem
          obtain ⟨t', htask', hemploys'⟩ := h.children c' k hmem
          exact ⟨t', (hspawned.kept k hne hlt).trans htask', hemploys'⟩
        · obtain ⟨rfl, rfl⟩ := Prod.mk.inj (List.mem_singleton.mp hmem)
          exact ⟨new, hspawned.new, hemploys⟩
      staff := fun k hpos hlt => by
        rw [hspawned.length] at hlt
        rcases Nat.lt_succ_iff_lt_or_eq.mp hlt with hlt | rfl
        · obtain ⟨c', hmem⟩ := h.staff k hpos hlt
          exact ⟨c', List.mem_append_left _ hmem⟩
        · exact ⟨c, List.mem_append_right _ (List.mem_singleton.mpr rfl)⟩
      faults := h.faults
      scheduler := h.scheduler
      sender := h.sender
      stays := by
        rcases hsender with hsame | ⟨-, hsome⟩
        · exact World.senderStays_congr hsame h.stays
        · intro t' ht'
          rw [hsome] at ht'
          exact Option.some.inj ht' ▸ hrunning }
  -- Somebody who has just been started does not listen yet.
  · rcases hsender with hsame | ⟨hnone, hsome⟩
    · exact World.awaits_congr hsame rfl hawaits
    · rw [World.Awaits, World.listener?, hsome, Option.bind_some, hidle]
      rw [World.Awaits, World.listener?, hnone] at hawaits
      exact hawaits

/-! ## The teardown -/

/-- The task of a component that is not the sender changes: it is neither that of the supervisor
    nor that of the sender. -/
theorem member?_modify (h : Staffed s w run) (hmem : (c, j) ∈ run.children) (hc : c ≠ .sender)
    {f : Task → Task} (htasks : v.tasks = w.tasks.modify j f) :
    v.member? .sender = w.member? .sender := by
  have hother : ∀ k, j ≠ k → v.task? k = w.task? k := by
    intro k hne
    rw [World.task?, htasks]
    exact (World.task?_setTask w j f k).trans (if_neg hne)
  obtain ⟨t₀, htask₀, hjob₀⟩ := World.run?_eq_some.mp h.run?
  have hrun : v.run? 0 = some run :=
    World.run?_eq_some.mpr ⟨t₀, (hother 0 (h.place hmem).1).trans htask₀, hjob₀⟩
  refine World.member?_congr h.run? hrun rfl fun k hk => hother k ?_
  have hsender : (.sender, k) ∈ run.children := Run.mem_of_lookup hk
  -- One job is not that of two components.
  rintro rfl
  obtain ⟨t, htask, hemploys⟩ := h.children c j hmem
  obtain ⟨t', htask', hemploys'⟩ := h.children .sender j hsender
  obtain rfl := Option.some.inj (htask.symm.trans htask')
  obtain ⟨stage, hjob⟩ := hemploys'.sender
  rw [hjob] at hemploys
  exact hc hemploys.eq_sender

/-- A server that has been started is told to end. -/
theorem stopChild_server (h : Staffed s w run) (hc : c = .http ∨ c = .grpc) :
    w.stopChild 0 c = w ∨
      ∃ child, (c, child) ∈ run.children ∧ w.stopChild 0 c = w.setJob child (.server true) := by
  have hlookup := World.child?_of_run? h.run? c
  cases hchild : run.children.lookup c with
  | none =>
      rw [hchild] at hlookup
      rcases hc with rfl | rfl <;> exact Or.inl (by simp [World.stopChild, hlookup])
  | some child =>
      rw [hchild] at hlookup
      refine Or.inr ⟨child, Run.mem_of_lookup hchild, ?_⟩
      rcases hc with rfl | rfl <;> simp [World.stopChild, hlookup]

/-- A server is told to end, a scheduler or a sender has a handle for it. -/
theorem stopChild_cases (h : Staffed s w run) (c : Component) :
    w.stopChild 0 c = w ∨
      (∃ child, (c, child) ∈ run.children ∧ run.Employs c (.server true) ∧
        w.stopChild 0 c = w.setJob child (.server true)) ∨
      w.stopChild 0 c = w.stopScheduler run.scheduler ∨
      w.stopChild 0 c = w.stopSender run.sender := by
  have hserver (hc : c = .http ∨ c = .grpc) (hemploys : run.Employs c (.server true)) :
      w.stopChild 0 c = w ∨ ∃ child, (c, child) ∈ run.children ∧ run.Employs c (.server true) ∧
        w.stopChild 0 c = w.setJob child (.server true) :=
    (h.stopChild_server hc).imp_right (Exists.imp fun _ hstop => ⟨hstop.1, hemploys, hstop.2⟩)
  cases c with
  | http => exact (hserver (Or.inl rfl) trivial).imp_right Or.inl
  | grpc => exact (hserver (Or.inr rfl) trivial).imp_right Or.inl
  | scheduler =>
      refine Or.inr (Or.inr (Or.inl ?_))
      simp [World.stopChild, h.run?]
  | sender =>
      refine Or.inr (Or.inr (Or.inr ?_))
      simp [World.stopChild, h.run?]

/-- Asking a component to end changes nothing else. -/
theorem frame_stopChild (h : Staffed s w run) (htriggered : w.root.triggered = true)
    (c : Component) :
    Frame run w (w.stopChild 0 c) ∧ (w.stopChild 0 c).member? .sender = w.member? .sender ∧
      (w.stopChild 0 c).broker = w.broker := by
  rcases h.stopChild_cases c with heq | ⟨child, hmem, hserver, heq⟩ | heq | heq
  · rw [heq]
    exact ⟨.of_tasks h.run? rfl rfl rfl rfl rfl, rfl, rfl⟩
  · rw [heq]
    have hframe : Frame run w (w.setJob child (.server true)) := by
      refine .of_modify (f := fun t => { t with job := .server true }) h.run? rfl
        (fun t htask => ?_) id rfl (fun x hx => ⟨x, hx, rfl⟩) fun x hx => ⟨x, hx, rfl, Or.inl⟩
      obtain ⟨t', htask', hemploys⟩ := h.children c child hmem
      obtain rfl := Option.some.inj (htask.symm.trans htask')
      refine Or.inr ⟨hemploys.isLeaf, fun c' hemploys' => ?_⟩
      obtain ⟨asked, hjob⟩ := hemploys.server hserver
      rw [hjob] at hemploys'
      cases c' <;> exact hemploys'
    have hne : c ≠ .sender := by
      rintro rfl
      exact hserver
    exact ⟨hframe, h.member?_modify hmem hne rfl, rfl⟩
  · rw [heq]
    refine ⟨.of_modify (j := 0) (f := id) h.run? (List.modify_id ..).symm (fun _ _ => Or.inl rfl)
      id rfl (fun x hx => ?_) fun x hx => ⟨x, hx, rfl, Or.inl⟩, rfl, rfl⟩
    refine ⟨{ x with stop := x.stop.trigger }, ?_, rfl⟩
    simp [World.stopScheduler, hx]
  · rw [heq]
    refine ⟨.of_modify (j := 0) (f := id) h.run? (List.modify_id ..).symm (fun _ _ => Or.inl rfl)
      id rfl (fun x hx => ⟨x, hx, rfl⟩) fun x hx => ?_, rfl, rfl⟩
    refine ⟨{ x with stop := x.stop.trigger }, ?_, rfl, fun _ => Or.inr htriggered⟩
    simp [World.stopSender, hx]

/-- A component that is ended by force ends; unless it is the sender, nothing else changes. -/
theorem frame_abort (h : Staffed s w run) (hmem : (c, j) ∈ run.children) (hc : c ≠ .sender) :
    Frame run w (w.abort j) ∧ (w.abort j).member? .sender = w.member? .sender ∧
      (w.abort j).broker = w.broker := by
  obtain ⟨t, htask, hemploys⟩ := h.children c j hmem
  have heq : w.abort j = { w with
      tasks := w.tasks.modify j fun t => { t with status := .aborted }
      gate := w.gate.leave (.task j) } := by
    have htask' : (w.tasks.modify j fun t => { t with status := .aborted })[j]? =
        some { t with status := .aborted } := by
      rw [List.getElem?_modify_eq, ← World.task?, htask]
      rfl
    simp only [World.abort, World.setTask, World.task?, htask']
    split
    · next hjob =>
      have hjob := congrArg Task.job (Option.some.inj hjob)
      simp only at hjob
      rw [hjob] at hemploys
      exact (hc hemploys.eq_sender).elim
    · rfl
  have hframe : Frame run w (w.abort j) := by
    rw [heq]
    exact .of_modify (f := fun t => { t with status := .aborted }) h.run? rfl
      (fun _ _ => Or.inl rfl) id rfl (fun x hx => ⟨x, hx, rfl⟩) fun x hx => ⟨x, hx, rfl, Or.inl⟩
  refine ⟨hframe, h.member?_modify hmem hc (w.tasks_abort j), ?_⟩
  rw [heq]

end Staffed

end Almanac.Rehearsal
