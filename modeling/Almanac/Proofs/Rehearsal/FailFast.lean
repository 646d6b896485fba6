/-
  Almanac.Proofs.Rehearsal.FailFast

  When the shutdown signal is given. In every run of a rehearsal, whatever its tasks do and
  however they end, the signal has been given exactly if somebody outside gave it or a
  supervised task has ended with an error (`signalled_iff`). A supervised task that crashes
  gives no signal, and its siblings go on without it (`crash_stops_nobody`).
-/
import Almanac.Proofs.Rehearsal.Calm
import Almanac.Proofs.Rehearsal.Hosted
import Mathlib.Logic.Relation

namespace Almanac

/-- Whether a task ended with an error. -/
def Supervisor.Ending.isFailure : Supervisor.Ending → Bool
  | .failed _ => true
  | _ => false

namespace Rehearsal

open Service (Component)
open Supervisor (Advance Deed Ending Phase)

/-! ## Failures -/

/-- Whether a supervised task has ended with an error. -/
def Task.hasFailed (t : Task) : Bool :=
  t.supervised && match t.status with
    | .ended (.failed _) => true
    | _ => false

/-- Whether any supervised task has. -/
def World.hasFailure (w : World) : Bool := w.tasks.any Task.hasFailed

theorem Task.not_hasFailed {t : Task} (h : t.isRunning = true) : t.hasFailed = false := by
  obtain ⟨job, supervised, status⟩ := t
  cases status with
  | running => simp [hasFailed]
  | _ => simp [isRunning] at h

section

variable {α : Type} {l : List α} {p : α → Bool} {f : α → α}

theorem any_modify_of_same (h : ∀ a, p (f a) = p a) (j : Nat) :
    (l.modify j f).any p = l.any p := by
  induction l generalizing j with
  | nil => cases j <;> rfl
  | cons a l ih =>
      cases j with
      | zero => simp [h]
      | succ j => simp [ih]

/-- An entry that satisfied nothing before. -/
theorem any_modify_of_not {j : Nat} {a : α} (ha : l[j]? = some a) (hnot : p a = false) :
    (l.modify j f).any p = (l.any p || p (f a)) := by
  induction l generalizing j with
  | nil => simp at ha
  | cons b l ih =>
      cases j with
      | zero =>
          obtain rfl : b = a := by simpa using ha
          simp [hnot, Bool.or_comm]
      | succ j => simp [ih (by simpa using ha), Bool.or_assoc]

end

namespace World

variable {w w' v : World} {i j : Nat} {t : Task} {called : Bool}

/-- What a task does is not how it ended. -/
@[simp] theorem hasFailure_setJob (w : World) (j : Nat) (job : Job) :
    (w.setJob j job).hasFailure = w.hasFailure :=
  any_modify_of_same (p := Task.hasFailed) (f := fun t : Task => { t with job }) (fun _ => rfl) j

theorem setPhase_cases (w : World) (i : Nat) (phase : Phase) :
    w.setPhase i phase = w ∨ ∃ job, w.setPhase i phase = w.setJob i job := by
  unfold setPhase
  split
  · exact Or.inr ⟨_, rfl⟩
  · exact Or.inl rfl

/-- A task that is in a call that never returns has not failed. -/
theorem hasFailure_block (htask : w.task? j = some t) (hfresh : t.hasFailed = false) :
    (w.block j).hasFailure = w.hasFailure := by
  have hmodify := any_modify_of_not (f := fun t : Task => { t with status := .stuck }) htask hfresh
  refine hmodify.trans ?_
  simp [Task.hasFailed, hasFailure]

theorem hasFailure_finish (htask : w.task? j = some t) (hfresh : t.hasFailed = false)
    (how : Ending) :
    (w.finish j how).hasFailure = (w.hasFailure || (t.supervised && how.isFailure)) := by
  rw [hasFailure, tasks_finish, any_modify_of_not htask hfresh]
  cases how <;> rfl

/-- A supervised task that ends with an error gives the signal. -/
theorem triggered_finish (htask : w.task? j = some t) (how : Ending) :
    (w.finish j how).root.triggered =
      (w.root.triggered || (t.supervised && how.isFailure)) := by
  cases how with
  | failed cause =>
      have htask' : (w.tasks.modify j fun t => { t with status := .ended (.failed cause) })[j]? =
          some { t with status := .ended (.failed cause) } := by
        rw [List.getElem?_modify_eq, ← task?, htask]
        rfl
      simp only [finish, setTask, task?, htask']
      cases t.supervised <;> simp [shutDown, Shutdown.Channel.trigger, Ending.isFailure]
  | clean => simp [finish, setTask, Ending.isFailure]
  | crashed => simp [finish, setTask, Ending.isFailure]

/-! ## The signal -/

/-- The signal has been given if somebody outside has given it, which is what `called` says, or a
    supervised task has failed, and not otherwise. -/
def Coupled (called : Bool) (w : World) : Prop := w.root.triggered = (called || w.hasFailure)

namespace Coupled

/-- Nothing of the kind has happened. -/
theorem congr (h : Coupled called w) (hroot : w'.root.triggered = w.root.triggered)
    (hfailure : w'.hasFailure = w.hasFailure) : Coupled called w' := by
  rw [Coupled, hroot, hfailure]
  exact h

theorem calm (h : Coupled called w) (hcalm : Calm w v) : Coupled called v :=
  h.congr (congrArg _ hcalm.root) (congrArg (·.any Task.hasFailed) hcalm.tasks)

theorem block (h : Coupled called w) (htask : w.task? j = some t) (hfresh : t.hasFailed = false) :
    Coupled called (w.block j) :=
  h.congr rfl (hasFailure_block htask hfresh)

/-- A task that ends with an error counts as failed and gives the signal; one that ends in any
    other way does neither. -/
theorem finish (h : Coupled called w) (htask : w.task? j = some t) (hfresh : t.hasFailed = false)
    (how : Ending) : Coupled called (w.finish j how) := by
  rw [Coupled, triggered_finish htask, hasFailure_finish htask hfresh, h, Bool.or_assoc]

/-- A step of a task that is no supervisor. -/
theorem effect (h : Coupled called w) (htask : w.task? j = some t)
    (hrunning : t.isRunning = true) (heffect : Effect w j w') : Coupled called w' := by
  have hfresh := Task.not_hasFailed hrunning
  cases heffect with
  | none hcalm => exact h.calm hcalm
  | goesOn hcalm _ => exact (h.calm hcalm).congr rfl (hasFailure_setJob _ _ _)
  | hangs hcalm => exact (h.calm hcalm).block ((hcalm.task? j).trans htask) hfresh
  | ends hcalm => exact (h.calm hcalm).finish ((hcalm.task? j).trans htask) hfresh _
  | @leaves v job how hcalm _ =>
      have hcoupled : Coupled called (v.setJob j job) :=
        (h.calm hcalm).congr rfl (hasFailure_setJob v j job)
      exact hcoupled.finish (task?_setJob ((hcalm.task? j).trans htask) job) hfresh how

end Coupled

/-! ## Supervisors -/

@[simp] theorem root_abort (w : World) (j : Nat) : (w.abort j).root = w.root := by
  simp only [abort]
  split <;> rfl

theorem quiet_bind (w : World) (c : Component) (a : Net.Address) :
    (w.bind c a).2.root = w.root ∧ (w.bind c a).2.hasFailure = w.hasFailure := by
  unfold bind
  split <;> exact ⟨rfl, rfl⟩

/-- A component that is aborted has not failed. -/
theorem quiet_abortChild {c : Component} (h : w.childEnding i c = none) :
    (((w.child? i c).map w.abort).getD w).root = w.root ∧
      (((w.child? i c).map w.abort).getD w).hasFailure = w.hasFailure := by
  cases hchild : w.child? i c with
  | none => exact ⟨rfl, rfl⟩
  | some child =>
      refine ⟨w.root_abort child, ?_⟩
      rw [Option.map_some, Option.getD_some, hasFailure, tasks_abort]
      cases htask : w.tasks[child]? with
      | none => rw [List.modify_eq_self (by simpa using htask), hasFailure]
      | some t =>
          have hfresh : t.hasFailed = false := by
            obtain ⟨job, supervised, status⟩ := t
            cases status with
            | ended how => simp [childEnding, hchild, task?, htask] at h
            | _ => simp [Task.hasFailed]
          rw [any_modify_of_not htask hfresh]
          simp [Task.hasFailed, hasFailure]

theorem quiet_spawnChild (w : World) (i : Nat) (c : Component) :
    (w.spawnChild i c).root = w.root ∧ (w.spawnChild i c).hasFailure = w.hasFailure := by
  cases hrun : w.run? i with
  | none =>
      rw [spawnChild, hrun]
      exact ⟨rfl, rfl⟩
  | some run =>
      obtain ⟨new, -, -, hrunning, heq⟩ := spawnChild_eq hrun c
      rw [heq]
      refine ⟨rfl, ?_⟩
      have hold := hasFailure_setJob w i
        (.supervisor { run with children := run.children ++ [(c, w.tasks.length)] })
      rw [hasFailure] at hold
      simp only [spawn, hasFailure, List.any_append, hold]
      simp [Task.not_hasFailed hrunning]

theorem quiet_stopChild (w : World) (i : Nat) (c : Component) :
    (w.stopChild i c).root = w.root ∧ (w.stopChild i c).hasFailure = w.hasFailure := by
  unfold stopChild
  split
  · exact ⟨rfl, rfl⟩
  · exact ⟨rfl, rfl⟩
  · split
    · exact ⟨rfl, hasFailure_setJob _ _ _⟩
    · exact ⟨rfl, rfl⟩

/-- What a supervisor asks for is no failure and gives no signal. -/
theorem Asked.quiet (h : Asked w i v) : v.root = w.root ∧ v.hasFailure = w.hasFailure := by
  cases h with
  | nothing => exact ⟨rfl, rfl⟩
  | broker b => exact ⟨rfl, rfl⟩
  | bind c a => exact w.quiet_bind c a
  | spawn c => exact w.quiet_spawnChild i c
  | stop c => exact w.quiet_stopChild i c
  | abort hending => exact quiet_abortChild hending

/-- A supervisor that ends leaves the tasks as they were. -/
theorem tasks_of_advance_ended {settings : Supervisor.Settings} {phase : Phase}
    {deed : Option Deed} {outcome : Except Service.Error Supervisor.Report}
    (h : Advance (host i) settings w phase deed (.ended outcome) v) : v.tasks = w.tasks := by
  cases h with
  | notStarted hcall => rcases start_cases hcall with ⟨-, rfl⟩ | ⟨-, rfl, -⟩ <;> rfl
  | abandoned hcall => rcases stop_cases hcall with ⟨-, rfl⟩ | ⟨-, rfl, -⟩ <;> rfl
  | reported => rfl

theorem Coupled.supervisor {run : Run} (h : Coupled called w) (htask : w.task? i = some t)
    (hrunning : t.isRunning = true) (hstep : w.stepSupervisor i run = some w') :
    Coupled called w' := by
  have hfresh := Task.not_hasFailed hrunning
  rcases stepSupervisor_cases hstep with ⟨deed, phase, v, hadvance, rfl⟩ | ⟨stall, -, rfl | rfl⟩
  · obtain ⟨hroot, hfailure⟩ := (asked_of_advance hadvance).quiet
    have hphase : Coupled called (v.setPhase i phase) := by
      rcases v.setPhase_cases i phase with heq | ⟨job, heq⟩ <;> rw [heq]
      · exact h.congr (congrArg _ hroot) hfailure
      · exact h.congr (congrArg _ hroot) ((hasFailure_setJob v i job).trans hfailure)
    -- A supervisor that ends has been running until now.
    have hended : ∀ outcome, phase = .ended outcome →
        ∃ t', (v.setPhase i phase).task? i = some t' ∧ t'.hasFailed = false := by
      rintro outcome rfl
      have htask' : v.task? i = some t := by
        rw [task?, tasks_of_advance_ended hadvance]
        exact htask
      rcases v.setPhase_cases i (.ended outcome) with heq | ⟨job, heq⟩ <;> rw [heq]
      · exact ⟨t, htask', hfresh⟩
      · exact ⟨_, task?_setJob htask' job, hfresh⟩
    unfold conclude
    split
    · obtain ⟨t', ht', hfresh'⟩ := hended _ rfl
      exact hphase.finish ht' hfresh' _
    · obtain ⟨t', ht', hfresh'⟩ := hended _ rfl
      exact hphase.finish ht' hfresh' _
    · exact hphase
  · exact h.block htask hfresh
  · exact h.finish htask hfresh _

end World

/-! ## Runs -/

/-- How things are at a moment: the world, and whether somebody outside has given the signal. -/
structure Moment where
  world : World
  called : Bool := false

/-- Whether a task has just been started: it runs, and has started no components. -/
structure Task.Fresh (t : Task) : Prop where
  running : t.isRunning = true
  childless : ∀ run, t.job = .supervisor run → run.children = []

/-- What can happen next. -/
inductive Moment.Step : Moment → Moment → Prop
  /-- A task makes a step. -/
  | task {m : Moment} {j : Nat} {w : World} (hstep : m.world.stepTask j = some w) :
      Step m { m with world := w }
  /-- A task ends, for reasons of its own. -/
  | ends {m : Moment} {j : Nat} {t : Task} (how : Ending) (htask : m.world.task? j = some t)
      (hrunning : t.isRunning = true) : Step m { m with world := m.world.finish j how }
  /-- Others change what they like, and may start tasks. -/
  | others {m : Moment} {w : World} (new : List Task) (htasks : w.tasks = m.world.tasks ++ new)
      (hnew : ∀ t ∈ new, t.Fresh) (hroot : w.root = m.world.root) :
      Step m { m with world := w }
  /-- Somebody outside gives the signal. -/
  | signal {m : Moment} : Step m ⟨m.world.shutDown, true⟩

def Moment.Run : Moment → Moment → Prop := Relation.ReflTransGen Moment.Step

namespace World

variable {w w' v : World} {i j : Nat} {t : Task} {called : Bool}

theorem coupled_stepTask (h : Coupled called w) (hstep : w.stepTask j = some w') :
    Coupled called w' := by
  obtain ⟨t, htask, hrunning, ⟨-, heffect⟩ | ⟨run, -, hsupervisor⟩⟩ := stepTask_cases hstep
  · exact h.effect htask hrunning heffect
  · exact h.supervisor htask hrunning hsupervisor

/-! ## Components -/

/-- The components of every supervisor are supervised tasks. -/
def Watched (w : World) : Prop :=
  ∀ i t run, w.task? i = some t → t.job = .supervisor run →
    ∀ x ∈ run.children, ∃ t', w.task? x.2 = some t' ∧ t'.supervised = true

/-- What becomes of the tasks: they stay as supervised as they are, and what is new among the
    components of a supervisor is a supervised task. -/
structure Tends (w w' : World) : Prop where
  grows : ∀ j t, w.task? j = some t → ∃ t', w'.task? j = some t' ∧ t'.supervised = t.supervised
  children : ∀ i t run, w'.task? i = some t → t.job = .supervisor run → ∀ x ∈ run.children,
    (∃ t₀ run₀, w.task? i = some t₀ ∧ t₀.job = .supervisor run₀ ∧ x ∈ run₀.children) ∨
      ∃ t', w'.task? x.2 = some t' ∧ t'.supervised = true

namespace Tends

theorem watched (h : Tends w w') (hw : w.Watched) : w'.Watched := by
  intro i t run htask hjob x hx
  rcases h.children i t run htask hjob x hx with ⟨t₀, run₀, htask₀, hjob₀, hx₀⟩ | hnew
  · obtain ⟨child, hchild, hsupervised⟩ := hw i t₀ run₀ htask₀ hjob₀ x hx₀
    obtain ⟨child', hchild', hsame⟩ := h.grows _ _ hchild
    exact ⟨child', hchild', hsame.trans hsupervised⟩
  · exact hnew

theorem of_alike (h : Alike w v) : Tends w v where
  grows j t htask := by
    obtain ⟨t', htask', hfollows⟩ := h.retains j t htask
    exact ⟨t', htask', hfollows.supervised⟩
  children i t run htask hjob x hx := by
    -- There are no new tasks, and a supervisor has been one before.
    have hlt : i < w.tasks.length := h.length ▸ lt_of_task? htask
    obtain ⟨t', htask', hfollows⟩ := h.retains i _ (List.getElem?_eq_getElem hlt)
    obtain rfl := Option.some.inj (htask.symm.trans htask')
    rcases hfollows.job with hsame | ⟨-, hleaf⟩
    · exact Or.inl ⟨_, run, List.getElem?_eq_getElem hlt, hsame.symm.trans hjob, hx⟩
    · simp [hjob, Job.isLeaf] at hleaf

theorem of_tasks (h : v.tasks = w.tasks) : Tends w v := of_alike (.of_tasks h)

theorem trans (h : Tends w v) (h' : Tends v w') : Tends w w' where
  grows j t htask := by
    obtain ⟨t₁, htask₁, hsame₁⟩ := h.grows j t htask
    obtain ⟨t₂, htask₂, hsame₂⟩ := h'.grows j t₁ htask₁
    exact ⟨t₂, htask₂, hsame₂.trans hsame₁⟩
  children i t run htask hjob x hx := by
    rcases h'.children i t run htask hjob x hx with ⟨t₁, run₁, htask₁, hjob₁, hx₁⟩ | hnew
    · rcases h.children i t₁ run₁ htask₁ hjob₁ x hx₁ with hold | ⟨child, hchild, hsupervised⟩
      · exact Or.inl hold
      · obtain ⟨child', hchild', hsame⟩ := h'.grows _ _ hchild
        exact Or.inr ⟨child', hchild', hsame.trans hsupervised⟩
    · exact Or.inr hnew

/-- A task changes, and what is new among its components is a supervised task. -/
theorem setTask {f : Task → Task} (hsupervised : ∀ t, (f t).supervised = t.supervised)
    (hjob : ∀ t run, w.task? j = some t → (f t).job = .supervisor run →
      ∃ run₀, t.job = .supervisor run₀ ∧ ∀ x ∈ run.children, x ∈ run₀.children ∨
        ∃ t', w.task? x.2 = some t' ∧ t'.supervised = true) :
    Tends w (w.setTask j f) := by
  have hgrows : ∀ k t, w.task? k = some t →
      ∃ t', (w.setTask j f).task? k = some t' ∧ t'.supervised = t.supervised := by
    intro k t htask
    rw [task?_setTask, htask]
    split
    · exact ⟨f t, rfl, hsupervised t⟩
    · exact ⟨t, rfl, rfl⟩
  refine ⟨hgrows, fun i t run htask hrun x hx => ?_⟩
  rw [task?_setTask] at htask
  split at htask
  · next hij =>
    subst hij
    obtain ⟨t₀, htask₀, rfl⟩ := Option.map_eq_some_iff.mp htask
    obtain ⟨run₀, hrun₀, hchildren⟩ := hjob t₀ run htask₀ hrun
    rcases hchildren x hx with hold | ⟨child, hchild, hnew⟩
    · exact Or.inl ⟨t₀, run₀, htask₀, hrun₀, hold⟩
    · obtain ⟨child', hchild', hsame⟩ := hgrows _ _ hchild
      exact Or.inr ⟨child', hchild', hsame.trans hnew⟩
  · exact Or.inl ⟨t, run, htask, hrun, hx⟩

theorem setJob {job : Job} (hleaf : job.isLeaf = true) : Tends w (w.setJob j job) :=
  setTask (fun _ => rfl) fun _ run _ hrun => by
    obtain rfl : job = .supervisor run := hrun
    simp [Job.isLeaf] at hleaf

/-- Whoever starts tasks starts them without components. -/
theorem append {new : List Task} (h : w'.tasks = w.tasks ++ new)
    (hnew : ∀ t ∈ new, ∀ run, t.job = .supervisor run → run.children = []) : Tends w w' where
  grows j t htask := by
    obtain ⟨t', htask', hfollows⟩ := Retains.append h j t htask
    exact ⟨t', htask', hfollows.supervised⟩
  children i t run htask hrun x hx := by
    rw [task?, h] at htask
    rcases Nat.lt_or_ge i w.tasks.length with hlt | hge
    · rw [List.getElem?_append_left hlt] at htask
      exact Or.inl ⟨t, run, htask, hrun, hx⟩
    · rw [List.getElem?_append_right hge] at htask
      rw [hnew t (List.mem_of_getElem? htask) run hrun] at hx
      cases hx

theorem setPhase (w : World) (i : Nat) (phase : Phase) : Tends w (w.setPhase i phase) := by
  unfold World.setPhase
  split
  · next run hrun =>
    obtain ⟨t, htask, hjob⟩ := run?_eq_some.mp hrun
    refine setTask (fun _ => rfl) fun t' run' htask' hrun' => ⟨run, ?_, ?_⟩
    · rwa [← Option.some.inj (htask.symm.trans htask')]
    · cases hrun'
      exact fun _ hx => Or.inl hx
  · exact of_tasks rfl

/-- The new component is a supervised task behind the others. -/
theorem spawnChild (w : World) (i : Nat) (c : Component) : Tends w (w.spawnChild i c) := by
  cases hrun : w.run? i with
  | none =>
      rw [World.spawnChild, hrun]
      exact of_tasks rfl
  | some run =>
      obtain ⟨t, htask, hjob⟩ := run?_eq_some.mp hrun
      obtain ⟨new, hleaf, hsupervised, -, heq⟩ := spawnChild_eq hrun c
      rw [heq]
      -- First the task is there, and then the supervisor knows of it.
      let u : World := w.spawn new
      have hspawn : Tends w u := by
        refine append rfl fun t' ht' run hrun => ?_
        rw [List.mem_singleton.mp ht'] at hrun
        simp [hrun, Job.isLeaf] at hleaf
      have hknows : Tends u (u.setJob i (.supervisor { run with
          children := run.children ++ [(c, w.tasks.length)] })) := by
        refine setTask (fun _ => rfl) fun t' run' htask' hrun' => ?_
        have hsame : u.task? i = some t :=
          (List.getElem?_append_left (lt_of_task? htask)).trans htask
        obtain rfl : t = t' := Option.some.inj (hsame.symm.trans htask')
        cases hrun'
        refine ⟨run, hjob, fun x hx => ?_⟩
        rcases List.mem_append.mp hx with hold | hnew
        · exact Or.inl hold
        · rw [List.mem_singleton.mp hnew]
          exact Or.inr ⟨new, List.getElem?_concat_length, hsupervised⟩
      refine (hspawn.trans hknows).trans (of_tasks ?_)
      exact (modify_append_of_lt (lt_of_task? htask) _ _).symm

theorem stopChild (w : World) (i : Nat) (c : Component) : Tends w (w.stopChild i c) := by
  unfold World.stopChild
  split
  · exact of_tasks rfl
  · exact of_tasks rfl
  · split
    · exact setJob rfl
    · exact of_tasks rfl

theorem abortChild (w : World) (i : Nat) (c : Component) :
    Tends w (((w.child? i c).map w.abort).getD w) := by
  cases w.child? i c with
  | none => exact of_tasks rfl
  | some child => exact of_alike (.abort w child)

theorem asked (h : Asked w i v) : Tends w v := by
  cases h with
  | nothing => exact of_tasks rfl
  | broker b => exact of_tasks rfl
  | bind c a => exact of_tasks (w.tasks_bind c a)
  | spawn c => exact spawnChild w i c
  | stop c => exact stopChild w i c
  | abort _ => exact abortChild w i _

theorem stepTask (h : w.stepTask j = some w') : Tends w w' := by
  obtain ⟨t, htask, -, ⟨hleaf, heffect⟩ | ⟨run, -, hsupervisor⟩⟩ := stepTask_cases h
  · exact of_alike (heffect.alike htask hleaf)
  · rcases stepSupervisor_cases hsupervisor with
      ⟨deed, phase, v, hadvance, rfl⟩ | ⟨stall, -, rfl | rfl⟩
    · exact ((asked (asked_of_advance hadvance)).trans (setPhase v j phase)).trans
        (of_alike (alike_conclude _ j phase))
    · exact of_alike (.block w j)
    · exact of_alike (.finish w j _)

end Tends

end World

/-! ## Fail fast -/

theorem World.hasFailure_iff {w : World} :
    w.hasFailure = true ↔ ∃ j t cause, w.task? j = some t ∧ t.supervised = true ∧
      t.status = .ended (.failed cause) := by
  rw [World.hasFailure, List.any_eq_true]
  constructor
  · rintro ⟨⟨job, supervised, status⟩, hmem, hfailed⟩
    obtain ⟨j, htask⟩ := List.mem_iff_getElem?.mp hmem
    simp only [Task.hasFailed, Bool.and_eq_true] at hfailed
    obtain ⟨hsupervised, hstatus⟩ := hfailed
    split at hstatus
    · next cause => exact ⟨j, _, cause, htask, hsupervised, rfl⟩
    · cases hstatus
  · rintro ⟨j, t, cause, htask, hsupervised, hstatus⟩
    exact ⟨t, List.mem_of_getElem? htask, by simp [Task.hasFailed, hsupervised, hstatus]⟩

namespace Moment

variable {m m' : Moment}

/-- What holds at every moment of a run. -/
structure Sound (m : Moment) : Prop where
  coupled : m.world.Coupled m.called
  watched : m.world.Watched

theorem Sound.step (h : m.Sound) (hstep : Step m m') : m'.Sound := by
  cases hstep with
  | task hstep =>
      exact ⟨World.coupled_stepTask h.coupled hstep, (World.Tends.stepTask hstep).watched h.watched⟩
  | ends how htask hrunning =>
      exact ⟨h.coupled.finish htask (Task.not_hasFailed hrunning) how,
        (World.Tends.of_alike (.finish _ _ _)).watched h.watched⟩
  | others new htasks hnew hroot =>
      have hnone : new.any Task.hasFailed = false :=
        List.any_eq_false.mpr fun t ht => by simp [Task.not_hasFailed (hnew t ht).running]
      refine ⟨h.coupled.congr (congrArg _ hroot) ?_,
        (World.Tends.append htasks fun t ht => (hnew t ht).childless).watched h.watched⟩
      rw [World.hasFailure, htasks, List.any_append, hnone, Bool.or_false, World.hasFailure]
  | signal => exact ⟨rfl, (World.Tends.of_tasks rfl).watched h.watched⟩

theorem Sound.run (h : m.Sound) (hrun : Run m m') : m'.Sound := by
  induction hrun with
  | refl => exact h
  | tail _ hstep ih => exact ih.step hstep

/-- A supervisor that has just been started, among no other tasks. -/
theorem Sound.start {w : World} (hroot : w.root.triggered = false) (htasks : w.tasks = [])
    (settings : Supervisor.Settings) : Sound ⟨w.runSupervisor settings, false⟩ where
  coupled := by
    have hnone : (w.runSupervisor settings).hasFailure = false := by
      simp [World.runSupervisor, World.addScheduler, World.addSender, World.spawn,
        World.hasFailure, htasks, Task.hasFailed]
    rw [World.Coupled, hnone]
    exact hroot
  watched i t run htask hjob x hx := by
    have htasks' : (w.runSupervisor settings).tasks =
        [{ job := .supervisor ⟨settings, .starting, w.schedulers.length, w.senders.length, []⟩ }] := by
      simp [World.runSupervisor, World.addScheduler, World.addSender, World.spawn, htasks]
    rw [World.task?, htasks'] at htask
    obtain rfl := List.mem_singleton.mp (List.mem_of_getElem? htask)
    cases hjob
    cases hx

/-- The signal has been given exactly if somebody outside gave it or a supervised task has ended
    with an error; and the components of every supervisor are supervised, so one that ends with
    an error gives it. A component that crashes does not. -/
theorem signalled_iff {w : World} (hroot : w.root.triggered = false) (htasks : w.tasks = [])
    (settings : Supervisor.Settings) (hrun : Run ⟨w.runSupervisor settings, false⟩ m) :
    (∀ i c cause, m.world.childEnding i c = some (.failed cause) →
        m.world.root.triggered = true) ∧
      (m.world.root.triggered = true ↔ m.called = true ∨
        ∃ j t cause, m.world.task? j = some t ∧ t.supervised = true ∧
          t.status = .ended (.failed cause)) := by
  obtain ⟨hcoupled, hwatched⟩ := (Sound.start hroot htasks settings).run hrun
  have hiff : m.world.root.triggered = true ↔ m.called = true ∨
      ∃ j t cause, m.world.task? j = some t ∧ t.supervised = true ∧
        t.status = .ended (.failed cause) := by
    rw [hcoupled, Bool.or_eq_true, World.hasFailure_iff]
  refine ⟨fun i c cause hending => hiff.mpr (Or.inr ?_), hiff⟩
  obtain ⟨run, child, t, hrun?, hmem, htask, hstatus⟩ := World.childEnding_eq_some hending
  obtain ⟨ts, htasks, hjob⟩ := World.run?_eq_some.mp hrun?
  obtain ⟨t', htask', hsupervised⟩ := hwatched i ts run htasks hjob _ hmem
  rw [← Option.some.inj (htask.symm.trans htask')] at hsupervised
  exact ⟨child, t, cause, htask, hsupervised, hstatus⟩

end Moment

/-! ## A component that crashes -/

/-- Steps of the tasks with these numbers, one after the other. -/
def World.stepsOf (w : World) : List Nat → Option World
  | [] => some w
  | j :: js => (w.stepTask j).bind (·.stepsOf js)

theorem Moment.run_of_steps {w w' : World} {called : Bool} (js : List Nat)
    (h : w.stepsOf js = some w') : Run ⟨w, called⟩ ⟨w', called⟩ := by
  induction js generalizing w with
  | nil =>
      cases h
      exact .refl
  | cons j js ih =>
      obtain ⟨v, hstep, hrest⟩ := Option.bind_eq_some_iff.mp h
      exact .head (.task hstep) (ih hrest)

/-- A scheduler that is to wait for no time at all, beside a sender. -/
def crashSettings : Supervisor.Settings where
  scheduler := { interval := 0 }
  consume := { queue := "q" }
  queue := { name := "q" }
  components := [.scheduler, .sender]

/-- The supervisor is about to start. -/
def crashStart : World := World.runSupervisor { wall := Instant.first } crashSettings

/-- The supervisor has started both, and the scheduler has made its first step. -/
def crashWorld : World := (crashStart.stepsOf [0, 0, 0, 0, 0, 0, 1]).getD crashStart

theorem run_crashWorld : Moment.Run ⟨crashStart, false⟩ ⟨crashWorld, false⟩ :=
  Moment.run_of_steps [0, 0, 0, 0, 0, 0, 1] rfl

/-- The scheduler crashes, and there is no signal: the sender goes on, and the supervisor waits. -/
theorem crash_stops_nobody :
    Moment.Run ⟨crashStart, false⟩ ⟨crashWorld, false⟩ ∧
      crashWorld.childEnding 0 .scheduler = some .crashed ∧
      crashWorld.root.triggered = false ∧
      (∃ child t, crashWorld.child? 0 .sender = some child ∧ crashWorld.task? child = some t ∧
        t.supervised = true ∧ t.isRunning = true) ∧
      crashWorld.stepTask 0 = none :=
  ⟨run_crashWorld, rfl, rfl, ⟨2, _, rfl, rfl, rfl, rfl⟩, rfl⟩

/-- A sender alone, for a queue that nobody declares. -/
def strayStart : World :=
  World.runSupervisor { wall := Instant.first }
    { consume := { queue := "other" }, queue := { name := "q" }, components := [.sender] }

/-- The sender has ended with an error. -/
def strayWorld : World := (strayStart.stepsOf [0, 0, 0, 0, 0, 1]).getD strayStart

theorem stray_sender_signals :
    strayWorld.childEnding 0 .sender =
        some (.failed (.consume "other" (.queueNotFound "other"))) ∧
      strayWorld.root.triggered = true := by
  have hending : strayWorld.childEnding 0 .sender =
      some (.failed (.consume "other" (.queueNotFound "other"))) := rfl
  have hrun : Moment.Run ⟨strayStart, false⟩ ⟨strayWorld, false⟩ :=
    Moment.run_of_steps [0, 0, 0, 0, 0, 1] rfl
  exact ⟨hending, (Moment.signalled_iff rfl rfl _ hrun).1 0 .sender _ hending⟩

end Rehearsal

end Almanac
