/-
  Almanac.Proofs.Rehearsal.Tasks

  What becomes of the tasks of a rehearsal. A task that has ended, hangs or was aborted does not
  run again, a task that is no supervisor does not turn into one, and a supervisor changes only
  when it makes a step of its own. Two worlds are alike if nothing more than that has happened
  to their tasks in between (`Alike`).
-/
import Almanac.Rehearsal.Task

namespace Almanac.Rehearsal

open Service (Component)
open Supervisor (Ending)

/-- Whether a task is no supervisor. -/
def Job.isLeaf : Job → Bool
  | .supervisor _ => false
  | _ => true

theorem Run.mem_of_lookup {run : Run} {c : Component} {child : Nat}
    (h : run.children.lookup c = some child) : (c, child) ∈ run.children := by
  obtain ⟨before, behind, heq, -⟩ := List.lookup_eq_some_iff.mp h
  simp [heq]

/-- What has become of a task. -/
structure Task.Follows (t t' : Task) : Prop where
  supervised : t'.supervised = t.supervised
  job : t'.job = t.job ∨ t.job.isLeaf = true ∧ t'.job.isLeaf = true
  running : t'.isRunning = true → t.isRunning = true

namespace Task.Follows

variable {t t' : Task}

theorem refl (t : Task) : t.Follows t := ⟨rfl, Or.inl rfl, id⟩

theorem trans {t'' : Task} (h : t.Follows t') (h' : t'.Follows t'') : t.Follows t'' where
  supervised := h'.supervised.trans h.supervised
  job := by
    rcases h.job with hsame | ⟨hleaf, hleaf'⟩
    · rw [← hsame]
      exact h'.job
    · rcases h'.job with hsame' | ⟨-, hleaf''⟩
      · exact Or.inr ⟨hleaf, hsame' ▸ hleaf'⟩
      · exact Or.inr ⟨hleaf, hleaf''⟩
  running hrunning := h.running (h'.running hrunning)

theorem isLeaf (h : t.Follows t') (hleaf : t.job.isLeaf = true) : t'.job.isLeaf = true := by
  rcases h.job with hsame | ⟨-, hleaf'⟩
  · rwa [hsame]
  · exact hleaf'

theorem supervisor {run : Run} (h : t.Follows t') (hjob : t.job = .supervisor run) :
    t'.job = .supervisor run := by
  rcases h.job with hsame | ⟨hleaf, -⟩
  · rwa [hsame]
  · simp [hjob, Job.isLeaf] at hleaf

end Task.Follows

namespace World

variable {w w' v : World} {j : Nat} {t : Task}

/-! ## Single tasks -/

theorem task?_setTask (w : World) (j : Nat) (f : Task → Task) (k : Nat) :
    (w.setTask j f).task? k = if j = k then (w.task? k).map f else w.task? k := by
  rw [task?, setTask, List.getElem?_modify]
  by_cases h : j = k
  · simp only [h, if_true]
    rfl
  · simp only [h, if_false, id_map']
    rfl

theorem task?_setJob (htask : w.task? j = some t) (job : Job) :
    (w.setJob j job).task? j = some { t with job } := by
  rw [setJob, task?_setTask, if_pos rfl, htask]
  rfl

theorem task?_setJob_ne {k : Nat} (hne : j ≠ k) (job : Job) :
    (w.setJob j job).task? k = w.task? k := by
  rw [setJob, task?_setTask, if_neg hne]

theorem run?_eq_some {run : Run} :
    w.run? j = some run ↔ ∃ t, w.task? j = some t ∧ t.job = .supervisor run := by
  unfold run?
  constructor
  · intro h
    split at h
    · next htask => exact ⟨_, htask, congrArg Job.supervisor (Option.some.inj h)⟩
    · cases h
  · rintro ⟨⟨job, supervised, status⟩, htask, rfl⟩
    rw [htask]

/-- A supervisor is not among the other tasks. -/
theorem ne_of_isLeaf {i : Nat} {run : Run} (hrun : w.run? i = some run)
    (htask : w.task? j = some t) (hleaf : t.job.isLeaf = true) : i ≠ j := by
  rintro rfl
  obtain ⟨t', htask', hjob⟩ := run?_eq_some.mp hrun
  obtain rfl := Option.some.inj (htask.symm.trans htask')
  simp [hjob, Job.isLeaf] at hleaf

theorem lt_of_task? (h : w.task? j = some t) : j < w.tasks.length :=
  (List.getElem?_eq_some_iff.mp h).1

/-- A task that ends changes, leaves the gate, and may set off the shutdown signal. -/
theorem finish_eq (w : World) (j : Nat) (how : Ending) :
    ∃ root, w.finish j how =
      { w with
        tasks := w.tasks.modify j fun t => { t with status := .ended how }
        gate := w.gate.leave (.task j)
        root } := by
  cases how with
  | failed cause =>
      simp only [finish]
      split
      · split <;> exact ⟨_, rfl⟩
      · exact ⟨_, rfl⟩
  | clean => exact ⟨_, rfl⟩
  | crashed => exact ⟨_, rfl⟩

@[simp] theorem tasks_finish (w : World) (j : Nat) (how : Ending) :
    (w.finish j how).tasks = w.tasks.modify j fun t => { t with status := .ended how } := by
  obtain ⟨root, heq⟩ := w.finish_eq j how
  rw [heq]

@[simp] theorem faults_finish (w : World) (j : Nat) (how : Ending) :
    (w.finish j how).faults = w.faults := by
  obtain ⟨root, heq⟩ := w.finish_eq j how
  rw [heq]

@[simp] theorem broker_finish (w : World) (j : Nat) (how : Ending) :
    (w.finish j how).broker = w.broker := by
  obtain ⟨root, heq⟩ := w.finish_eq j how
  rw [heq]

/-- No task that ends takes the shutdown signal back. -/
theorem root_finish (w : World) (j : Nat) (how : Ending) (h : w.root.triggered = true) :
    (w.finish j how).root.triggered = true := by
  cases how with
  | failed cause =>
      simp only [finish]
      split
      · split
        · rfl
        · exact h
      · exact h
  | clean => exact h
  | crashed => exact h

@[simp] theorem tasks_abort (w : World) (j : Nat) :
    (w.abort j).tasks = w.tasks.modify j fun t => { t with status := .aborted } := by
  simp only [abort]
  split <;> rfl

theorem child?_eq_some {i child : Nat} {c : Component} (h : w.child? i c = some child) :
    ∃ run, w.run? i = some run ∧ (c, child) ∈ run.children := by
  obtain ⟨run, hrun, hlookup⟩ := Option.bind_eq_some_iff.mp h
  exact ⟨run, hrun, Run.mem_of_lookup hlookup⟩

/-- How a component ended is how its task did. -/
theorem childEnding_eq_some {i : Nat} {c : Component} {how : Ending}
    (h : w.childEnding i c = some how) :
    ∃ run child t, w.run? i = some run ∧ (c, child) ∈ run.children ∧ w.task? child = some t ∧
      t.status = .ended how := by
  obtain ⟨child, hchild, h⟩ := Option.bind_eq_some_iff.mp h
  obtain ⟨run, hrun, hmem⟩ := child?_eq_some hchild
  obtain ⟨t, htask, h⟩ := Option.bind_eq_some_iff.mp h
  refine ⟨run, child, t, hrun, hmem, htask, ?_⟩
  split at h
  · next hstatus => rw [hstatus, Option.some.inj h]
  · cases h

/-! ## Worlds that are alike -/

/-- The tasks of a world are still there, and there may be new ones. -/
def Retains (w v : World) : Prop :=
  ∀ j t, w.task? j = some t → ∃ t', v.task? j = some t' ∧ t.Follows t'

theorem Retains.append {new : List Task} (h : v.tasks = w.tasks ++ new) : w.Retains v := by
  intro j t htask
  refine ⟨t, ?_, .refl t⟩
  rw [task?, h, List.getElem?_append_left (lt_of_task? htask)]
  exact htask

theorem Retains.run? (h : w.Retains v) {run : Run} (hrun : w.run? j = some run) :
    v.run? j = some run := by
  obtain ⟨t, htask, hjob⟩ := run?_eq_some.mp hrun
  obtain ⟨t', htask', hfollows⟩ := h j t htask
  exact run?_eq_some.mpr ⟨t', htask', hfollows.supervisor hjob⟩

/-- The tasks of a world are still there, and there are no new ones. -/
structure Alike (w v : World) : Prop where
  length : v.tasks.length = w.tasks.length
  retains : w.Retains v

namespace Alike

theorem of_tasks (h : v.tasks = w.tasks) : Alike w v where
  length := congrArg _ h
  retains j t htask := ⟨t, by rwa [task?, h], .refl t⟩

theorem trans (h : Alike w v) (h' : Alike v w') : Alike w w' where
  length := h'.length.trans h.length
  retains j t htask := by
    obtain ⟨t₁, htask₁, hfollows₁⟩ := h.retains j t htask
    obtain ⟨t₂, htask₂, hfollows₂⟩ := h'.retains j t₁ htask₁
    exact ⟨t₂, htask₂, hfollows₁.trans hfollows₂⟩

/-- One task changes. -/
theorem setTask {f : Task → Task} (h : ∀ t, w.task? j = some t → t.Follows (f t)) :
    Alike w (w.setTask j f) where
  length := List.length_modify ..
  retains k t htask := by
    rw [task?_setTask, htask]
    split
    · next hjk => exact ⟨f t, rfl, h t (hjk ▸ htask)⟩
    · exact ⟨t, rfl, .refl t⟩

/-- A task that is no supervisor goes on. -/
theorem setJob {job : Job} (hold : ∀ t, w.task? j = some t → t.job.isLeaf = true)
    (hnew : job.isLeaf = true) : Alike w (w.setJob j job) :=
  setTask fun t htask => ⟨rfl, Or.inr ⟨hold t htask, hnew⟩, id⟩

theorem block (w : World) (j : Nat) : Alike w (w.block j) :=
  setTask fun _ _ => ⟨rfl, Or.inl rfl, fun h => by simp [Task.isRunning] at h⟩

theorem finish (w : World) (j : Nat) (how : Ending) : Alike w (w.finish j how) := by
  have hset : Alike w (w.setTask j fun t => { t with status := .ended how }) :=
    setTask fun _ _ => ⟨rfl, Or.inl rfl, fun h => by simp [Task.isRunning] at h⟩
  exact hset.trans (of_tasks (w.tasks_finish j how))

theorem abort (w : World) (j : Nat) : Alike w (w.abort j) := by
  have hset : Alike w (w.setTask j fun t => { t with status := .aborted }) :=
    setTask fun _ _ => ⟨rfl, Or.inl rfl, fun h => by simp [Task.isRunning] at h⟩
  exact hset.trans (of_tasks (w.tasks_abort j))

end Alike

end World

end Almanac.Rehearsal
