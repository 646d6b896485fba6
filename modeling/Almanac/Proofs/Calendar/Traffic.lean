/-
  Almanac.Proofs.Calendar.Traffic

  Any number of clients call the calendar at the same time. A call is checked, waits at the gate
  if it has to, passes, looks at the memory, later leaves there what its work makes of what it
  has seen, and goes with its response; a client may also give up before the work is done.
  Between any two of these steps any of the others may take place.

  The work of a call is thus not one step by itself. It is as good as one because of the gate:
  while a call is inside, nobody changes what it has seen (`Guarded`). So the calls
  have an order, that of their work, in which they are the requests of a directory
  (`Linearized`), and no call stands in it before one that was over when it began.
-/
import Almanac.Proofs.Calendar.Refinement
import Almanac.Rehearsal.Gate
import Mathlib.Logic.Relation

namespace Almanac

/-! ## Sources of ids -/

namespace IdSource

/-- The source after a number of ids. -/
def after (s : IdSource) : Nat → IdSource
  | 0 => s
  | n + 1 => (s.after n).next.2

/-- The first ids of a source. -/
def first (s : IdSource) (n : Nat) : List String :=
  (List.range n).map fun i => (s.after i).next.1

theorem issued_next (s : IdSource) : s.next.2.issued = s.issued + 1 := by
  unfold next
  split <;> rfl

theorem issued_after (s : IdSource) (n : Nat) : (s.after n).issued = s.issued + n := by
  induction n with
  | zero => rfl
  | succ n ih => rw [after, issued_next, ih, Nat.add_assoc]

theorem first_succ (s : IdSource) (n : Nat) :
    s.first (n + 1) = s.first n ++ [(s.after n).next.1] := by
  rw [first, List.range_succ, List.map_append]
  rfl

theorem nodup_first_mono (s : IdSource) {n k : Nat} (h : n ≤ k) (hk : (s.first k).Nodup) :
    (s.first n).Nodup := by
  refine hk.sublist (List.Sublist.map _ ?_)
  exact List.range_sublist.mpr h

/-- An id that is given at last is none of those given before. -/
theorem next_notMem_first (s : IdSource) {n : Nat} (h : (s.first (n + 1)).Nodup) :
    (s.after n).next.1 ∉ s.first n := by
  rw [first_succ, List.nodup_append] at h
  intro hmem
  exact h.2.2 _ hmem _ (List.mem_singleton.mpr rfl) rfl

end IdSource

namespace Calendar

open Rehearsal (Access Gate Party)
open Storage (MemoryState)

/-! ## The gate -/

/-- What a request needs of the gate. An event that the checks refuse does not get there. -/
def Request.access? : Request → Option Access
  | .createUser _ => some .write
  | .deleteUser _ => some .write
  | .listUsers => some .read
  | .createEvent e => if e.fault?.isSome then none else some .write
  | .updateEvent e => if e.toEventDraft.fault?.isSome then none else some .write
  | .deleteEvent _ => some .write
  | .select _ => some .read

/-- Only writers change the memory. -/
theorem serve_memory {request : Request} (h : request.access? ≠ some .write) (m : MemoryState) :
    ((inMemory.serve request).perform m).2 = m := by
  have hwindow (window : Option Window) :
      ((respond .events (Storage.memory.eventsOfWindow window)).perform m).2 = m := by
    cases window <;> rfl
  cases request with
  | createUser u => exact (h rfl).elim
  | deleteUser id => exact (h rfl).elim
  | listUsers => rfl
  | createEvent e =>
      cases hfault : e.fault? with
      | none => simp [Request.access?, hfault] at h
      | some error =>
          rw [serve_createEvent_of_fault hfault]
          rfl
  | updateEvent e =>
      cases hfault : e.toEventDraft.fault? with
      | none => simp [Request.access?, hfault] at h
      | some error =>
          rw [serve_updateEvent_of_fault hfault]
          rfl
  | deleteEvent id => exact (h rfl).elim
  | select which =>
      cases which with
      | day t => exact hwindow (Window.day? t)
      | week t => exact hwindow (Window.week? t)
      | month t => exact hwindow (Window.month? t)
      | _ => rfl

/-- No request takes ids back. -/
theorem serve_issued_le (request : Request) (m : MemoryState) :
    m.ids.issued ≤ ((inMemory.serve request).perform m).2.ids.issued := by
  have hnext : m.ids.issued ≤ m.ids.next.2.issued := by
    rw [IdSource.issued_next]
    exact Nat.le_succ _
  have hchange (f : Store → Except StorageError Store) :
      m.ids.issued ≤ ((respond (fun _ => .done) (Storage.change f)).perform m).2.ids.issued := by
    cases hf : f m.store with
    | ok store => rw [perform_change hf]
    | error e => rw [perform_change_refused hf]
  by_cases haccess : request.access? = some .write
  · cases request with
    | createUser u => exact hnext
    | createEvent e =>
        cases hfault : e.fault? with
        | none =>
            rw [serve_createEvent_of_valid hfault]
            exact hnext
        | some error => simp [Request.access?, hfault] at haccess
    | updateEvent e =>
        cases hfault : e.toEventDraft.fault? with
        | none =>
            rw [serve_updateEvent_of_valid hfault]
            exact hchange _
        | some error => simp [Request.access?, hfault] at haccess
    | deleteUser id => exact hchange (·.deleteUser id)
    | deleteEvent id => exact hchange (·.deleteEvent id)
    | listUsers => simp [Request.access?] at haccess
    | select which => simp [Request.access?] at haccess
  · rw [serve_memory haccess]

/-! ## Calls under way -/

/-- How far a call has got. -/
inductive Phase
  | asked
  /-- It has passed the gate and looked at the memory. -/
  | inside (seen : MemoryState)
  /-- It has done its work and goes with a response. -/
  | worked (response : Response)
  | answered (response : Response)
  /-- The client has given up. -/
  | abandoned

/-- The response to a call whose work is done. -/
def Phase.response? : Phase → Option Response
  | .worked response => some response
  | .answered response => some response
  | _ => none

/-- What can be seen of a call from outside, by its number. -/
inductive Mark
  | called (i : Nat)
  | answered (i : Nat)

/-- The memory, its gate, all calls so far, and when they began and were over. -/
structure Traffic where
  memory : MemoryState
  gate : Gate := {}
  calls : List (Request × Phase) := []
  history : List Mark := []

namespace Traffic

/-- Nobody has called yet, and nothing is stored. -/
def start (ids : IdSource) : Traffic := { memory := { ids } }

/-- The request and the response of a call whose work is done. -/
def served? (s : Traffic) (i : Nat) : Option (Request × Response) :=
  s.calls[i]?.bind fun call => call.2.response?.map fun response => (call.1, response)

/-- A call gets on. -/
def advance (s : Traffic) (i : Nat) (request : Request) (phase : Phase) : Traffic :=
  { s with calls := s.calls.set i (request, phase) }

/-- What can happen next. -/
inductive Step : Traffic → Traffic → Prop
  | call {s : Traffic} (request : Request) :
      Step s { s with
        calls := s.calls ++ [(request, .asked)]
        history := s.history ++ [.called s.calls.length] }
  /-- A call that needs no access does its work at once. -/
  | decline {s : Traffic} {i : Nat} {request : Request}
      (hcall : s.calls[i]? = some (request, .asked)) (haccess : request.access? = none) :
      Step s { s.advance i request (.worked ((inMemory.serve request).perform s.memory).1) with
        memory := ((inMemory.serve request).perform s.memory).2 }
  | wait {s : Traffic} {i : Nat} {request : Request} {access : Access}
      (hcall : s.calls[i]? = some (request, .asked)) (haccess : request.access? = some access) :
      Step s { s with gate := s.gate.wait (.task i) access }
  | enter {s : Traffic} {i : Nat} {request : Request} {access : Access}
      (hcall : s.calls[i]? = some (request, .asked)) (haccess : request.access? = some access)
      (hadmits : s.gate.admits (.task i) access = true) :
      Step s { s.advance i request (.inside s.memory) with
        gate := s.gate.enter (.task i) access }
  /-- The work is done on what the call has seen, and its outcome becomes the memory. -/
  | work {s : Traffic} {i : Nat} {request : Request} {seen : MemoryState}
      (hcall : s.calls[i]? = some (request, .inside seen)) :
      Step s { s.advance i request (.worked ((inMemory.serve request).perform seen).1) with
        memory := ((inMemory.serve request).perform seen).2 }
  | answer {s : Traffic} {i : Nat} {request : Request} {response : Response}
      (hcall : s.calls[i]? = some (request, .worked response)) :
      Step s { s.advance i request (.answered response) with
        gate := s.gate.leave (.task i)
        history := s.history ++ [.answered i] }
  | abandon {s : Traffic} {i : Nat} {request : Request} {phase : Phase}
      (hcall : s.calls[i]? = some (request, phase)) (hopen : phase.response? = none) :
      Step s { s.advance i request .abandoned with gate := s.gate.leave (.task i) }

/-- What can come about from nothing, with ids from a source. -/
def Reachable (ids : IdSource) (s : Traffic) : Prop :=
  Relation.ReflTransGen Step (start ids) s

variable {s s' : Traffic} {i : Nat} {request : Request}

theorem calls_advance {phase phase' : Phase} (hcall : s.calls[i]? = some (request, phase))
    (j : Nat) :
    (s.advance i request phase').calls[j]? =
      if i = j then some (request, phase') else s.calls[j]? := by
  obtain ⟨hlt, -⟩ := List.getElem?_eq_some_iff.mp hcall
  rw [advance, List.getElem?_set, if_pos hlt]

/-- Who is inside when a call has got on: that call itself, or one that was inside before. -/
theorem inside_advance {phase phase' : Phase} (hcall : s.calls[i]? = some (request, phase))
    {j : Nat} {request' : Request} {seen : MemoryState}
    (h : (s.advance i request phase').calls[j]? = some (request', .inside seen)) :
    (i = j ∧ request' = request ∧ phase' = .inside seen) ∨
      (i ≠ j ∧ s.calls[j]? = some (request', .inside seen)) := by
  rw [calls_advance hcall] at h
  split at h
  · next hij =>
    obtain ⟨hrequest, hphase⟩ := Prod.mk.inj (Option.some.inj h)
    exact Or.inl ⟨hij, hrequest.symm, hphase⟩
  · next hij => exact Or.inr ⟨hij, h⟩

/-- Getting on without a response, or with the one that is there already. -/
theorem served?_advance {phase phase' : Phase} (hcall : s.calls[i]? = some (request, phase))
    (hsame : phase'.response? = phase.response?) (j : Nat) :
    (s.advance i request phase').served? j = s.served? j := by
  rw [served?, served?, calls_advance hcall]
  by_cases hij : i = j
  · subst hij
    rw [if_pos rfl, hcall]
    simp only [Option.bind_some, hsame]
  · rw [if_neg hij]

/-- Getting on to a response. -/
theorem served?_advance_worked {phase : Phase} (hcall : s.calls[i]? = some (request, phase))
    (response : Response) (j : Nat) :
    (s.advance i request (.worked response)).served? j =
      if i = j then some (request, response) else s.served? j := by
  rw [served?, served?, calls_advance hcall]
  by_cases hij : i = j
  · subst hij
    rw [if_pos rfl, if_pos rfl]
    rfl
  · rw [if_neg hij, if_neg hij]

theorem served?_call (s : Traffic) (request : Request) (history : List Mark) (j : Nat) :
    served? { s with calls := s.calls ++ [(request, .asked)], history } j = s.served? j := by
  rw [served?, served?, List.getElem?_append]
  split
  · rfl
  · next hbeyond =>
    -- The new call has no response yet, and there is none after it.
    have hnone : s.calls[j]? = none := List.getElem?_eq_none (by omega)
    rw [hnone]
    cases hnew : [(request, Phase.asked)][j - s.calls.length]? with
    | none => rfl
    | some call =>
        obtain rfl := List.mem_singleton.mp (List.mem_of_getElem? hnew)
        rfl

/-! ## What the gate is good for -/

/-- While a call is inside, it has access, and the memory is as the call has seen it. A writer
    is inside alone. -/
structure Guarded (s : Traffic) : Prop where
  seen : ∀ i request seen, s.calls[i]? = some (request, .inside seen) →
    seen = s.memory ∧ ∃ access, request.access? = some access ∧
      (Party.task i, access) ∈ s.gate.held
  alone : ∀ p, (p, Access.write) ∈ s.gate.held → s.gate.held = [(p, .write)]

namespace Guarded

theorem start (ids : IdSource) : (start ids).Guarded where
  seen i request seen h := by simp [Traffic.start] at h
  alone p h := by simp [Traffic.start] at h

/-- Those who stay inside when others leave. -/
theorem alone_filter (h : s.Guarded) (keep : Party × Access → Bool) {p : Party}
    (hp : (p, Access.write) ∈ s.gate.held.filter keep) :
    s.gate.held.filter keep = [(p, .write)] := by
  obtain ⟨hmem, hkeep⟩ := List.mem_filter.mp hp
  rw [h.alone p hmem]
  simp [hkeep]

/-- A call gets on and leaves the gate. -/
theorem leave (h : s.Guarded) {phase phase' : Phase}
    (hcall : s.calls[i]? = some (request, phase)) (hout : ∀ seen, phase' ≠ .inside seen)
    (history : List Mark) :
    Guarded { s.advance i request phase' with gate := s.gate.leave (.task i), history } where
  seen j request' seen hinside := by
    rcases inside_advance hcall hinside with ⟨-, -, hphase⟩ | ⟨hij, hold⟩
    · exact (hout seen hphase).elim
    · obtain ⟨hseen, access, haccess, hheld⟩ := h.seen j request' seen hold
      refine ⟨hseen, access, haccess, List.mem_filter.mpr ⟨hheld, ?_⟩⟩
      simpa using Ne.symm hij
  alone p hp := h.alone_filter _ hp

/-- A call is let in. -/
theorem enter (h : s.Guarded) {access : Access} (hcall : s.calls[i]? = some (request, .asked))
    (haccess : request.access? = some access) (hadmits : s.gate.admits (.task i) access = true) :
    Guarded { s.advance i request (.inside s.memory) with
      gate := s.gate.enter (.task i) access } where
  seen j request' seen hinside := by
    rcases inside_advance hcall hinside with ⟨rfl, rfl, hphase⟩ | ⟨hij, hold⟩
    · obtain rfl := Phase.inside.inj hphase
      exact ⟨rfl, access, haccess, List.mem_append_right _ (List.mem_singleton.mpr rfl)⟩
    · obtain ⟨hseen, access', haccess', hheld⟩ := h.seen j request' seen hold
      refine ⟨hseen, access', haccess', List.mem_append_left _ (List.mem_filter.mpr ⟨hheld, ?_⟩)⟩
      simpa using Ne.symm hij
  alone p hp := by
    have hheld : ∀ q b, (q, b) ∈ s.gate.held → access = .read ∧ b = .read := by
      intro q b hq
      have hall := (Bool.and_eq_true_iff.mp hadmits).1
      simpa using List.all_eq_true.mp hall (q, b) hq
    rcases List.mem_append.mp hp with hold | hnew
    · -- No writer is inside when somebody is let in.
      have hwrite := (hheld p .write (List.mem_filter.mp hold).1).2
      exact absurd hwrite (by decide)
    · obtain ⟨rfl, rfl⟩ := Prod.mk.inj (List.mem_singleton.mp hnew)
      have hempty : s.gate.held = [] := by
        rw [List.eq_nil_iff_forall_not_mem]
        rintro ⟨q, b⟩ hq
        exact absurd (hheld q b hq).1 (by decide)
      show s.gate.held.filter _ ++ _ = _
      rw [hempty]
      rfl

/-- A call does its work. -/
theorem work (h : s.Guarded) {seen : MemoryState}
    (hcall : s.calls[i]? = some (request, .inside seen)) :
    Guarded { s.advance i request (.worked ((inMemory.serve request).perform seen).1) with
      memory := ((inMemory.serve request).perform seen).2 } where
  seen j request' seen' hinside := by
    rcases inside_advance hcall hinside with ⟨-, -, hphase⟩ | ⟨hij, hold⟩
    · simp at hphase
    · obtain ⟨hseen, access, haccess, hheld⟩ := h.seen i request seen hcall
      obtain ⟨hseen', access', haccess', hheld'⟩ := h.seen j request' seen' hold
      refine ⟨?_, access', haccess', hheld'⟩
      cases access with
      | read =>
          have hsame := serve_memory (by rw [haccess]; decide) seen
          rw [hsame, hseen, hseen']
      | write =>
          -- The other one cannot be inside together with a writer.
          rw [h.alone _ hheld, List.mem_singleton] at hheld'
          have hparty : Party.task j = Party.task i := (Prod.mk.inj hheld').1
          exact (hij (Party.task.inj hparty).symm).elim
  alone p hp := h.alone p hp

/-- A call that is refused at once leaves the memory alone. -/
theorem decline (h : s.Guarded) (hcall : s.calls[i]? = some (request, .asked))
    (haccess : request.access? = none) :
    Guarded { s.advance i request (.worked ((inMemory.serve request).perform s.memory).1) with
      memory := ((inMemory.serve request).perform s.memory).2 } where
  seen j request' seen hinside := by
    rcases inside_advance hcall hinside with ⟨-, -, hphase⟩ | ⟨-, hold⟩
    · simp at hphase
    · rw [serve_memory (by rw [haccess]; decide)]
      exact h.seen j request' seen hold
  alone p hp := h.alone p hp

theorem call (h : s.Guarded) (request : Request) (history : List Mark) :
    Guarded { s with calls := s.calls ++ [(request, .asked)], history } where
  seen j request' seen hinside := by
    rw [List.getElem?_append] at hinside
    split at hinside
    · exact h.seen j request' seen hinside
    · have hnew := List.mem_singleton.mp (List.mem_of_getElem? hinside)
      simp at hnew
  alone p hp := h.alone p hp

theorem wait (h : s.Guarded) (p : Party) (access : Access) :
    Guarded { s with gate := s.gate.wait p access } := by
  have hheld : (s.gate.wait p access).held = s.gate.held := by
    unfold Gate.wait
    split <;> rfl
  refine ⟨fun j request' seen hinside => ?_, fun q hq => ?_⟩
  · obtain ⟨hseen, access', haccess', hmem⟩ := h.seen j request' seen hinside
    exact ⟨hseen, access', haccess', hheld ▸ hmem⟩
  · show (s.gate.wait p access).held = _
    rw [hheld]
    exact h.alone q (hheld ▸ hq)

theorem step (h : s.Guarded) (hstep : Step s s') : s'.Guarded := by
  cases hstep with
  | call request => exact h.call request _
  | decline hcall haccess => exact h.decline hcall haccess
  | wait hcall haccess => exact h.wait _ _
  | enter hcall haccess hadmits => exact h.enter hcall haccess hadmits
  | work hcall => exact h.work hcall
  | answer hcall => exact h.leave hcall (fun _ hphase => by cases hphase) _
  | abandon hcall hopen => exact h.leave hcall (fun _ hphase => by cases hphase) _

end Guarded

theorem Reachable.guarded {ids : IdSource} (h : Reachable ids s) : s.Guarded := by
  induction h with
  | refl => exact Guarded.start ids
  | tail _ hstep ih => exact ih.step hstep

end Traffic

end Calendar

end Almanac
