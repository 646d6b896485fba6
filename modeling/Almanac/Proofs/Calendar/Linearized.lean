/-
  Almanac.Proofs.Calendar.Linearized

  The calls of any number of clients are as good as requests to a directory, one after the other.
  Their order is that of their work. `Linearized` says what holds of that order at every point
  of a traffic: the directory that it leads to has the contents of the memory, every call whose
  work is done stands in it once, with its response, and a call that was over before another
  one began stands before it.
-/
import Almanac.Proofs.Calendar.Traffic

namespace Almanac

/-- Two elements in their order, in a list with one more at the end. -/
theorem pair_sublist_concat {α : Type} {a b x : α} {xs : List α} :
    [a, b].Sublist (xs ++ [x]) ↔ [a, b].Sublist xs ∨ (b = x ∧ a ∈ xs) := by
  have hwhole : [a, b].Sublist (xs ++ [x]) ↔ [b, a].Sublist (x :: xs.reverse) := by
    rw [← List.reverse_sublist, List.reverse_append]
    rfl
  have hrest : [a, b].Sublist xs ↔ [b, a].Sublist xs.reverse := List.reverse_sublist.symm
  -- From behind, the pair begins with the new element or does not use it.
  rw [hwhole, hrest, List.sublist_cons_iff]
  refine or_congr_right ⟨?_, ?_⟩
  · rintro ⟨rest, heq, hsub⟩
    obtain ⟨rfl, rfl⟩ := List.cons.inj heq
    exact ⟨rfl, List.mem_reverse.mp (List.singleton_sublist.mp hsub)⟩
  · rintro ⟨rfl, ha⟩
    exact ⟨[a], rfl, List.singleton_sublist.mpr (List.mem_reverse.mpr ha)⟩

namespace Calendar.Traffic

open Storage (MemoryState)

/-- Calls with their requests and responses, in an order. -/
abbrev Order := List (Nat × Request × Response)

/-- The numbers of the calls of an order. -/
def Order.numbers (order : Order) : List Nat := order.map (·.1)

/-- An order of the calls whose work is done, as requests to a directory. -/
structure Linearized (ids : IdSource) (s : Traffic) (order : Order) (d : Directory) : Prop where
  run : Directory.Run {} (order.map (·.2)) d
  holds : s.memory.store.Holds d
  issued : ∃ n, s.memory.ids = ids.after n ∧ d.issued = ids.first n
  once : order.numbers.Nodup
  served : ∀ i served, (i, served) ∈ order ↔ s.served? i = some served
  called : ∀ i, Mark.called i ∈ s.history → i < s.calls.length
  answered : ∀ i, Mark.answered i ∈ s.history → i ∈ order.numbers
  inTime : ∀ i j, [Mark.answered i, Mark.called j].Sublist s.history → j ∈ order.numbers →
    [i, j].Sublist order.numbers

namespace Linearized

variable {ids : IdSource} {s s' : Traffic} {order : Order} {d : Directory} {i : Nat}
  {request : Request}

theorem start (ids : IdSource) : Linearized ids (start ids) [] {} where
  run := .nil {}
  holds := .empty
  issued := ⟨0, rfl, rfl⟩
  once := List.nodup_nil
  served i served := by simp [served?, Traffic.start]
  called i h := by simp [Traffic.start] at h
  answered i h := by simp [Traffic.start] at h
  inTime i j h := by simp [Traffic.start] at h

theorem mem_numbers (h : Linearized ids s order d) :
    i ∈ order.numbers ↔ ∃ served, s.served? i = some served := by
  rw [Order.numbers, List.mem_map]
  constructor
  · rintro ⟨⟨j, served⟩, hmem, rfl⟩
    exact ⟨served, (h.served _ _).mp hmem⟩
  · rintro ⟨served, hserved⟩
    exact ⟨(i, served), (h.served i served).mpr hserved, rfl⟩

theorem lt_length_of_mem (h : Linearized ids s order d) (hi : i ∈ order.numbers) :
    i < s.calls.length := by
  obtain ⟨served, hserved⟩ := h.mem_numbers.mp hi
  obtain ⟨call, hcall, -⟩ := Option.bind_eq_some_iff.mp hserved
  exact (List.getElem?_eq_some_iff.mp hcall).1

/-- A call without a response does not stand in the order. -/
theorem notMem_numbers (h : Linearized ids s order d) {phase : Phase}
    (hcall : s.calls[i]? = some (request, phase)) (hopen : phase.response? = none) :
    i ∉ order.numbers := by
  rw [h.mem_numbers, served?, hcall]
  rintro ⟨served, hserved⟩
  simp [hopen] at hserved

/-- The next id is new to the directory, if the source does not repeat itself up to there. -/
theorem next_fresh (h : Linearized ids s order d) {next : IdSource}
    (hnext : next = s.memory.ids.next.2) (hfresh : (ids.first (next.issued - ids.issued)).Nodup) :
    s.memory.ids.next.1 ∉ d.issued := by
  obtain ⟨n, hids, hissued⟩ := h.issued
  have hcount : next.issued - ids.issued = n + 1 := by
    have hafter := ids.issued_after (n + 1)
    rw [hnext, hids, show (ids.after n).next.2 = ids.after (n + 1) from rfl]
    omega
  rw [hcount] at hfresh
  rw [hids, hissued]
  exact ids.next_notMem_first hfresh

/-- Steps that neither do any work nor can be seen from outside. -/
theorem quiet (h : Linearized ids s order d) (hmemory : s'.memory = s.memory)
    (hhistory : s'.history = s.history) (hlength : s'.calls.length = s.calls.length)
    (hserved : ∀ i, s'.served? i = s.served? i) : Linearized ids s' order d where
  run := h.run
  holds := by rw [hmemory]; exact h.holds
  issued := by rw [hmemory]; exact h.issued
  once := h.once
  served i served := by rw [hserved]; exact h.served i served
  called := by rw [hhistory, hlength]; exact h.called
  answered := by rw [hhistory]; exact h.answered
  inTime := by rw [hhistory]; exact h.inTime

/-- A call begins. -/
theorem call (h : Linearized ids s order d) (request : Request) :
    Linearized ids { s with
      calls := s.calls ++ [(request, .asked)]
      history := s.history ++ [.called s.calls.length] } order d where
  run := h.run
  holds := h.holds
  issued := h.issued
  once := h.once
  served i served := by rw [served?_call]; exact h.served i served
  called i hi := by
    rw [List.length_append, List.length_singleton]
    rcases List.mem_append.mp hi with hold | hnew
    · exact Nat.lt_succ_of_lt (h.called i hold)
    · rw [Mark.called.inj (List.mem_singleton.mp hnew)]
      exact Nat.lt_succ_self _
  answered i hi := by
    rcases List.mem_append.mp hi with hold | hnew
    · exact h.answered i hold
    · simp at hnew
  inTime i j hij hj := by
    rcases pair_sublist_concat.mp hij with hold | ⟨hnew, -⟩
    · exact h.inTime i j hold hj
    · -- The new call has not done its work.
      have hlt := h.lt_length_of_mem hj
      rw [Mark.called.inj hnew] at hlt
      exact (Nat.lt_irrefl _ hlt).elim

/-- A call is over. -/
theorem answer (h : Linearized ids s order d) {response : Response}
    (hcall : s.calls[i]? = some (request, .worked response)) :
    Linearized ids { s.advance i request (.answered response) with
      gate := s.gate.leave (.task i)
      history := s.history ++ [.answered i] } order d where
  run := h.run
  holds := h.holds
  issued := h.issued
  once := h.once
  served j served := by
    have hsame : (Phase.answered response).response? = (Phase.worked response).response? := rfl
    show (j, served) ∈ order ↔ (s.advance i request (.answered response)).served? j = some served
    rw [served?_advance hcall hsame]
    exact h.served j served
  called j hj := by
    rw [advance, List.length_set]
    rcases List.mem_append.mp hj with hold | hnew
    · exact h.called j hold
    · simp at hnew
  answered j hj := by
    rcases List.mem_append.mp hj with hold | hnew
    · exact h.answered j hold
    · rw [Mark.answered.inj (List.mem_singleton.mp hnew), h.mem_numbers, served?, hcall]
      exact ⟨_, rfl⟩
  inTime j k hjk hk := by
    rcases pair_sublist_concat.mp hjk with hold | ⟨hnew, -⟩
    · exact h.inTime j k hold hk
    · simp at hnew

/-- A call does its work on the memory as it is. -/
theorem serve (h : Linearized ids s order d) {phase : Phase}
    (hcall : s.calls[i]? = some (request, phase)) (hopen : phase.response? = none)
    {response : Response} {m : MemoryState}
    (hserve : (inMemory.serve request).perform s.memory = (response, m))
    (hfresh : (ids.first (m.ids.issued - ids.issued)).Nodup) :
    ∃ e, Linearized ids { s.advance i request (.worked response) with memory := m }
      (order ++ [(i, request, response)]) e := by
  have hagrees := serve_agrees h.holds request fun hnext => by
    rw [hserve] at hnext
    exact h.next_fresh hnext hfresh
  rw [hserve] at hagrees
  obtain ⟨e, hserves, hholds, hnext⟩ := hagrees
  have hnew : i ∉ order.numbers := h.notMem_numbers hcall hopen
  have hnumbers : Order.numbers (order ++ [(i, request, response)]) = order.numbers ++ [i] := by
    rw [Order.numbers, List.map_append]
    rfl
  refine ⟨e, ?_, hholds, ?_, ?_, fun j served => ?_, fun j hj => ?_, fun j hj => ?_,
    fun j k hjk hk => ?_⟩
  · rw [List.map_append]
    exact h.run.snoc hserves
  · obtain ⟨n, hids, hissued⟩ := h.issued
    rcases hnext with ⟨hm, he⟩ | ⟨hm, he⟩
    · exact ⟨n, hm.trans hids, he.trans hissued⟩
    · refine ⟨n + 1, hm.trans (by rw [hids]; rfl), ?_⟩
      rw [he, hissued, hids, IdSource.first_succ]
  · rw [hnumbers, ← List.concat_eq_append]
    exact h.once.concat hnew
  · show (j, served) ∈ order ++ [(i, request, response)] ↔
      (s.advance i request (.worked response)).served? j = some served
    rw [served?_advance_worked hcall, List.mem_append, List.mem_singleton, h.served]
    by_cases hij : i = j
    · subst hij
      have hnone : s.served? i = none := by
        rw [served?, hcall]
        simp [hopen]
      rw [if_pos rfl, hnone]
      simp [eq_comm]
    · rw [if_neg hij]
      simp [Ne.symm hij]
  · rw [advance, List.length_set]
    exact h.called j hj
  · rw [hnumbers]
    exact List.mem_append_left _ (h.answered j hj)
  · rw [hnumbers] at hk ⊢
    rcases List.mem_append.mp hk with hold | hlast
    · exact (h.inTime j k hjk hold).trans (List.sublist_append_left _ _)
    · -- Whoever was over before has done its work before.
      have hj : Mark.answered j ∈ s.history := hjk.mem List.mem_cons_self
      exact pair_sublist_concat.mpr (Or.inr ⟨List.mem_singleton.mp hlast, h.answered j hj⟩)

/-- Whatever happens next, the order at most grows by a call that does its work. -/
theorem step (h : Linearized ids s order d) (hguarded : s.Guarded) (hstep : Step s s')
    (hfresh : (ids.first (s'.memory.ids.issued - ids.issued)).Nodup) :
    ∃ order' e, Linearized ids s' order' e := by
  cases hstep with
  | call request => exact ⟨order, d, h.call request⟩
  | decline hcall haccess => exact ⟨_, h.serve hcall rfl rfl hfresh⟩
  | wait hcall haccess => exact ⟨order, d, h.quiet rfl rfl rfl fun _ => rfl⟩
  | enter hcall haccess hadmits =>
      exact ⟨order, d, h.quiet rfl rfl List.length_set (served?_advance hcall rfl)⟩
  | @work i request seen hcall =>
      -- What the call has seen is the memory still.
      obtain ⟨rfl, -⟩ := hguarded.seen i request seen hcall
      exact ⟨_, h.serve hcall rfl rfl hfresh⟩
  | answer hcall => exact ⟨order, d, h.answer hcall⟩
  | abandon hcall hopen =>
      exact ⟨order, d, h.quiet rfl rfl List.length_set (served?_advance hcall hopen.symm)⟩

end Linearized

theorem Step.issued_le {s s' : Traffic} (hguarded : s.Guarded) (hstep : Step s s') :
    s.memory.ids.issued ≤ s'.memory.ids.issued := by
  cases hstep with
  | decline => exact serve_issued_le _ _
  | @work i request seen hcall =>
      obtain ⟨rfl, -⟩ := hguarded.seen i request seen hcall
      exact serve_issued_le _ _
  | _ => exact Nat.le_refl _

/-- At every point there is an order of the calls whose work is done. -/
theorem Reachable.linearized {ids : IdSource} {s : Traffic} (hs : Reachable ids s)
    (hfresh : (ids.first (s.memory.ids.issued - ids.issued)).Nodup) :
    ∃ order d, Linearized ids s order d := by
  induction hs with
  | refl => exact ⟨[], {}, .start ids⟩
  | @tail s s' hs hstep ih =>
      have hguarded : s.Guarded := Reachable.guarded hs
      have hmore := hstep.issued_le hguarded
      obtain ⟨order, d, h⟩ := ih (ids.nodup_first_mono (by omega) hfresh)
      exact h.step hguarded hstep hfresh

/-! ## The calendar is a directory -/

/-- The calendar in memory, called by any number of clients at the same time, refines a directory,
    as long as no id has been given by the source twice. The calls whose work is done have an
    order in which a directory that was empty gives the same responses and has in the end the
    contents of the memory. Each of these calls stands in it once, and behind all that were over
    when it began. The ids of all creations are different, and whatever is stored was created
    under its id. A request that fails changes nothing in the directory, and any other at most
    the entry it is about. -/
theorem calls_refine_directory {ids : IdSource} {s : Traffic} (hs : Reachable ids s)
    (hfresh : (ids.first (s.memory.ids.issued - ids.issued)).Nodup) :
    ∃ (order : Order) (d : Directory),
      Directory.Run {} (order.map (·.2)) d ∧
      s.memory.store.Holds d ∧
      order.numbers.Nodup ∧
      (∀ i served, (i, served) ∈ order ↔ s.served? i = some served) ∧
      (∀ i j, [Mark.answered i, Mark.called j].Sublist s.history → j ∈ order.numbers →
        [i, j].Sublist order.numbers) ∧
      (order.filterMap (·.2.2.createdId?)).Nodup ∧
      (∀ id, id ∈ d.users ∨ id ∈ d.events → id ∈ order.filterMap (·.2.2.createdId?)) ∧
      ∀ (a b : Directory) (request : Request) (response : Response),
        a.Serves request response b → a.Framed request response b := by
  obtain ⟨order, d, h⟩ := hs.linearized hfresh
  obtain ⟨hissued, hnodup, haccounted⟩ := h.run.issued
  have hcreated : (order.map (·.2)).filterMap (·.2.createdId?) =
      order.filterMap (·.2.2.createdId?) := by
    rw [List.filterMap_map]
    rfl
  rw [hcreated] at hissued
  refine ⟨order, d, h.run, h.holds, h.once, h.served, h.inTime, ?_, fun id hid => ?_,
    fun _ _ _ _ hserves => hserves.framed⟩
  · rw [← hissued]
    exact hnodup
  · rw [← hissued]
    exact haccounted id hid

/-- A user. -/
def ada : UserDraft :=
  { firstName := "Ada", lastName := "Lovelace", email := "ada@example.org", age := 36 }

/-- The user is created in an empty memory. -/
def adaOnce : Response × MemoryState := (inMemory.serve (.createUser ada)).perform {}

/-- The user is created once more. -/
def adaTwice : Response × MemoryState := (inMemory.serve (.createUser ada)).perform adaOnce.2

/-- Two clients create the same user at the same time. The second one waits while the first one
    is inside, and both users are there in the end, under different ids. -/
theorem ada_created_twice :
    adaOnce.1.createdId? ≠ adaTwice.1.createdId? ∧
      ∃ s : Traffic, Reachable {} s ∧ s.memory = adaTwice.2 ∧
        ∃ (order : Order) (d : Directory),
          Directory.Run {} (order.map (·.2)) d ∧ s.memory.store.Holds d ∧
          (0, .createUser ada, adaOnce.1) ∈ order ∧ (1, .createUser ada, adaTwice.1) ∈ order := by
  have hcalled : Reachable {}
      { memory := {}, calls := [(.createUser ada, .asked), (.createUser ada, .asked)],
        history := [.called 0, .called 1] } :=
    (Relation.ReflTransGen.refl.tail (.call (.createUser ada))).tail (.call (.createUser ada))
  have hwaiting : Reachable {}
      { memory := {}
        gate := { held := [(.task 0, .write)], waiting := [(.task 1, .write)] }
        calls := [(.createUser ada, .inside {}), (.createUser ada, .asked)]
        history := [.called 0, .called 1] } :=
    (hcalled.tail (.enter (i := 0) rfl rfl rfl)).tail (.wait (i := 1) rfl rfl)
  have hanswered : Reachable {}
      { memory := adaOnce.2
        gate := { waiting := [(.task 1, .write)] }
        calls := [(.createUser ada, .answered adaOnce.1), (.createUser ada, .asked)]
        history := [.called 0, .called 1, .answered 0] } :=
    (hwaiting.tail (.work (i := 0) rfl)).tail (.answer (i := 0) rfl)
  have hinside : Reachable {}
      { memory := adaOnce.2
        gate := { held := [(.task 1, .write)] }
        calls := [(.createUser ada, .answered adaOnce.1), (.createUser ada, .inside adaOnce.2)]
        history := [.called 0, .called 1, .answered 0] } :=
    hanswered.tail (.enter (i := 1) rfl rfl rfl)
  have hworked : Reachable {}
      { memory := adaTwice.2
        gate := { held := [(.task 1, .write)] }
        calls := [(.createUser ada, .answered adaOnce.1), (.createUser ada, .worked adaTwice.1)]
        history := [.called 0, .called 1, .answered 0] } :=
    hinside.tail (.work (i := 1) rfl)
  have hfresh : (IdSource.first {} 2).Nodup := by decide
  obtain ⟨order, d, hrun, hholds, -, hserved, -⟩ := calls_refine_directory hworked hfresh
  refine ⟨by decide, _, hworked, rfl, order, d, hrun, hholds, ?_, ?_⟩
  · exact (hserved 0 _).mpr rfl
  · exact (hserved 1 _).mpr rfl

end Calendar.Traffic

end Almanac
