/-
  Almanac.Proofs.Broker.Exclusive

  Who has a queue for itself. A registration is exclusive when the request for it was, or when the
  queue was declared so, and it stays what it is. An exclusive consumer is the only one of its queue
  (`Queue.Guarded`): nobody is let in beside it, and it is not let in beside others (`admits_iff`).
  Whatever else happens to a queue takes consumers away or leaves them, and never changes the
  settings of a queue that is there, so the guard lasts (`Queue.Guarded.kept`).
-/
import Almanac.Proofs.Broker.EachQueue
import Almanac.Proofs.Broker.Sound
import Mathlib

namespace Almanac.Broker

variable {β : Type}

namespace Queue

variable {q r : Queue β}

/-- A queue lets a consumer in when no other one has it for itself, and to have it for itself only
    when nobody is there. -/
theorem admits_iff {settings : ConsumeSettings} :
    q.admits settings = true ↔ (∀ c ∈ q.consumers, c.exclusive = false) ∧
      ((settings.exclusive || q.settings.exclusive) = true → q.consumers = []) := by
  simp only [admits, Bool.not_eq_true', Bool.or_eq_false_iff, List.any_eq_false,
    Bool.and_eq_false_imp, Bool.not_eq_true, Bool.not_eq_false', List.isEmpty_iff]

/-- The consumers of an exclusive queue are exclusive, and an exclusive consumer is alone. -/
structure Guarded (q : Queue β) : Prop where
  marked : q.settings.exclusive = true → ∀ c ∈ q.consumers, c.exclusive = true
  alone : ∀ c ∈ q.consumers, c.exclusive = true → q.consumers = [c]

namespace Guarded

/-- Consumers may go. -/
theorem fewer (hq : q.Guarded) (hsettings : r.settings = q.settings)
    (hconsumers : r.consumers.Sublist q.consumers) : r.Guarded where
  marked hexclusive c hc := hq.marked (hsettings ▸ hexclusive) c (hconsumers.mem hc)
  alone c hc hexclusive := by
    rw [hq.alone c (hconsumers.mem hc) hexclusive] at hconsumers
    rcases List.sublist_singleton.mp hconsumers with hnone | hone
    · rw [hnone] at hc
      simp at hc
    · exact hone

/-- A consumer that is let in has the queue for itself, or neither it nor the others do. -/
theorem join (hq : q.Guarded) {settings : ConsumeSettings} (hadmits : q.admits settings = true)
    {c : Registration} (hc : c.exclusive = (settings.exclusive || q.settings.exclusive)) :
    Guarded { q with consumers := q.consumers ++ [c] } := by
  obtain ⟨hopen, hempty⟩ := admits_iff.mp hadmits
  constructor
  · intro (hexclusive : q.settings.exclusive = true) d hd
    have hwants : (settings.exclusive || q.settings.exclusive) = true := by simp [hexclusive]
    rcases List.mem_append.mp hd with hold | hnew
    · exact hq.marked hexclusive d hold
    · rw [List.mem_singleton.mp hnew, hc, hwants]
  · intro d hd hexclusive
    rcases List.mem_append.mp hd with hold | hnew
    · simp [hopen d hold] at hexclusive
    · obtain rfl := List.mem_singleton.mp hnew
      show q.consumers ++ [d] = [d]
      rw [hempty (hc ▸ hexclusive), List.nil_append]

/-- What the broker does to a queue takes nobody's place. -/
theorem kept : Queue.Kept (Guarded : Queue β → Prop) Guarded where
  fresh settings := ⟨fun _ c hc => by simp at hc, fun c hc => by simp at hc⟩
  abandoned q := by
    have hnobody : q.abandoned.consumers = [] := rfl
    constructor <;> simp [hnobody]
  discard _ _ hq := hq.fewer rfl (List.Sublist.refl _)
  push _ _ hq := hq.fewer rfl (List.Sublist.refl _)
  requeue _ _ hq := hq.fewer rfl (List.Sublist.refl _)
  without _ _ hq := hq.fewer rfl List.filter_sublist
  dispatch d hd := hd.fewer d.run_settings d.run_consumers_sublist

end Guarded

end Queue

open State

/-- Every queue is guarded at every point of every run. -/
theorem State.run_guarded (calls : List (Call β)) : (run calls).Each Queue.Guarded := by
  induction calls using List.reverseRecOn with
  | nil => exact Each.fresh
  | append_singleton calls c ih =>
      rw [run_concat]
      refine Each.perform Queue.Guarded.kept ih (run_sound calls).names c ?_
      intro settings q _ _ hq hadmits
      exact (ih _ q hq).join hadmits rfl

/-- At every point of every run, a queue that is stored as exclusive has at most one consumer, and a
    queue with an exclusive consumer has exactly one. -/
theorem exclusive_alone {calls : List (Call β)} {name : String} {q : Queue β}
    (hq : (run calls).queue? name = some q) :
    (q.settings.exclusive = true → q.consumers.length ≤ 1) ∧
      ((∃ c ∈ q.consumers, c.exclusive = true) → q.consumers.length = 1) := by
  have hguarded := run_guarded calls name q hq
  have hone : ∀ c ∈ q.consumers, c.exclusive = true → q.consumers.length = 1 := by
    intro c hc hexclusive
    rw [hguarded.alone c hc hexclusive, List.length_singleton]
  constructor
  · intro hexclusive
    rcases List.eq_nil_or_concat q.consumers with hnobody | ⟨others, c, hconsumers⟩
    · simp [hnobody]
    · have hc : c ∈ q.consumers := by simp [hconsumers]
      exact Nat.le_of_eq (hone c hc (hguarded.marked hexclusive c hc))
  · rintro ⟨c, hc, hexclusive⟩
    exact hone c hc hexclusive

/-- One reader after the other on an exclusive queue. A second one is turned away, also after the
    queue was declared again without the flag; a new one comes when the first has left, and another
    one after a stop. -/
def readersInTurn : List (Call String) :=
  [.start, .declare { name := "q", exclusive := true }, .consume { queue := "q", consumer := "a" },
    .publish { routingKey := "q" } "m", .consume { queue := "q", consumer := "b" },
    .declare { name := "q" }, .consume { queue := "q", consumer := "b" }, .recover ["q"],
    .close ⟨"a", "q", 0⟩, .cancel "q" "a", .consume { queue := "q", consumer := "c" }, .stop, .start,
    .consume { queue := "q", consumer := "d" }, .consume { queue := "q", exclusive := true }]

/-- In the end the queue has the last reader that came, and no other. -/
theorem readersInTurn_alone :
    ∃ q, (run readersInTurn).queue? "q" = some q ∧ q.settings.exclusive = true ∧
      (q.consumers.map fun c => (c.tag, c.exclusive)) = [("d", true)] ∧
      q.consumers.length = 1 := by
  obtain ⟨q, hq⟩ : ∃ q, (run readersInTurn).queue? "q" = some q :=
    Option.isSome_iff_exists.mp (by cbv)
  have hsettings : (((run readersInTurn).queue? "q").map (·.settings.exclusive)) = some true := by
    cbv
  have hconsumers : (((run readersInTurn).queue? "q").map fun q =>
      q.consumers.map fun c => (c.tag, c.exclusive)) = some [("d", true)] := by cbv
  rw [hq, Option.map_some, Option.some.injEq] at hsettings hconsumers
  obtain ⟨-, hone⟩ := exclusive_alone hq
  have hexclusive : ∃ c ∈ q.consumers, c.exclusive = true := by
    have hmem : ("d", true) ∈ q.consumers.map fun c => (c.tag, c.exclusive) := by
      rw [hconsumers]
      exact List.mem_singleton_self _
    obtain ⟨c, hc, heq⟩ := List.mem_map.mp hmem
    exact ⟨c, hc, congrArg Prod.snd heq⟩
  exact ⟨q, hq, hsettings, hconsumers, hone hexclusive⟩

end Almanac.Broker
