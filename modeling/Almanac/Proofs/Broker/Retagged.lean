/-
  Almanac.Proofs.Broker.Retagged

  Brokers that differ in the numbers of their delivery tags only. `State.retag` renames the tags
  wherever they stand, in the queues and in the streams, and nothing else.

  A dispatch never looks at a tag that has been given out: it compares owners, and it counts on from
  the latest tag. So two dispatches whose tags correspond, those that are there and those that are
  still to come (`Dispatching.Retags`), go through corresponding rounds and end in corresponding
  queues (`Retags.run`). The streams need to correspond only as far as the consumers of the queue
  reach; what a dispatch does not reach it does not change (`run_streams_of_apart`).
-/
import Almanac.Proofs.Broker.Run

namespace Almanac.Broker

variable {β : Type}

/-! ## Changing tags -/

def Delivery.retag (ρ : Nat → Nat) (d : Delivery β) : Delivery β := { d with tag := ρ d.tag }

def Stream.retag (ρ : Nat → Nat) (s : Stream β) : Stream β :=
  { s with waiting := s.waiting.map (·.retag ρ) }

def Queue.retag (ρ : Nat → Nat) (q : Queue β) : Queue β :=
  { q with unacked := q.unacked.map fun e => (ρ e.1, e.2) }

/-- The state with every delivery tag renamed. -/
def State.retag (ρ : Nat → Nat) (s : State β) : State β :=
  { s with
    queues := s.queues.map fun (name, q) => (name, q.retag ρ)
    streams := s.streams.map (·.retag ρ) }

variable {ρ σ : Nat → Nat}

@[simp] theorem Stream.retag_closed (s : Stream β) : (s.retag ρ).closed = s.closed := rfl

/-! ### Only the tags that are there count -/

theorem Stream.retag_congr {s : Stream β} (h : ∀ d ∈ s.waiting, ρ d.tag = σ d.tag) :
    s.retag ρ = s.retag σ := by
  have hwaiting : s.waiting.map (·.retag ρ) = s.waiting.map (·.retag σ) := by
    refine List.map_congr_left fun d hd => ?_
    rw [Delivery.retag, h d hd, Delivery.retag]
  rw [Stream.retag, hwaiting, Stream.retag]

theorem Queue.retag_congr {q : Queue β} (h : ∀ t ∈ q.tags, ρ t = σ t) : q.retag ρ = q.retag σ := by
  have hunacked : (q.unacked.map fun e => (ρ e.1, e.2)) = q.unacked.map fun e => (σ e.1, e.2) := by
    refine List.map_congr_left fun e he => ?_
    rw [h e.1 (List.mem_map_of_mem he)]
  rw [Queue.retag, hunacked, Queue.retag]

@[simp] theorem Stream.retag_id (s : Stream β) : s.retag id = s := by
  have hsame : Delivery.retag (β := β) id = id := rfl
  simp [Stream.retag, hsame]

@[simp] theorem Queue.retag_id (q : Queue β) : q.retag id = q := by
  simp [Queue.retag]

theorem Stream.retag_eq_self {s : Stream β} (h : ∀ d ∈ s.waiting, ρ d.tag = d.tag) :
    s.retag ρ = s :=
  (Stream.retag_congr h).trans s.retag_id

theorem Queue.retag_eq_self {q : Queue β} (h : ∀ t ∈ q.tags, ρ t = t) : q.retag ρ = q :=
  (Queue.retag_congr h).trans q.retag_id

/-! ### One renaming after the other -/

theorem Stream.retag_retag (s : Stream β) : (s.retag ρ).retag σ = s.retag (σ ∘ ρ) := by
  simp only [Stream.retag, List.map_map]
  rfl

theorem Queue.retag_retag (q : Queue β) : (q.retag ρ).retag σ = q.retag (σ ∘ ρ) := by
  simp only [Queue.retag, List.map_map]
  rfl

/-- Deliveries that go back lose their tags. -/
theorem Queue.requeueIf_retag (q : Queue β) (p : Unacked β → Bool) :
    (q.retag ρ).requeueIf (fun _ u => p u) = (q.requeueIf fun _ u => p u).retag ρ := by
  simp only [Queue.requeueIf, Queue.retag, List.partition_eq_filter_filter, List.filter_map,
    List.map_map]
  rfl

namespace State

variable (s : State β)

@[simp] theorem retag_lastTag : (s.retag ρ).lastTag = s.lastTag := rfl

@[simp] theorem retag_id : s.retag id = s := by
  simp [State.retag]

theorem retag_retag : (s.retag ρ).retag σ = s.retag (σ ∘ ρ) := by
  simp only [State.retag, List.map_map]
  congr 1
  · refine List.map_congr_left fun e _ => ?_
    exact congrArg (Prod.mk e.1) e.2.retag_retag
  · exact List.map_congr_left fun stream _ => stream.retag_retag

@[simp] theorem queue?_retag (name : String) :
    (s.retag ρ).queue? name = (s.queue? name).map (Queue.retag ρ) :=
  Table.get?_map (Queue.retag ρ) s.queues name

@[simp] theorem keys_retag : (s.retag ρ).queues.keys = s.queues.keys :=
  Table.keys_map (Queue.retag ρ) s.queues

theorem streams_retag (id : Nat) :
    (s.retag ρ).streams[id]? = s.streams[id]?.map (Stream.retag ρ) :=
  List.getElem?_map

end State

/-! ## Streams -/

namespace Streams

variable {streams streams' after : Streams β} {id : Nat}

/-- A stream that is open takes a delivery. -/
theorem offer_of_open {stream : Stream β} (hstream : streams[id]? = some stream)
    (hopen : stream.closed = false) (d : Delivery β) :
    streams.offer id d = some (streams.set id { stream with waiting := stream.waiting ++ [d] }) := by
  simp [offer, hstream, hopen]

/-- Whether a stream refuses a delivery does not depend on what waits there, nor on the delivery. -/
theorem offer_eq_none_of {d d' : Delivery β}
    (h : streams'[id]? = streams[id]?.map (Stream.retag ρ)) (hnone : streams.offer id d = none) :
    streams'.offer id d' = none := by
  unfold offer at hnone ⊢
  cases hstream : streams[id]? with
  | none =>
      rw [h, hstream]
      rfl
  | some stream =>
      simp only [hstream, ite_eq_left_iff, reduceCtorEq, imp_false, Bool.not_eq_true,
        Bool.not_eq_false] at hnone
      simp [h, hstream, hnone]

/-- A delivery that is put into corresponding streams under corresponding tags leaves them
    corresponding. -/
theorem retag_set {stream : Stream β} {d : Delivery β} {other : Nat}
    (hstream : streams[id]? = some stream)
    (hid : streams'[id]? = streams[id]?.map (Stream.retag ρ))
    (hother : streams'[other]? = streams[other]?.map (Stream.retag ρ)) :
    (streams'.set id
      (({ stream with waiting := stream.waiting ++ [d] } : Stream β).retag ρ))[other]? =
      (streams.set id { stream with waiting := stream.waiting ++ [d] })[other]?.map
        (Stream.retag ρ) := by
  have hlt : id < streams.length := (List.getElem?_eq_some_iff.mp hstream).1
  rw [hstream, Option.map_some] at hid
  have hlt' : id < streams'.length := (List.getElem?_eq_some_iff.mp hid).1
  by_cases heq : id = other
  · subst heq
    rw [List.getElem?_set_self hlt, List.getElem?_set_self hlt', Option.map_some]
  · rw [List.getElem?_set_ne heq, List.getElem?_set_ne heq, hother]

end Streams

/-! ## Dispatches -/

namespace Dispatching

variable {ids : Nat → Prop} {d d' e : Dispatching β}

/-- Two dispatches correspond under a renaming of the tags, as far as some streams are concerned that
    include those of the consumers. -/
structure Retags (ρ : Nat → Nat) (ids : Nat → Prop) (d d' : Dispatching β) : Prop where
  /-- The tags that are still to come correspond. -/
  next : ∀ n, ρ (d.lastTag + n + 1) = d'.lastTag + n + 1
  queue : d'.queue = d.queue.retag ρ
  reach : ∀ c ∈ d.queue.consumers, ids c.stream
  streams : ∀ id, ids id → d'.streams[id]? = d.streams[id]?.map (Stream.retag ρ)

/-- Both sides face the same message, and the same consumer. -/
theorem Retags.faces (h : d.Retags ρ ids d') {message : Message β} {ready : List (Message β)}
    {index : Nat} {consumer : Registration} (hready : d.queue.ready = message :: ready)
    (hindex : index = d.queue.cursor % d.queue.consumers.length)
    (hconsumer : d.queue.consumers[index]? = some consumer) :
    d'.queue.ready = message :: ready ∧
      index = d'.queue.cursor % d'.queue.consumers.length ∧
      d'.queue.consumers[index]? = some consumer := by
  rw [h.queue]
  exact ⟨hready, hindex, hconsumer⟩

/-- Corresponding dispatches make corresponding rounds. -/
theorem Retags.round (h : d.Retags ρ ids d') (hround : Round d e) :
    ∃ e', Round d' e' ∧ e.Retags ρ ids e' := by
  have hnext (n : Nat) : ρ (d.lastTag + 1 + n + 1) = d'.lastTag + 1 + n + 1 := by
    have hlater := h.next (n + 1)
    rw [show d.lastTag + 1 + n + 1 = d.lastTag + (n + 1) + 1 by omega, hlater]
    omega
  cases hround with
  | @lost message ready index consumer hready hindex hconsumer hclosed =>
      have hmem := List.mem_of_getElem? hconsumer
      have hstream := h.streams consumer.stream (h.reach consumer hmem)
      obtain ⟨hready', hindex', hconsumer'⟩ := h.faces hready hindex hconsumer
      refine ⟨⟨d'.lastTag + 1, d'.streams, d'.afterLoss index consumer⟩,
        .lost hready' hindex' hconsumer' (Streams.offer_eq_none_of hstream hclosed), hnext, ?_, ?_,
        h.streams⟩
      · show d'.afterLoss index consumer = (d.afterLoss index consumer).retag ρ
        rw [afterLoss, h.queue]
        exact Queue.requeueIf_retag { d.queue with
          cursor := index + 1, consumers := d.queue.consumers.eraseIdx index }
          fun u => u.owner == consumer.tag
      · intro c hc
        exact h.reach c (List.eraseIdx_subset hc)
  | @handed message ready index consumer streams hready hindex hconsumer hoffer =>
      have hmem := List.mem_of_getElem? hconsumer
      have hid := h.streams consumer.stream (h.reach consumer hmem)
      obtain ⟨stream, hstream, hopen, rfl⟩ := Streams.offer_eq_some hoffer
      have hid' : d'.streams[consumer.stream]? = some (stream.retag ρ) := by
        rw [hid, hstream, Option.map_some]
      -- The new delivery has the tag that corresponds to the one on the other side.
      have htag : ({ message with tag := d'.lastTag + 1 } : Delivery β) =
          ({ message with tag := d.lastTag + 1 } : Delivery β).retag ρ := by
        rw [Delivery.retag]
        congr 1
        exact (h.next 0).symm
      have hafter : (⟨(stream.retag ρ).closed, (stream.retag ρ).waiting ++
          [{ message with tag := d'.lastTag + 1 }]⟩ : Stream β) =
            ({ stream with waiting := stream.waiting ++
              [{ message with tag := d.lastTag + 1 }] } : Stream β).retag ρ := by
        rw [htag]
        simp [Stream.retag]
      have hoffer' := Streams.offer_of_open hid' hopen { message with tag := d'.lastTag + 1 }
      rw [hafter] at hoffer'
      obtain ⟨hready', hindex', hconsumer'⟩ := h.faces hready hindex hconsumer
      refine ⟨⟨d'.lastTag + 1, _, d'.afterHandOut index consumer message ready⟩,
        .handed hready' hindex' hconsumer' hoffer', hnext, ?_,
        h.reach, fun id hreach => Streams.retag_set hstream hid (h.streams id hreach)⟩
      · show d'.afterHandOut index consumer message ready =
          (d.afterHandOut index consumer message ready).retag ρ
        have hnew : ρ (d.lastTag + 1) = d'.lastTag + 1 := h.next 0
        rw [afterHandOut, afterHandOut, h.queue, ← hnew]
        cases consumer.autoAck <;> simp [Queue.retag]

/-- Corresponding dispatches end in corresponding queues and streams. -/
theorem Retags.run (h : d.Retags ρ ids d') : d.run.Retags ρ ids d'.run := by
  induction d using run_induction generalizing d' with
  | finished d hfin hrun =>
      have hfin' : d'.Finished := by
        rw [Finished, h.queue]
        exact hfin
      rw [hrun, run_of_finished hfin']
      exact h
  | round d e hround hrun ih =>
      obtain ⟨e', hround', he⟩ := h.round hround
      rw [hrun, hround'.run_eq]
      exact ih he

/-- A dispatch does not touch the streams of others. -/
theorem run_streams_of_apart (d : Dispatching β) {id : Nat}
    (h : ∀ c ∈ d.queue.consumers, c.stream ≠ id) : d.run.streams[id]? = d.streams[id]? := by
  refine (run_preserves (P := fun e => (∀ c ∈ e.queue.consumers, c.stream ≠ id) ∧
    e.streams[id]? = d.streams[id]?) ?_ d ⟨h, rfl⟩).2
  intro e f hround ⟨hapart, hsame⟩
  cases hround with
  | lost => exact ⟨fun c hc => hapart c (List.eraseIdx_subset hc), hsame⟩
  | @handed message ready index consumer streams hready hindex hconsumer hoffer =>
      obtain ⟨stream, -, -, rfl⟩ := Streams.offer_eq_some hoffer
      have hne := hapart consumer (List.mem_of_getElem? hconsumer)
      refine ⟨hapart, ?_⟩
      show (List.set e.streams consumer.stream _)[id]? = _
      rw [List.getElem?_set_ne hne, hsame]

end Dispatching

end Almanac.Broker
