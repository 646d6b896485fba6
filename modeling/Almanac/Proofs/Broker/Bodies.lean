/-
  Almanac.Proofs.Broker.Bodies

  The broker never looks at bodies: a run whose bodies are changed by a function goes
  through the same states with their bodies changed (`run_map`). So the messages of a
  run can be told apart by writing a number into each body, and forgetting the numbers
  gives the run back.
-/
import Almanac.Proofs.Broker.Run
import Mathlib.Data.List.Induction

namespace Almanac.Broker

variable {β γ : Type}

/-! ## Changing bodies -/

def Message.map (f : β → γ) (m : Message β) : Message γ where
  body := f m.body
  contentType := m.contentType
  routingKey := m.routingKey
  redelivered := m.redelivered

def Delivery.map (f : β → γ) (d : Delivery β) : Delivery γ :=
  { d.toMessage.map f with tag := d.tag }

def Unacked.map (f : β → γ) (u : Unacked β) : Unacked γ := ⟨u.owner, u.message.map f⟩

def Stream.map (f : β → γ) (s : Stream β) : Stream γ := ⟨s.closed, s.waiting.map (·.map f)⟩

def Queue.map (f : β → γ) (q : Queue β) : Queue γ where
  settings := q.settings
  ready := q.ready.map (·.map f)
  consumers := q.consumers
  cursor := q.cursor
  unacked := q.unacked.map fun (t, u) => (t, u.map f)

def Dispatching.map (f : β → γ) (d : Dispatching β) : Dispatching γ where
  lastTag := d.lastTag
  streams := d.streams.map (·.map f)
  queue := d.queue.map f

/-- The state with every body changed. -/
def State.map (f : β → γ) (s : State β) : State γ where
  connected := s.connected
  lastTag := s.lastTag
  asked := s.asked
  queues := s.queues.map fun (k, q) => (k, q.map f)
  streams := s.streams.map (·.map f)

/-- The call with its body changed. -/
def Call.map (f : β → γ) : Call β → Call γ
  | .start => .start
  | .stop => .stop
  | .declare settings => .declare settings
  | .publish settings body => .publish settings (f body)
  | .consume settings => .consume settings
  | .ack tag multiple => .ack tag multiple
  | .nack tag multiple requeue => .nack tag multiple requeue
  | .recover order => .recover order
  | .receive c => .receive c
  | .close c => .close c
  | .cancel name tag => .cancel name tag

/-! ## One queue -/

/-- Which deliveries go back depends on their tags and owners alone. -/
theorem Queue.map_requeueIf (f : β → γ) (q : Queue β) (p : Nat → String → Bool) :
    (q.requeueIf fun t u => p t u.owner).map f = (q.map f).requeueIf fun t u => p t u.owner := by
  simp only [Queue.requeueIf, Queue.map, List.partition_eq_filter_filter, List.map_append,
    List.map_map, List.filter_map]
  rfl

theorem Streams.offer_map (f : β → γ) (streams : Streams β) (id : Nat) (d : Delivery β) :
    Streams.offer (streams.map (·.map f)) id (d.map f) =
      (streams.offer id d).map (List.map (·.map f)) := by
  unfold Streams.offer
  rw [List.getElem?_map]
  cases streams[id]? with
  | none => rfl
  | some stream =>
      simp only [Option.map_some, Stream.map]
      split
      · rfl
      · simp [List.map_set]

namespace Dispatching

theorem Finished.map {d : Dispatching β} (h : d.Finished) (f : β → γ) : (d.map f).Finished := by
  rcases h with h | h
  · exact Or.inl (by simp [Dispatching.map, Queue.map, h])
  · exact Or.inr h

theorem map_afterLoss (f : β → γ) (d : Dispatching β) (index : Nat) (consumer : Registration) :
    (d.map f).afterLoss index consumer = (d.afterLoss index consumer).map f :=
  (Queue.map_requeueIf f
    { d.queue with cursor := index + 1, consumers := d.queue.consumers.eraseIdx index }
    fun _ owner => owner == consumer.tag).symm

theorem map_afterHandOut (f : β → γ) (d : Dispatching β) (index : Nat) (consumer : Registration)
    (message : Message β) (ready : List (Message β)) :
    (d.map f).afterHandOut index consumer (message.map f) (ready.map (·.map f)) =
      (d.afterHandOut index consumer message ready).map f := by
  unfold afterHandOut
  split <;> simp [Dispatching.map, Queue.map, Unacked.map]

theorem Round.map {d e : Dispatching β} (h : Round d e) (f : β → γ) :
    Round (d.map f) (e.map f) := by
  cases h with
  | @lost message ready index consumer hready hindex hconsumer hclosed =>
      have hready' : (d.map f).queue.ready = message.map f :: ready.map (·.map f) := by
        simp [Dispatching.map, Queue.map, hready]
      have hclosed' : Streams.offer (d.map f).streams consumer.stream
          { message.map f with tag := (d.map f).lastTag + 1 } = none := by
        have := Streams.offer_map f d.streams consumer.stream
          { message with tag := d.lastTag + 1 }
        rw [hclosed] at this
        exact this
      have := Round.lost hready' hindex hconsumer hclosed'
      rw [map_afterLoss] at this
      exact this
  | @handed message ready index consumer streams hready hindex hconsumer hoffer =>
      have hready' : (d.map f).queue.ready = message.map f :: ready.map (·.map f) := by
        simp [Dispatching.map, Queue.map, hready]
      have hoffer' : Streams.offer (d.map f).streams consumer.stream
          { message.map f with tag := (d.map f).lastTag + 1 } =
            some (streams.map (·.map f)) := by
        have := Streams.offer_map f d.streams consumer.stream
          { message with tag := d.lastTag + 1 }
        rw [hoffer] at this
        exact this
      have := Round.handed hready' hindex hconsumer hoffer'
      rw [map_afterHandOut] at this
      exact this

theorem run_map (f : β → γ) (d : Dispatching β) : (d.map f).run = d.run.map f := by
  induction d using run_induction with
  | finished d hfin hrun => rw [hrun, run_of_finished (hfin.map f)]
  | round d e hround hrun ih => rw [hrun, (hround.map f).run_eq, ih]

end Dispatching

/-! ## All queues -/

namespace State

variable (f : β → γ) (s : State β)

theorem queue?_map (name : String) : (s.map f).queue? name = (s.queue? name).map (Queue.map f) :=
  Table.get?_map _ _ _

theorem insert_map (t : Table (Queue β)) (name : String) (q : Queue β) :
    (t.insert name q).map (fun (k, q) => (k, q.map f)) =
      Table.insert (t.map fun (k, q) => (k, q.map f)) name (q.map f) :=
  Table.map_insert (Queue.map f) t name q

theorem setQueue_map (name : String) (q : Queue β) :
    (s.setQueue name q).map f = (s.map f).setQueue name (q.map f) := by
  simp only [setQueue, State.map, insert_map]

theorem deliver_map (name : String) (q : Queue β) :
    (s.deliver name q).map f = (s.map f).deliver name (q.map f) := by
  have hrun := Dispatching.run_map f (s.dispatching q)
  have hstart : (s.map f).dispatching (q.map f) = (s.dispatching q).map f := rfl
  unfold deliver
  rw [hstart, hrun]
  simp only [setQueue, State.map, insert_map, Dispatching.map]

theorem stop_map : s.stop.map f = (s.map f).stop := by
  have hconnected : (s.map f).connected = s.connected := rfl
  unfold stop
  rw [hconnected]
  split
  · have habandoned : ∀ q : Queue β, q.abandoned.map f = (q.map f).abandoned :=
      fun q => Queue.map_requeueIf f { q with consumers := [] } fun _ _ => true
    simp only [State.map, List.filter_map, List.map_map, Function.comp_def, habandoned]
    rfl
  · rfl

theorem declare_map (settings : QueueSettings) :
    (s.declare settings).2.map f = ((s.map f).declare settings).2 := by
  have hconnected : (s.map f).connected = s.connected := rfl
  unfold declare
  rw [hconnected, queue?_map]
  split
  · rfl
  · cases s.queue? settings.name with
    | none => exact setQueue_map f s _ _
    | some q => rfl

theorem routes_map (settings : PublishSettings) :
    (s.map f).routes settings = s.routes settings := by
  simp only [routes, queue?_map, Option.isSome_map]
  rfl

theorem publish_map (settings : PublishSettings) (body : β) :
    (s.publish settings body).2.map f = ((s.map f).publish settings (f body)).2 := by
  by_cases hroutes : s.routes settings = true
  · obtain ⟨hconnected, hexchange, q, hq⟩ := routes_iff.mp hroutes
    have hq' : (s.map f).queue? settings.routingKey = some (q.map f) := by
      rw [queue?_map, hq, Option.map_some]
    rw [publish_routed body hconnected hexchange hq,
      publish_routed (f body) (s := s.map f) hconnected hexchange hq', deliver_map]
    simp only [Queue.map, List.map_append, List.map_cons, List.map_nil]
    rfl
  · have hroutes' : (s.map f).routes settings = false := by
      rw [routes_map]
      simpa using hroutes
    rw [publish_unrouted body (by simpa using hroutes), publish_unrouted (f body) hroutes']

theorem consume_map (settings : ConsumeSettings) :
    (s.consume settings).1 = ((s.map f).consume settings).1 ∧
      (s.consume settings).2.map f = ((s.map f).consume settings).2 := by
  have hconnected : (s.map f).connected = s.connected := rfl
  rw [consume_eq, consume_eq, hconnected, queue?_map]
  split
  · exact ⟨rfl, rfl⟩
  · cases s.queue? settings.queue with
    | none => exact ⟨rfl, rfl⟩
    | some q =>
        have hadmits : (q.map f).admits settings = q.admits settings := rfl
        simp only [Option.map_some, hadmits]
        split
        · exact ⟨rfl, rfl⟩
        · have hlength : (s.map f).streams.length = s.streams.length := List.length_map _
          have hwith : (s.map f).withStream = s.withStream.map f := by
            simp [withStream, State.map, Stream.map, Stream.fresh]
          have hreg : (s.map f).registration (q.map f) settings = s.registration q settings := by
            simp only [registration, hlength]
            rfl
          refine ⟨by rw [hreg, hlength], ?_⟩
          rw [deliver_map, hwith, hreg]
          rfl

theorem lookup_map (l : List (Nat × Unacked β)) (tag : Nat) :
    List.lookup tag (l.map fun (t, u) => (t, u.map f)) = (l.lookup tag).map (Unacked.map f) := by
  induction l with
  | nil => rfl
  | cons entry l ih =>
      obtain ⟨t, u⟩ := entry
      simp only [List.map_cons, List.lookup_cons]
      split
      · rfl
      · exact ih

theorem holder?_map (tag : Nat) :
    (s.map f).holder? tag = (s.holder? tag).map fun (name, q, owner) => (name, q.map f, owner) := by
  simp only [holder?, State.map]
  induction s.queues with
  | nil => rfl
  | cons entry queues ih =>
      obtain ⟨name, q⟩ := entry
      have hlookup : (q.map f).unacked.lookup tag = (q.unacked.lookup tag).map (Unacked.map f) :=
        lookup_map f q.unacked tag
      simp only [List.map_cons, List.findSome?_cons, hlookup]
      cases q.unacked.lookup tag with
      | none => exact ih
      | some u => rfl

theorem settle_map (tag : Nat) (multiple : Bool) (how : Settlement) :
    (s.settle tag multiple how).2.map f = ((s.map f).settle tag multiple how).2 := by
  have hconnected : (s.map f).connected = s.connected := rfl
  unfold settle
  rw [hconnected, holder?_map]
  split
  · rfl
  · cases s.holder? tag with
    | none => rfl
    | some found =>
        obtain ⟨name, q, owner⟩ := found
        cases how with
        | requeue =>
            simp only [Option.map_some, setQueue_dispatch, deliver_map]
            exact congrArg _ (Queue.map_requeueIf f q fun t o =>
              if multiple then decide (t ≤ tag) && o == owner else t == tag)
        | discard =>
            simp only [Option.map_some, setQueue_map]
            simp only [Queue.map, List.filter_map]
            rfl

theorem recoverQueue_map (name : String) :
    (s.recoverQueue name).map f = (s.map f).recoverQueue name := by
  rw [recoverQueue_eq, recoverQueue_eq, queue?_map]
  cases s.queue? name with
  | none => rfl
  | some q =>
      simp only [Option.map_some, deliver_map]
      exact congrArg _ (Queue.map_requeueIf f q fun _ _ => true)

theorem recoverIn_map (order : List String) :
    (s.recoverIn order).map f = (s.map f).recoverIn order := by
  have hconnected : (s.map f).connected = s.connected := rfl
  unfold recoverIn
  rw [hconnected]
  split
  · next hopen =>
    clear hopen hconnected
    induction order generalizing s with
    | nil => rfl
    | cons name order ih => rw [List.foldl_cons, List.foldl_cons, ih, recoverQueue_map]
  · rfl

theorem closeStream_map (c : Consumer) : (s.closeStream c).map f = (s.map f).closeStream c := by
  unfold closeStream
  simp only [State.map, List.getElem?_map]
  cases s.streams[c.stream]? with
  | none => rfl
  | some stream => simp [List.map_set, Stream.map]

theorem cancel_map (name tag : String) : (s.cancel name tag).map f = (s.map f).cancel name tag := by
  rw [cancel_eq, cancel_eq, queue?_map]
  cases s.queue? name with
  | none => rfl
  | some q =>
      have hwithout : (q.map f).without tag = (q.without tag).map f :=
        (Queue.map_requeueIf f { q with consumers := q.consumers.filter (·.tag != tag) }
          fun _ owner => owner == tag).symm
      have hconsumers : ∀ r : Queue β, (r.map f).consumers = r.consumers := fun _ => rfl
      have hsettings : (q.map f).settings = q.settings := rfl
      simp only [Option.map_some, hwithout, hconsumers, hsettings]
      split
      · rfl
      · split
        · simp [State.map, Table.erase, List.filter_map, Function.comp_def]
        · exact deliver_map f s name _

theorem receive_map (c : Consumer) : (s.receive c).2.map f = ((s.map f).receive c).2 := by
  unfold receive
  simp only [State.map, List.getElem?_map]
  cases s.streams[c.stream]? with
  | none => rfl
  | some stream =>
      cases hwaiting : stream.waiting with
      | nil => simp [Stream.map, hwaiting]
      | cons d waiting => simp [Stream.map, hwaiting, List.map_set]

/-- A call does the same to the state with other bodies. -/
theorem perform_map (c : Call β) : (s.perform c).map f = (s.map f).perform (c.map f) := by
  cases c with
  | start => rfl
  | stop => exact stop_map f s
  | declare settings => exact declare_map f s settings
  | publish settings body => exact publish_map f s settings body
  | consume settings => exact (consume_map f s settings).2
  | ack tag multiple => exact settle_map f s tag multiple _
  | nack tag multiple requeue => exact settle_map f s tag multiple _
  | recover order => exact recoverIn_map f s order
  | receive c => exact receive_map f s c
  | close c => exact closeStream_map f s c
  | cancel name tag => exact cancel_map f s name tag

/-- A run goes through the same states with other bodies. -/
theorem run_map (calls : List (Call β)) : (run calls).map f = run (calls.map (Call.map f)) := by
  induction calls using List.reverseRecOn with
  | nil => rfl
  | append_singleton calls c ih =>
      rw [run_concat, perform_map, ih, List.map_append, List.map_cons, List.map_nil, run_concat]

end State

end Almanac.Broker
