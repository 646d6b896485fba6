/-
  Almanac.Proofs.Broker.Run

  Runs of the broker. A `Call` is anything a client can do to it, and a run is a list of
  calls from a fresh broker; a consumer leaves in two calls, `close` and `cancel`, so
  that others can come between them. The order in which `recover` visits the queues is
  part of the call, because nothing fixes it.

  Most calls change one queue and then dispatch it. `State.deliver` is that common
  ending, and the equations below put every call in terms of it.
-/
import Almanac.Broker.State
import Almanac.Proofs.Broker.Dispatch
import Almanac.Proofs.Table

namespace Almanac.Broker

variable {β : Type}

/-- What a client can do to the broker. -/
inductive Call (β : Type)
  | start
  | stop
  | declare (settings : QueueSettings)
  | publish (settings : PublishSettings) (body : β)
  | consume (settings : ConsumeSettings)
  | ack (tag : Nat) (multiple : Bool)
  | nack (tag : Nat) (multiple requeue : Bool)
  /-- The queues are visited in this order. -/
  | recover (order : List String)
  /-- A consumer looks into its stream. -/
  | receive (c : Consumer)
  /-- The first step of a consumer that leaves. -/
  | close (c : Consumer)
  /-- The second step of a consumer that leaves. -/
  | cancel (name tag : String)

namespace State

/-- Returns the unsettled deliveries of the named queues, one queue after the other. -/
def recoverIn (s : State β) (order : List String) : State β :=
  if s.connected then order.foldl recoverQueue s else s

/-- The state after a call. -/
def perform (s : State β) : Call β → State β
  | .start => s.start
  | .stop => s.stop
  | .declare settings => (s.declare settings).2
  | .publish settings body => (s.publish settings body).2
  | .consume settings => (s.consume settings).2
  | .ack tag multiple => (s.ack tag multiple).2
  | .nack tag multiple requeue => (s.nack tag multiple requeue).2
  | .recover order => s.recoverIn order
  | .receive c => (s.receive c).2
  | .close c => s.closeStream c
  | .cancel name tag => s.cancel name tag

/-- A consumer that leaves at once makes the two calls one after the other. -/
theorem drop_eq (s : State β) (c : Consumer) :
    s.drop c = (s.perform (.close c)).perform (.cancel c.queue c.tag) := rfl

/-- The state after a run from a fresh broker. -/
def run (calls : List (Call β)) : State β := calls.foldl perform {}

@[simp] theorem run_nil : run ([] : List (Call β)) = {} := rfl

@[simp] theorem run_concat (calls : List (Call β)) (c : Call β) :
    run (calls ++ [c]) = (run calls).perform c := by
  simp [run]

/-- Whether a published message reaches a queue. -/
def routes (s : State β) (settings : PublishSettings) : Bool :=
  s.connected && settings.exchange.isEmpty && (s.queue? settings.routingKey).isSome

/-! ## Changing one queue -/

@[simp] theorem queue?_setQueue (s : State β) (name : String) (q : Queue β) (other : String) :
    (s.setQueue name q).queue? other = if name = other then some q else s.queue? other :=
  Table.get?_insert _ _ _ _

/-- A dispatch of a queue, before it begins. -/
def dispatching (s : State β) (q : Queue β) : Dispatching β := ⟨s.lastTag, s.streams, q⟩

/-- Puts a queue under a name and dispatches it. -/
def deliver (s : State β) (name : String) (q : Queue β) : State β :=
  let d := (s.dispatching q).run
  { s.setQueue name d.queue with lastTag := d.lastTag, streams := d.streams }

theorem insert_insert (t : Table (Queue β)) (name : String) (q r : Queue β) :
    (t.insert name q).insert name r = t.insert name r := by
  induction t with
  | nil => simp [Table.insert]
  | cons entry t ih =>
      obtain ⟨k, v⟩ := entry
      -- The first insertion has put the name where the second one finds it.
      by_cases h : k = name
      · simp [Table.insert, h]
      · have hne : (k == name) = false := by simpa using h
        simp [Table.insert, hne, ih]

/-- Dispatching a queue that has just been changed. -/
theorem setQueue_dispatch (s : State β) (name : String) (q : Queue β) :
    (s.setQueue name q).dispatch name = s.deliver name q := by
  unfold dispatch
  rw [queue?_setQueue, if_pos rfl]
  simp only [deliver, dispatching, setQueue, insert_insert]

@[simp] theorem deliver_connected (s : State β) (name : String) (q : Queue β) :
    (s.deliver name q).connected = s.connected := rfl

theorem deliver_queues (s : State β) (name : String) (q : Queue β) :
    (s.deliver name q).queues = s.queues.insert name (s.dispatching q).run.queue := rfl

theorem queue?_deliver (s : State β) (name : String) (q : Queue β) (other : String) :
    (s.deliver name q).queue? other =
      if name = other then some (s.dispatching q).run.queue else s.queue? other :=
  Table.get?_insert _ _ _ _

/-! ## The calls -/

/-- The message that a request to publish makes. -/
def message (settings : PublishSettings) (body : β) : Message β where
  body
  contentType := settings.contentType
  routingKey := settings.routingKey
  redelivered := false

/-- A message that reaches a queue goes to its end, and the queue is dispatched. -/
theorem publish_routed {s : State β} {settings : PublishSettings} {q : Queue β} (body : β)
    (hconnected : s.connected = true) (hexchange : settings.exchange.isEmpty = true)
    (hq : s.queue? settings.routingKey = some q) :
    (s.publish settings body).2 =
      s.deliver settings.routingKey { q with ready := q.ready ++ [message settings body] } := by
  simp only [publish, hconnected, hexchange, hq, Bool.not_true, Bool.false_eq_true, if_false,
    if_true, setQueue_dispatch]
  rfl

/-- Any other message changes nothing. -/
theorem publish_unrouted {s : State β} {settings : PublishSettings} (body : β)
    (h : s.routes settings = false) : (s.publish settings body).2 = s := by
  unfold publish
  cases hconnected : s.connected
  · rfl
  · cases hexchange : settings.exchange.isEmpty
    · simp only [Bool.not_true, Bool.false_eq_true, if_false]
      split <;> rfl
    · -- The default exchange was asked, but no queue has the name.
      have hnone : s.queue? settings.routingKey = none := by
        simpa [routes, hconnected, hexchange] using h
      simp only [Bool.not_true, Bool.false_eq_true, if_false, if_true, hnone]
      split <;> rfl

theorem routes_iff {s : State β} {settings : PublishSettings} :
    s.routes settings = true ↔ s.connected = true ∧ settings.exchange.isEmpty = true ∧
      ∃ q, s.queue? settings.routingKey = some q := by
  simp only [routes, Bool.and_eq_true, Option.isSome_iff_exists, and_assoc]

/-- The registration that a request to consume makes. -/
def registration (s : State β) (q : Queue β) (settings : ConsumeSettings) : Registration where
  tag := q.tagFor settings.consumer (generatedTag (s.asked + 1))
  autoAck := settings.autoAck
  exclusive := settings.exclusive || q.settings.exclusive
  stream := s.streams.length

/-- The state in which a new consumer has its stream, but is not registered yet. -/
def withStream (s : State β) : State β :=
  { s with asked := s.asked + 1, streams := s.streams ++ [Stream.fresh] }

/-- A consumer that is admitted gets a fresh stream and is registered behind the others, and
    the queue is dispatched. -/
theorem consume_eq (s : State β) (settings : ConsumeSettings) :
    s.consume settings =
      if !s.connected then (.error .notConnected, s)
      else match s.queue? settings.queue with
        | none => (.error (.queueNotFound settings.queue), { s with asked := s.asked + 1 })
        | some q =>
          if !q.admits settings then
            (.error (.exclusiveQueue settings.queue), { s with asked := s.asked + 1 })
          else
            (.ok ⟨(s.registration q settings).tag, settings.queue, s.streams.length⟩,
              s.withStream.deliver settings.queue
                { q with consumers := q.consumers ++ [s.registration q settings] }) := by
  have hq : ∀ n, ({ s with asked := n } : State β).queue? settings.queue =
      s.queue? settings.queue := fun _ => rfl
  unfold consume
  simp only [hq, ← setQueue_dispatch]
  rfl

theorem consume_admitted {s : State β} {settings : ConsumeSettings} {q : Queue β}
    (hconnected : s.connected = true) (hq : s.queue? settings.queue = some q)
    (hadmits : q.admits settings = true) :
    s.consume settings =
      (.ok ⟨(s.registration q settings).tag, settings.queue, s.streams.length⟩,
        s.withStream.deliver settings.queue
          { q with consumers := q.consumers ++ [s.registration q settings] }) := by
  rw [consume_eq, if_neg (by simp [hconnected]), hq]
  simp only [hadmits, Bool.not_true, Bool.false_eq_true, if_false]

/-- A request to consume is refused, with nothing but the number of requests changed, or a
    consumer is admitted. -/
theorem consume_cases (s : State β) (settings : ConsumeSettings) :
    (∃ e n, s.consume settings = (.error e, { s with asked := n })) ∨
      ∃ q, s.connected = true ∧ s.queue? settings.queue = some q ∧ q.admits settings = true := by
  rw [consume_eq]
  by_cases hconnected : s.connected = true
  · rw [if_neg (by simp [hconnected])]
    cases hq : s.queue? settings.queue with
    | none => exact Or.inl ⟨_, _, rfl⟩
    | some q =>
        by_cases hadmits : q.admits settings = true
        · exact Or.inr ⟨q, hconnected, rfl, hadmits⟩
        · exact Or.inl ⟨.exclusiveQueue settings.queue, s.asked + 1,
            by simp only [hadmits, Bool.not_false, if_true]⟩
  · exact Or.inl ⟨.notConnected, s.asked, by rw [if_pos (by simpa using hconnected)]⟩

theorem cancel_eq (s : State β) (name tag : String) :
    s.cancel name tag =
      match s.queue? name with
      | none => s
      | some q =>
        if (q.without tag).consumers.length == q.consumers.length then s
        else if (q.without tag).consumers.isEmpty && q.settings.autoDelete then
          { s with queues := s.queues.erase name }
        else s.deliver name (q.without tag) := by
  unfold cancel
  simp only [← setQueue_dispatch]
  rfl

/-- Cancelling does nothing, removes a queue with its last consumer, or returns what the
    consumer held and dispatches the queue. -/
theorem cancel_cases (s : State β) (name tag : String) :
    s.cancel name tag = s ∨
      ∃ q, s.queue? name = some q ∧
        (((q.without tag).consumers = [] ∧ q.settings.autoDelete = true ∧
            s.cancel name tag = { s with queues := s.queues.erase name }) ∨
          s.cancel name tag = s.deliver name (q.without tag)) := by
  rw [cancel_eq]
  cases s.queue? name with
  | none => exact Or.inl rfl
  | some q =>
      dsimp only
      split
      · exact Or.inl rfl
      · refine Or.inr ⟨q, rfl, ?_⟩
        split
        · next hgone =>
          rw [Bool.and_eq_true, List.isEmpty_iff] at hgone
          exact Or.inl ⟨hgone.1, hgone.2, rfl⟩
        · exact Or.inr rfl

/-- Returning the unsettled deliveries of a queue dispatches it. -/
theorem recoverQueue_eq (s : State β) (name : String) :
    s.recoverQueue name =
      match s.queue? name with
      | none => s
      | some q => s.deliver name (q.requeueIf fun _ _ => true) := by
  unfold recoverQueue
  cases s.queue? name with
  | none => rfl
  | some q => exact setQueue_dispatch _ _ _

/-- Whether settling a tag covers a delivery: with `multiple`, all up to the tag that went to
    the same owner, and otherwise the one with the tag. -/
def covers (tag : Nat) (multiple : Bool) (owner : String) (t : Nat) (u : Unacked β) : Bool :=
  if multiple then decide (t ≤ tag) && u.owner == owner else t == tag

/-- Settling changes nothing, for want of a connection or of a holder, or changes the queue
    that holds the delivery. -/
theorem settle_cases (s : State β) (tag : Nat) (multiple : Bool) (how : Settlement) :
    ((s.settle tag multiple how).2 = s ∧ (s.connected = false ∨ s.holder? tag = none)) ∨
      ∃ name q owner, s.connected = true ∧ s.holder? tag = some (name, q, owner) ∧
        (s.settle tag multiple how).2 =
          match how with
          | .requeue => s.deliver name (q.requeueIf (covers tag multiple owner))
          | .discard => s.setQueue name (q.discardIf (covers tag multiple owner)) := by
  unfold settle
  by_cases hconnected : s.connected = true
  · rw [if_neg (by simp [hconnected])]
    cases hholder : s.holder? tag with
    | none => exact Or.inl ⟨rfl, Or.inr rfl⟩
    | some found =>
        obtain ⟨name, q, owner⟩ := found
        refine Or.inr ⟨name, q, owner, hconnected, rfl, ?_⟩
        cases how with
        | requeue => exact setQueue_dispatch _ _ _
        | discard => rfl
  · rw [if_pos (by simpa using hconnected)]
    exact Or.inl ⟨rfl, Or.inl (by simpa using hconnected)⟩

theorem mem_tags_of_lookup {q : Queue β} {tag : Nat} {u : Unacked β}
    (h : q.unacked.lookup tag = some u) : tag ∈ q.tags := by
  obtain ⟨l₁, l₂, heq, -⟩ := List.lookup_eq_some_iff.mp h
  simp [Queue.tags, heq]

/-- The holder of a delivery is a queue of the broker that has it unsettled. -/
theorem holder?_eq_some {s : State β} (hnames : s.queues.keys.Nodup) {tag : Nat}
    {name owner : String} {q : Queue β} (h : s.holder? tag = some (name, q, owner)) :
    s.queue? name = some q ∧ ∃ u, q.unacked.lookup tag = some u ∧ u.owner = owner := by
  unfold holder? at h
  obtain ⟨⟨name', q'⟩, hmem, hfound⟩ := List.exists_of_findSome?_eq_some h
  simp only [Option.map_eq_some_iff, Prod.mk.injEq] at hfound
  obtain ⟨u, hlookup, rfl, rfl, howner⟩ := hfound
  -- With different names, the entry that was found is the one that a look-up finds.
  exact ⟨Table.get?_of_mem hnames hmem, u, hlookup, howner⟩

/-- Receiving takes the first delivery from a stream, or changes nothing. -/
theorem receive_cases (s : State β) (c : Consumer) :
    ((s.receive c).2 = s ∧ ∀ d, (s.receive c).1 ≠ .delivery d) ∨
      ∃ stream d waiting, s.streams[c.stream]? = some stream ∧ stream.waiting = d :: waiting ∧
        s.receive c =
          (.delivery d, { s with streams := s.streams.set c.stream { stream with waiting } }) := by
  unfold receive
  cases hstream : s.streams[c.stream]? with
  | none => exact Or.inl ⟨rfl, fun d h => by simp at h⟩
  | some stream =>
      cases hwaiting : stream.waiting with
      | nil =>
          refine Or.inl ⟨by simp only [hwaiting], fun d h => ?_⟩
          simp only [hwaiting] at h
          split at h <;> simp at h
      | cons d waiting =>
          exact Or.inr ⟨stream, d, waiting, rfl, hwaiting, by simp only [hwaiting]⟩

end State

end Almanac.Broker
