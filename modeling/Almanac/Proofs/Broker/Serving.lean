/-
  Almanac.Proofs.Broker.Serving

  A queue with one consumer, which acknowledges by hand. Every message goes to it at once and in
  order: the stream of the consumer holds what it has not taken yet, and the queue keeps as
  unsettled what was taken and what waits, in the order of publishing (`State.Serves`).

  `run_feeds` is about one dispatch, `Serves.deliver` about any change of the queue that ends in
  one; publishing, taking and acknowledging keep the broker serving.
-/
import Almanac.Proofs.Broker.Sound

namespace Almanac.Broker

variable {β : Type}

/-- The entry under which a queue keeps a delivery to a consumer. -/
def Registration.holding (r : Registration) (d : Delivery β) : Nat × Unacked β :=
  (d.tag, ⟨r.tag, d.toMessage⟩)

@[simp] theorem Registration.holding_fst (r : Registration) (d : Delivery β) :
    (r.holding d).1 = d.tag := rfl

/-- The entries that a queue keeps of deliveries to a consumer. -/
def Registration.held (r : Registration) (xs : List (Delivery β)) : List (Nat × Unacked β) :=
  if r.autoAck then [] else xs.map r.holding

namespace Registration

variable {r : Registration}

@[simp] theorem held_nil : r.held ([] : List (Delivery β)) = [] := by
  unfold held
  split <;> rfl

theorem held_append (xs ys : List (Delivery β)) : r.held (xs ++ ys) = r.held xs ++ r.held ys := by
  unfold held
  split
  · rfl
  · exact List.map_append

theorem held_of_manual (h : r.autoAck = false) (xs : List (Delivery β)) :
    r.held xs = xs.map r.holding := by
  rw [held, h]
  rfl

end Registration

/-! ## One dispatch -/

namespace Dispatching

/-- The queue of a dispatch has one consumer, which has an open stream. -/
structure Feeds (d : Dispatching β) (r : Registration) (waiting : List (Delivery β)) : Prop where
  alone : d.queue.consumers = [r]
  stream : d.streams[r.stream]? = some ⟨false, waiting⟩

variable {d e : Dispatching β} {r : Registration} {waiting : List (Delivery β)}

/-- The consumer whose turn it is in such a queue is that one. -/
theorem Feeds.consumer_eq (h : d.Feeds r waiting) {index : Nat} {consumer : Registration}
    (hindex : index = d.queue.cursor % d.queue.consumers.length)
    (hconsumer : d.queue.consumers[index]? = some consumer) : consumer = r := by
  rw [h.alone, List.length_singleton, Nat.mod_one] at hindex
  rw [h.alone, hindex] at hconsumer
  exact (Option.some.inj hconsumer).symm

/-- A round hands the next message to the consumer: an open stream refuses nothing. -/
theorem Feeds.round (h : d.Feeds r waiting) (hround : Round d e) :
    ∃ x : Delivery β, d.queue.ready = x.toMessage :: e.queue.ready ∧
      e.queue.unacked = d.queue.unacked ++ r.held [x] ∧ e.Feeds r (waiting ++ [x]) := by
  cases hround with
  | @lost message ready index consumer hready hindex hconsumer hclosed =>
      rw [h.consumer_eq hindex hconsumer] at hclosed
      simp [Streams.offer, h.stream] at hclosed
  | @handed message ready index consumer streams hready hindex hconsumer hoffer =>
      obtain rfl := h.consumer_eq hindex hconsumer
      obtain ⟨stream, hstream, -, rfl⟩ := Streams.offer_eq_some hoffer
      obtain rfl := Option.some.inj (h.stream.symm.trans hstream)
      refine ⟨{ message with tag := d.lastTag + 1 }, hready, ?_, h.alone, ?_⟩
      · simp only [afterHandOut, Registration.held]
        split
        · rw [List.append_nil]
        · rfl
      · have hlt : consumer.stream < d.streams.length :=
          (List.getElem?_eq_some_iff.mp hstream).1
        exact List.getElem?_set_self hlt

/-- A dispatch hands every ready message to the consumer, in order. -/
theorem run_feeds (h : d.Feeds r waiting) :
    ∃ xs : List (Delivery β), xs.map Delivery.toMessage = d.queue.ready ∧
      d.run.queue.ready = [] ∧ d.run.queue.unacked = d.queue.unacked ++ r.held xs ∧
      d.run.Feeds r (waiting ++ xs) := by
  induction d using run_induction generalizing waiting with
  | finished d hfin hrun =>
      -- There is a consumer, so the dispatch ended because nothing was ready.
      have hready : d.queue.ready = [] := by
        refine hfin.resolve_right ?_
        rw [h.alone]
        exact List.cons_ne_nil _ _
      rw [hrun]
      refine ⟨[], by rw [hready]; rfl, hready, ?_, ?_⟩
      · rw [Registration.held_nil, List.append_nil]
      · rwa [List.append_nil]
  | round d e hround hrun ih =>
      obtain ⟨x, hready, hunacked, he⟩ := h.round hround
      obtain ⟨xs, hxs, hnone, hall, hfeeds⟩ := ih he
      rw [hrun]
      refine ⟨x :: xs, ?_, hnone, ?_, ?_⟩
      · rw [List.map_cons, hxs, hready]
      · rw [hall, hunacked, List.append_assoc, ← Registration.held_append, List.singleton_append]
      · rwa [List.append_assoc] at hfeeds

end Dispatching

/-! ## The broker -/

namespace State

/-- The only consumer of a queue is fed. -/
theorem feeds_of_queue {s : State β} {name : String} {q : Queue β} {r : Registration}
    {stream : Nat} (hq : s.queue? name = some q) (halone : q.consumers = [r])
    (hstream : r.stream = stream) : s.feeds stream = true := by
  refine List.any_eq_true.mpr ⟨(name, q), Table.mem_of_get? hq, ?_⟩
  simp [halone, hstream]

/-- A connected broker serves a queue to a consumer, its only one, which has taken some
    deliveries without settling them and will find others in its stream. -/
structure Serves (s : State β) (name : String) (c : Consumer)
    (taken waiting : List (Delivery β)) : Prop where
  sound : s.Sound
  connected : s.connected = true
  queue : ∃ q r, s.queue? name = some q ∧ q.ready = [] ∧ q.consumers = [r] ∧
    r.autoAck = false ∧ r.stream = c.stream ∧ q.unacked = (taken ++ waiting).map r.holding
  stream : s.streams[c.stream]? = some ⟨false, waiting⟩

variable {s : State β} {name : String} {c : Consumer} {taken waiting : List (Delivery β)}

/-- A queue with one consumer that is dispatched is served: what was ready has been handed out
    behind what was there before. -/
theorem Serves.of_deliver {q : Queue β} {r : Registration} (hsound : (s.deliver name q).Sound)
    (hconnected : s.connected = true) (halone : q.consumers = [r]) (hmanual : r.autoAck = false)
    (hstream : s.streams[r.stream]? = some ⟨false, waiting⟩) (hrc : r.stream = c.stream)
    (hunacked : q.unacked = (taken ++ waiting).map r.holding) :
    ∃ xs : List (Delivery β), xs.map Delivery.toMessage = q.ready ∧
      (s.deliver name q).Serves name c taken (waiting ++ xs) := by
  have hfeeds : (s.dispatching q).Feeds r waiting := ⟨halone, hstream⟩
  obtain ⟨xs, hxs, hready, hall, hafter⟩ := Dispatching.run_feeds hfeeds
  refine ⟨xs, hxs, hsound, hconnected, ?_, ?_⟩
  · refine ⟨_, r, ?_, hready, hafter.alone, hmanual, hrc, ?_⟩
    · rw [queue?_deliver, if_pos rfl]
    · rw [hall, Registration.held_of_manual hmanual, ← List.append_assoc, List.map_append,
        ← hunacked]
      rfl
  · rw [← hrc]
    exact hafter.stream

/-- A consumer that registers alone, with a queue that has nothing unsettled, is served the
    messages that were ready. -/
theorem serves_of_consume {q : Queue β} {settings : ConsumeSettings} (hs : s.Sound)
    (hconnected : s.connected = true) (hq : s.queue? settings.queue = some q)
    (hnobody : q.consumers = []) (hunacked : q.unacked = []) (hmanual : settings.autoAck = false) :
    ∃ c xs, (s.consume settings).1 = .ok c ∧ xs.map Delivery.toMessage = q.ready ∧
      (s.consume settings).2.Serves settings.queue c [] xs := by
  have hadmits : q.admits settings = true := by simp [Queue.admits, hnobody]
  have hsound : (s.consume settings).2.Sound := hs.perform (.consume settings)
  have heq := consume_admitted hconnected hq hadmits
  rw [heq] at hsound ⊢
  -- The new stream stands behind the old ones, and nothing waits in it.
  have hfresh : s.withStream.streams[s.streams.length]? = some ⟨false, []⟩ := by
    simp [withStream, Stream.fresh]
  let c : Consumer := ⟨(s.registration q settings).tag, settings.queue, s.streams.length⟩
  obtain ⟨xs, hxs, hserves⟩ : ∃ xs : List (Delivery β), xs.map Delivery.toMessage = q.ready ∧
      (s.withStream.deliver settings.queue
        { q with consumers := q.consumers ++ [s.registration q settings] }).Serves settings.queue c
          [] ([] ++ xs) := by
    refine Serves.of_deliver (r := s.registration q settings) hsound hconnected ?_ hmanual hfresh
      rfl hunacked
    show q.consumers ++ _ = _
    rw [hnobody]
    rfl
  exact ⟨c, xs, rfl, hxs, hserves⟩

namespace Serves

/-- A message that is published to the queue is accepted, and goes to the end of the stream. -/
theorem publish (h : s.Serves name c taken waiting) {settings : PublishSettings}
    (hexchange : settings.exchange = "") (hkey : settings.routingKey = name) (body : β) :
    (s.publish settings body).1 = .ok () ∧ ∃ x : Delivery β,
      x.toMessage = message settings body ∧
      (s.publish settings body).2.Serves name c taken (waiting ++ [x]) := by
  obtain ⟨q, r, hq, hready, halone, hmanual, hrc, hunacked⟩ := h.queue
  have hempty : settings.exchange.isEmpty = true := by rw [hexchange]; rfl
  rw [← hkey] at hq
  refine ⟨?_, ?_⟩
  · simp only [State.publish, h.connected, hempty, hq, Bool.not_true, Bool.false_eq_true, if_false,
      if_true]
  · have hsound : (s.publish settings body).2.Sound := h.sound.perform (.publish settings body)
    rw [publish_routed body h.connected hempty hq] at hsound ⊢
    have hstream : s.streams[r.stream]? = some ⟨false, waiting⟩ := by rw [hrc]; exact h.stream
    obtain ⟨xs, hxs, hserves⟩ := Serves.of_deliver hsound h.connected halone hmanual hstream hrc
      hunacked
    rw [hready] at hxs
    -- Exactly the new message was ready.
    obtain ⟨x, rfl, hx⟩ := List.map_eq_singleton_iff.mp hxs
    exact ⟨x, hx, hkey ▸ hserves⟩

/-- The consumer finds the first delivery that waits. -/
theorem receive_cons {d : Delivery β} (h : s.Serves name c taken (d :: waiting)) :
    (s.receive c).1 = .delivery d ∧ (s.receive c).2.Serves name c (taken ++ [d]) waiting := by
  have heq : s.receive c =
      (.delivery d, { s with streams := s.streams.set c.stream ⟨false, waiting⟩ }) := by
    simp only [State.receive, h.stream]
  have hsound : (s.receive c).2.Sound := h.sound.perform (.receive c)
  rw [heq] at hsound ⊢
  refine ⟨rfl, hsound, h.connected, ?_, ?_⟩
  · rw [List.append_assoc]
    exact h.queue
  · have hlt : c.stream < s.streams.length := (List.getElem?_eq_some_iff.mp h.stream).1
    exact List.getElem?_set_self hlt

/-- The stream is not at its end when nothing waits in it. -/
theorem receive_nil (h : s.Serves name c taken []) : s.receive c = (.empty, s) := by
  obtain ⟨q, r, hq, -, halone, -, hrc, -⟩ := h.queue
  have hfed : s.feeds c.stream = true := feeds_of_queue hq halone hrc
  simp only [State.receive, h.stream, hfed]
  rfl

/-- The tags of what was taken and what waits ascend. -/
theorem ascending (h : s.Serves name c taken waiting) :
    (taken ++ waiting).Pairwise fun x y => x.tag < y.tag := by
  obtain ⟨q, r, hq, -, -, -, -, hunacked⟩ := h.queue
  have htags := (h.sound.queue name q hq).ascending
  rw [Queue.tags, hunacked, List.map_map] at htags
  exact List.pairwise_map.mp htags

/-- The oldest delivery that was taken can be acknowledged, and is then settled. -/
theorem ack {d : Delivery β} (h : s.Serves name c (d :: taken) waiting) :
    (s.ack d.tag false).1 = .ok () ∧ (s.ack d.tag false).2.Serves name c taken waiting := by
  obtain ⟨q, r, hq, hready, halone, hmanual, hrc, hunacked⟩ := h.queue
  have hlookup : q.unacked.lookup d.tag = some ⟨r.tag, d.toMessage⟩ := by
    rw [hunacked]
    exact List.lookup_cons_self
  have hholder := h.sound.holder?_of_lookup hq hlookup
  -- No other delivery has this tag.
  have hrest : (q.discardIf (covers d.tag false r.tag)).unacked =
      (taken ++ waiting).map r.holding := by
    have hlt := (List.pairwise_cons.mp h.ascending).1
    have hkeep : ∀ e ∈ (taken ++ waiting).map r.holding,
        (!covers d.tag false r.tag e.1 e.2) = true := by
      intro e he
      obtain ⟨x, hx, rfl⟩ := List.mem_map.mp he
      have := hlt x hx
      simp only [covers, Registration.holding_fst]
      simp
      omega
    rw [Queue.discardIf, hunacked, List.cons_append, List.map_cons]
    rw [List.filter_cons_of_neg (by simp [covers])]
    exact List.filter_eq_self.mpr hkeep
  have hsound : (s.ack d.tag false).2.Sound := h.sound.perform (.ack d.tag false)
  have heq : s.ack d.tag false =
      (.ok (), s.setQueue name (q.discardIf (covers d.tag false r.tag))) := by
    simp only [State.ack, State.settle, h.connected, hholder]
    rfl
  rw [heq] at hsound ⊢
  refine ⟨rfl, hsound, h.connected, ?_, h.stream⟩
  refine ⟨q.discardIf (covers d.tag false r.tag), r, ?_, hready, halone, hmanual, hrc, hrest⟩
  rw [queue?_setQueue, if_pos rfl]

end Serves

end State

end Almanac.Broker
