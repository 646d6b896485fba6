/-
  Almanac.Proofs.Broker.Attended

  A queue that has one consumer, or none yet. The messages that are published to it wait for that
  consumer: in the queue as long as nobody consumes, and in the stream of the consumer from then
  on (`State.Attends`). A message joins those that wait at their end, and the consumer takes them
  in order, however it acknowledges what it takes.
-/
import Almanac.Proofs.Broker.Serving

namespace Almanac.Broker

variable {β : Type}

namespace State

/-- The messages of a queue that its consumer will find next: they lie in the queue, if it has no
    consumer yet, or in the open stream of the only one. -/
def Keeps (s : State β) (q : Queue β) : Option Consumer → List (Message β) → Prop
  | none, waiting => q.consumers = [] ∧ q.ready = waiting
  | some c, waiting => q.ready = [] ∧ ∃ r xs, q.consumers = [r] ∧ r.stream = c.stream ∧
      s.streams[c.stream]? = some ⟨false, xs⟩ ∧ xs.map Delivery.toMessage = waiting

/-- A connected broker has a queue of a name, and keeps messages that wait for its consumer. -/
structure Attends (s : State β) (name : String) (who : Option Consumer)
    (waiting : List (Message β)) : Prop where
  sound : s.Sound
  connected : s.connected = true
  queue : ∃ q, s.queue? name = some q ∧ s.Keeps q who waiting

variable {s : State β} {name : String} {who : Option Consumer} {c : Consumer}
  {waiting : List (Message β)}

/-- A queue that is new on a fresh broker has nothing in it and no consumer. -/
theorem attends_of_declare (settings : QueueSettings) :
    ((({} : State β).start).declare settings).1 = .ok () ∧
      ((({} : State β).start).declare settings).2.Attends settings.name none [] := by
  have hsound : ((({} : State β).start).declare settings).2.Sound :=
    (Sound.fresh.perform .start).perform (.declare settings)
  refine ⟨rfl, hsound, rfl, { settings }, ?_, rfl, rfl⟩
  exact (queue?_setQueue _ _ _ _).trans (if_pos rfl)

/-- A queue with one consumer that is dispatched: what was ready waits in the stream behind what
    was there before. -/
theorem attends_of_deliver {q : Queue β} {r : Registration} {xs : List (Delivery β)}
    (hsound : (s.deliver name q).Sound) (hconnected : s.connected = true)
    (halone : q.consumers = [r]) (hrc : r.stream = c.stream)
    (hstream : s.streams[c.stream]? = some ⟨false, xs⟩) :
    (s.deliver name q).Attends name (some c) (xs.map Delivery.toMessage ++ q.ready) := by
  have hfeeds : (s.dispatching q).Feeds r xs := by
    refine ⟨halone, ?_⟩
    rw [hrc]
    exact hstream
  obtain ⟨ys, hys, hready, -, hafter⟩ := Dispatching.run_feeds hfeeds
  refine ⟨hsound, hconnected, (s.dispatching q).run.queue, ?_, hready, r, xs ++ ys, hafter.alone,
    hrc, ?_, ?_⟩
  · rw [queue?_deliver, if_pos rfl]
  · rw [← hrc]
    exact hafter.stream
  · rw [List.map_append, hys]
    rfl

/-- A queue without a consumer that is dispatched keeps what is ready. -/
theorem attends_of_deliver_alone {q : Queue β} (hsound : (s.deliver name q).Sound)
    (hconnected : s.connected = true) (hnobody : q.consumers = []) :
    (s.deliver name q).Attends name none q.ready := by
  have hrun : (s.dispatching q).run = s.dispatching q :=
    Dispatching.run_of_finished (Or.inr hnobody)
  refine ⟨hsound, hconnected, q, ?_, hnobody, rfl⟩
  rw [queue?_deliver, if_pos rfl, hrun]
  rfl

namespace Attends

/-- A consumer is admitted if it is the first, and finds in its stream what has waited in the
    queue. -/
theorem consume {settings : ConsumeSettings} (h : s.Attends settings.queue none waiting) :
    ∃ c, (s.consume settings).1 = .ok c ∧ c.queue = settings.queue ∧
      (s.consume settings).2.Attends settings.queue (some c) waiting := by
  obtain ⟨q, hq, hnobody, hready⟩ := h.queue
  have hadmits : q.admits settings = true := by simp [Queue.admits, hnobody]
  have hsound : (s.consume settings).2.Sound := h.sound.perform (.consume settings)
  have heq := consume_admitted h.connected hq hadmits
  rw [heq] at hsound ⊢
  -- The new stream stands behind the old ones, and nothing waits in it.
  have hfresh : s.withStream.streams[s.streams.length]? = some ⟨false, []⟩ := by
    simp [withStream, Stream.fresh]
  refine ⟨_, rfl, rfl, ?_⟩
  rw [← hready, ← q.ready.nil_append, ← List.map_nil (f := Delivery.toMessage)]
  have halone : ({ q with
      consumers := q.consumers ++ [s.registration q settings] } : Queue β).consumers =
        [s.registration q settings] := by
    rw [hnobody]
    rfl
  exact attends_of_deliver hsound h.connected halone rfl hfresh

/-- A message for the queue is accepted, and waits behind the others. -/
theorem publish (h : s.Attends name who waiting) {settings : PublishSettings}
    (hexchange : settings.exchange = "") (hkey : settings.routingKey = name) (body : β) :
    (s.publish settings body).1 = .ok () ∧
      (s.publish settings body).2.Attends name who (waiting ++ [message settings body]) := by
  obtain ⟨q, hq, hkeeps⟩ := h.queue
  have hempty : settings.exchange.isEmpty = true := by rw [hexchange]; rfl
  rw [← hkey] at hq
  refine ⟨?_, ?_⟩
  · simp only [State.publish, h.connected, hempty, hq, Bool.not_true, Bool.false_eq_true, if_false,
      if_true]
  · have hsound : (s.publish settings body).2.Sound := h.sound.perform (.publish settings body)
    rw [publish_routed body h.connected hempty hq] at hsound ⊢
    rw [← hkey]
    cases who with
    | none =>
        obtain ⟨hnobody, rfl⟩ := hkeeps
        exact attends_of_deliver_alone hsound h.connected hnobody
    | some c =>
        obtain ⟨hready, r, xs, halone, hrc, hstream, rfl⟩ := hkeeps
        have hnow := attends_of_deliver hsound h.connected halone hrc hstream
        simp only [hready, List.nil_append] at hnow ⊢
        exact hnow

/-- A message for another exchange than the default one reaches no queue: it is refused if it is
    mandatory, and accepted if it is not, and either way nothing comes of it. -/
theorem publish_elsewhere (h : s.Attends name who waiting) {settings : PublishSettings}
    (hexchange : settings.exchange ≠ "") (body : β) :
    s.publish settings body =
      (if settings.mandatory then
        .error (.unroutable settings.exchange settings.routingKey) else .ok (), s) := by
  have hfull : settings.exchange.isEmpty = false := by simpa using hexchange
  simp only [State.publish, h.connected, hfull, Bool.not_true, Bool.false_eq_true, if_false]
  split <;> rfl

/-- The consumer finds the first message that waits. -/
theorem receive_cons {m : Message β} (h : s.Attends name (some c) (m :: waiting)) :
    ∃ d : Delivery β, d.toMessage = m ∧ (s.receive c).1 = .delivery d ∧
      (s.receive c).2.Attends name (some c) waiting := by
  obtain ⟨q, hq, hready, r, xs, halone, hrc, hstream, hxs⟩ := h.queue
  obtain ⟨d, ds, rfl, hd, hds⟩ := List.map_eq_cons_iff.mp hxs
  have heq : s.receive c =
      (.delivery d, { s with streams := s.streams.set c.stream ⟨false, ds⟩ }) := by
    simp only [State.receive, hstream]
  have hsound : (s.receive c).2.Sound := h.sound.perform (.receive c)
  rw [heq] at hsound ⊢
  have hlt : c.stream < s.streams.length := (List.getElem?_eq_some_iff.mp hstream).1
  exact ⟨d, hd, rfl, hsound, h.connected, q, hq, hready, r, ds, halone, hrc,
    List.getElem?_set_self hlt, hds⟩

/-- The stream is not at its end when nothing waits in it. -/
theorem receive_nil (h : s.Attends name (some c) []) : s.receive c = (.empty, s) := by
  obtain ⟨q, hq, hready, r, xs, halone, hrc, hstream, hxs⟩ := h.queue
  obtain rfl := List.map_eq_nil_iff.mp hxs
  have hfed : s.feeds c.stream = true := feeds_of_queue hq halone hrc
  simp only [State.receive, hstream, hfed]
  rfl

/-- Acknowledging touches only what has been taken. -/
theorem ack (h : s.Attends name who waiting) (tag : Nat) (multiple : Bool) :
    (s.ack tag multiple).2.Attends name who waiting := by
  have hsound : (s.ack tag multiple).2.Sound := h.sound.perform (.ack tag multiple)
  rcases settle_cases s tag multiple .discard with ⟨hsame, -⟩ | ⟨holder, p, owner, -, hholder, hset⟩
  · rw [State.ack, hsame]
    exact h
  · rw [State.ack, hset] at hsound ⊢
    obtain ⟨q, hq, hkeeps⟩ := h.queue
    have hp := (holder?_eq_some h.sound.names hholder).1
    by_cases hname : holder = name
    · subst hname
      obtain rfl := Option.some.inj (hp.symm.trans hq)
      refine ⟨hsound, h.connected, p.discardIf (covers tag multiple owner), ?_, ?_⟩
      · rw [queue?_setQueue, if_pos rfl]
      · cases who <;> exact hkeeps
    · refine ⟨hsound, h.connected, q, ?_, ?_⟩
      · rw [queue?_setQueue, if_neg hname]
        exact hq
      · cases who <;> exact hkeeps

end Attends

end State

end Almanac.Broker
