/-
  Almanac.Proofs.Broker.Effect

  Everything that one call can do to the broker, said once. `Effect` has a constructor for each
  way in which a call changes something, with all that the broker has checked by then, and one
  for calls that find nothing to do (`Idle`). An invariant of runs is a case analysis over it.

  `recoverIn_induction` takes the calls of `recover` to one queue after the other apart.
-/
import Almanac.Proofs.Broker.Run

namespace Almanac.Broker

variable {β : Type}

/-- Whether a call settles a tag for good: an acknowledgement, or a rejection without return. -/
def Call.Discards (c : Call β) (tag : Nat) (multiple : Bool) : Prop :=
  c = .ack tag multiple ∨ c = .nack tag multiple false

namespace State

variable {s : State β}

/-- What each return of one queue keeps is kept by the return of all. -/
theorem recoverIn_induction {P : State β → Prop}
    (step : ∀ (s : State β) (name : String) (q : Queue β), s.queue? name = some q → P s →
      P (s.deliver name (q.requeueIf fun _ _ => true)))
    (order : List String) (h : P s) : P (s.recoverIn order) := by
  unfold recoverIn
  split
  · next hconnected =>
    -- The returns go on from states of which nothing but `P` is known.
    clear hconnected
    induction order generalizing s with
    | nil => exact h
    | cons name order ih =>
        rw [List.foldl_cons]
        apply ih
        rw [recoverQueue_eq]
        cases hq : s.queue? name with
        | none => exact h
        | some q => exact step s name q hq h
  · exact h

/-- The broker refuses a call, or has nothing to do for it. -/
def Idle (s : State β) : Call β → Prop
  | .start => False
  | .stop => s.connected = false
  | .declare settings => s.connected = false ∨ (s.queue? settings.name).isSome = true
  | .publish settings _ => s.routes settings = false
  | .consume _ => False
  | .ack tag _ => s.connected = false ∨ s.holder? tag = none
  | .nack tag _ _ => s.connected = false ∨ s.holder? tag = none
  | .recover _ => s.connected = false
  | .receive c => ∀ d, (s.receive c).1 ≠ .delivery d
  | .close c => s.streams[c.stream]? = none
  | .cancel name tag =>
    ∀ q, s.queue? name = some q → (q.without tag).consumers.length = q.consumers.length

/-- What a call can do to the broker. -/
inductive Effect (s : State β) : Call β → State β → Prop
  | idle {c : Call β} (h : s.Idle c) : Effect s c s
  | started : Effect s .start { s with connected := true }
  | stopped (hconnected : s.connected = true) :
      Effect s .stop
        { s with
          connected := false
          queues := (s.queues.map fun e => (e.1, e.2.abandoned)).filter
            fun e => e.2.settings.durable }
  | declared {settings : QueueSettings} (hconnected : s.connected = true)
      (hnone : s.queue? settings.name = none) :
      Effect s (.declare settings) (s.setQueue settings.name { settings })
  | published {settings : PublishSettings} {body : β} {q : Queue β}
      (hconnected : s.connected = true) (hexchange : settings.exchange.isEmpty = true)
      (hq : s.queue? settings.routingKey = some q) :
      Effect s (.publish settings body)
        (s.deliver settings.routingKey { q with ready := q.ready ++ [message settings body] })
  /-- A refused consumer may have been counted. -/
  | refused {settings : ConsumeSettings} {e : Error} {n : Nat}
      (hanswer : s.consume settings = (.error e, { s with asked := n })) :
      Effect s (.consume settings) { s with asked := n }
  | consumed {settings : ConsumeSettings} {q : Queue β} (hconnected : s.connected = true)
      (hq : s.queue? settings.queue = some q) (hadmits : q.admits settings = true) :
      Effect s (.consume settings)
        (s.withStream.deliver settings.queue
          { q with consumers := q.consumers ++ [s.registration q settings] })
  | discarded {c : Call β} {tag : Nat} {multiple : Bool} {name : String} {q : Queue β}
      {u : Unacked β} (hcall : c.Discards tag multiple) (hconnected : s.connected = true)
      (hq : s.queue? name = some q) (hu : q.unacked.lookup tag = some u) :
      Effect s c (s.setQueue name (q.discardIf (covers tag multiple u.owner)))
  | returned {tag : Nat} {multiple : Bool} {name : String} {q : Queue β} {u : Unacked β}
      (hconnected : s.connected = true) (hq : s.queue? name = some q)
      (hu : q.unacked.lookup tag = some u) :
      Effect s (.nack tag multiple true)
        (s.deliver name (q.requeueIf (covers tag multiple u.owner)))
  | recovered {order : List String} (hconnected : s.connected = true) :
      Effect s (.recover order) (s.recoverIn order)
  | received {c : Consumer} {stream : Stream β} {d : Delivery β} {waiting : List (Delivery β)}
      (hstream : s.streams[c.stream]? = some stream) (hwaiting : stream.waiting = d :: waiting)
      (hanswer : (s.receive c).1 = .delivery d) :
      Effect s (.receive c) { s with streams := s.streams.set c.stream { stream with waiting } }
  | closed {c : Consumer} {stream : Stream β} (hstream : s.streams[c.stream]? = some stream) :
      Effect s (.close c)
        { s with streams := s.streams.set c.stream { stream with closed := true } }
  /-- A queue that removes itself goes with its last consumer. -/
  | removed {name tag : String} {q : Queue β} (hq : s.queue? name = some q)
      (hlast : (q.without tag).consumers = []) (hauto : q.settings.autoDelete = true) :
      Effect s (.cancel name tag) { s with queues := s.queues.erase name }
  | cancelled {name tag : String} {q : Queue β} (hq : s.queue? name = some q) :
      Effect s (.cancel name tag) (s.deliver name (q.without tag))

/-- A settlement that finds a holder discards there or returns there. -/
theorem effect_settle (hnames : s.queues.keys.Nodup) (how : Settlement) {c : Call β} {tag : Nat}
    {multiple : Bool} (hidle : s.connected = false ∨ s.holder? tag = none → s.Idle c)
    (hcall : match how with
      | .discard => c.Discards tag multiple
      | .requeue => c = .nack tag multiple true) :
    s.Effect c (s.settle tag multiple how).2 := by
  rcases settle_cases s tag multiple how with
    ⟨heq, hnone⟩ | ⟨name, q, owner, hconnected, hholder, heq⟩
  · rw [heq]
    exact .idle (hidle hnone)
  · obtain ⟨hq, u, hu, rfl⟩ := holder?_eq_some hnames hholder
    rw [heq]
    cases how with
    | discard => exact .discarded hcall hconnected hq hu
    | requeue =>
        obtain rfl : c = .nack tag multiple true := hcall
        exact .returned hconnected hq hu

/-- Every call has one of the effects. -/
theorem effect_perform (hnames : s.queues.keys.Nodup) (c : Call β) : s.Effect c (s.perform c) := by
  cases c with
  | start => exact .started
  | stop =>
      by_cases hconnected : s.connected = true
      · have heq := Effect.stopped hconnected
        rw [perform, stop, if_pos hconnected]
        exact heq
      · rw [perform, stop, if_neg hconnected]
        exact .idle (by simpa [Idle] using hconnected)
  | declare settings =>
      rw [perform, declare]
      split
      · next hclosed => exact .idle (Or.inl (by simpa using hclosed))
      · next hopen =>
        cases hq : s.queue? settings.name with
        | none => exact .declared (by simpa using hopen) hq
        | some q => exact .idle (Or.inr (by rw [hq]; rfl))
  | publish settings body =>
      -- A message that reaches no queue is dropped or refused, which changes nothing.
      by_cases hroutes : s.routes settings = true
      · obtain ⟨hconnected, hexchange, q, hq⟩ := routes_iff.mp hroutes
        rw [perform, publish_routed body hconnected hexchange hq]
        exact .published hconnected hexchange hq
      · have hidle : s.routes settings = false := by simpa using hroutes
        rw [perform, publish_unrouted body hidle]
        exact .idle hidle
  | consume settings =>
      rw [perform]
      rcases consume_cases s settings with ⟨e, n, heq⟩ | ⟨q, hconnected, hq, hadmits⟩
      · rw [heq]
        exact .refused heq
      · rw [consume_admitted hconnected hq hadmits]
        exact .consumed hconnected hq hadmits
  | ack tag multiple => exact effect_settle hnames .discard id (Or.inl rfl)
  | nack tag multiple requeue =>
      cases requeue with
      | false => exact effect_settle hnames .discard id (Or.inr rfl)
      | true => exact effect_settle hnames .requeue id rfl
  | recover order =>
      by_cases hconnected : s.connected = true
      · exact .recovered hconnected
      · rw [perform, recoverIn, if_neg hconnected]
        exact .idle (by simpa [Idle] using hconnected)
  | receive consumer =>
      rw [perform]
      rcases receive_cases s consumer with ⟨heq, hnone⟩ | ⟨stream, d, waiting, hstream, hwaiting, heq⟩
      · rw [heq]
        exact .idle hnone
      · have hanswer : (s.receive consumer).1 = .delivery d := by rw [heq]
        rw [heq]
        exact .received hstream hwaiting hanswer
  | close consumer =>
      rw [perform, closeStream]
      cases hstream : s.streams[consumer.stream]? with
      | none => exact .idle hstream
      | some stream => exact .closed hstream
  | cancel name tag =>
      -- The queue stays as it is, goes, or is delivered without the consumer.
      rw [perform, cancel_eq]
      cases hq : s.queue? name with
      | none => exact .idle fun q hq' => by rw [hq] at hq'; simp at hq'
      | some q =>
          dsimp only
          split
          · next hsame =>
            refine .idle fun q' hq' => ?_
            obtain rfl := Option.some.inj (hq.symm.trans hq')
            exact eq_of_beq hsame
          · split
            · next hgone =>
              rw [Bool.and_eq_true, List.isEmpty_iff] at hgone
              exact .removed hq hgone.1 hgone.2
            · exact .cancelled hq

end State

end Almanac.Broker
