/-
  Almanac.Proofs.Broker.Refused

  Requests that fail. `Refusal` lists the exits at which the broker turns a request away, and with
  which error: six requests need a connection, and four of them can fail at a connected broker.
  `failure?` is what the requests themselves answer, and the two are the same
  (`failure?_eq_some_iff`).

  Whichever exit a request takes, it takes it before it has touched anything, but for the count of
  the consumers that were asked for. The same holds for a message that nobody has to get.
-/
import Almanac.Proofs.Broker.DeliveryTags
import Almanac.Proofs.Broker.VisitOrder

namespace Almanac.Broker

variable {β : Type}

/-- A request to the broker, as opposed to its start and stop and to what consumers do. -/
def Call.IsRequest : Call β → Prop
  | .declare _ | .publish _ _ | .consume _ | .ack _ _ | .nack _ _ _ | .recover _ => True
  | _ => False

/-- The error of an answer. -/
def failed? {α : Type} : Except Error α → Option Error
  | .error e => some e
  | .ok _ => none

namespace State

variable {s : State β} {c : Call β} {e : Error}

/-- The error with which a call is answered. -/
def failure? (s : State β) : Call β → Option Error
  | .declare settings => failed? (s.declare settings).1
  | .publish settings body => failed? (s.publish settings body).1
  | .consume settings => failed? (s.consume settings).1
  | .ack tag multiple => failed? (s.ack tag multiple).1
  | .nack tag multiple requeue => failed? (s.nack tag multiple requeue).1
  | .recover order => failed? (s.recoverVisiting order).1
  | _ => none

/-- Why a call is turned away. -/
inductive Refusal (s : State β) : Call β → Error → Prop
  | closed {c : Call β} (hrequest : c.IsRequest) (hclosed : s.connected = false) :
      Refusal s c .notConnected
  | absent {settings : ConsumeSettings} (hconnected : s.connected = true)
      (hnone : s.queue? settings.queue = none) :
      Refusal s (.consume settings) (.queueNotFound settings.queue)
  | locked {settings : ConsumeSettings} {q : Queue β} (hconnected : s.connected = true)
      (hq : s.queue? settings.queue = some q) (hlocked : q.admits settings = false) :
      Refusal s (.consume settings) (.exclusiveQueue settings.queue)
  | unroutable {settings : PublishSettings} {body : β} (hconnected : s.connected = true)
      (hroutes : s.routes settings = false) (hmandatory : settings.mandatory = true) :
      Refusal s (.publish settings body) (.unroutable settings.exchange settings.routingKey)
  | unknown {c : Call β} {tag : Nat} (hconnected : s.connected = true)
      (hnone : s.holder? tag = none)
      (hcall : (∃ multiple, c = .ack tag multiple) ∨
        ∃ multiple requeue, c = .nack tag multiple requeue) :
      Refusal s c (.unknownDeliveryTag tag)

/-! ## The answers -/

/-- A message that reaches no queue is refused if somebody has to get it, and dropped otherwise. -/
theorem publish_of_not_routes {settings : PublishSettings} (hconnected : s.connected = true)
    (hroutes : s.routes settings = false) (body : β) :
    s.publish settings body =
      (if settings.mandatory then .error (.unroutable settings.exchange settings.routingKey)
        else .ok (), s) := by
  have htarget : (if settings.exchange.isEmpty then s.queue? settings.routingKey else none) =
      none := by
    simp only [routes, hconnected, Bool.true_and, Bool.and_eq_false_iff, Option.isSome_eq_false_iff,
      Option.isNone_iff_eq_none] at hroutes
    rcases hroutes with hexchange | hnone
    · simp [hexchange]
    · simp [hnone]
  simp only [publish, hconnected, htarget, Bool.not_true, Bool.false_eq_true, if_false]
  cases settings.mandatory <;> rfl

/-- A message that reaches a queue is taken. -/
theorem publish_of_routes {settings : PublishSettings} (hroutes : s.routes settings = true)
    (body : β) : (s.publish settings body).1 = .ok () := by
  obtain ⟨hconnected, hexchange, q, hq⟩ := routes_iff.mp hroutes
  simp [publish, hconnected, hexchange, hq]

theorem failed?_settle (s : State β) (tag : Nat) (multiple : Bool) (how : Settlement) :
    failed? (s.settle tag multiple how).1 =
      if s.connected then if s.holder? tag = none then some (.unknownDeliveryTag tag) else none
      else some .notConnected := by
  unfold settle
  cases s.connected
  · rfl
  · cases hholder : s.holder? tag with
    | none => simp [failed?]
    | some found => cases how <;> simp [failed?]

/-- Nothing but a request fails. -/
theorem isRequest_of_failure? (h : s.failure? c = some e) : c.IsRequest := by
  cases c with
  | declare | publish | consume | ack | nack | recover => trivial
  | start | stop | receive | close | cancel => simp [failure?] at h

/-- Without a connection every request fails in the same way. -/
theorem failure?_of_closed (hclosed : s.connected = false) (hrequest : c.IsRequest) :
    s.failure? c = some .notConnected := by
  cases c with
  | declare settings => simp [failure?, declare, hclosed, failed?]
  | publish settings body => simp [failure?, publish, hclosed, failed?]
  | consume settings => simp [failure?, consume, hclosed, failed?]
  | ack tag multiple => simp [failure?, ack, failed?_settle, hclosed]
  | nack tag multiple requeue => simp [failure?, nack, failed?_settle, hclosed]
  | recover order => simp [failure?, recoverVisiting, hclosed, failed?]
  | start | stop | receive | close | cancel => exact hrequest.elim

/-- With a connection, four requests can fail, for a reason of their own. -/
theorem failure?_of_connected (hconnected : s.connected = true) :
    s.failure? c = some e ↔ s.Refusal c e := by
  have hopen : ¬s.connected = false := by simp [hconnected]
  constructor
  · intro h
    cases c with
    | declare settings =>
        simp only [failure?, declare, hconnected, Bool.not_true, Bool.false_eq_true, if_false] at h
        split at h <;> simp [failed?] at h
    | publish settings body =>
        by_cases hroutes : s.routes settings = true
        · simp [failure?, publish_of_routes hroutes, failed?] at h
        · have hidle : s.routes settings = false := by simpa using hroutes
          rw [failure?, publish_of_not_routes hconnected hidle] at h
          cases hmandatory : settings.mandatory
          · simp [hmandatory, failed?] at h
          · simp only [hmandatory, if_true, failed?, Option.some.injEq] at h
            exact h ▸ .unroutable hconnected hidle hmandatory
    | consume settings =>
        rw [failure?, consume_eq, if_neg (by simp [hconnected])] at h
        cases hq : s.queue? settings.queue with
        | none =>
            simp only [hq, failed?, Option.some.injEq] at h
            exact h ▸ .absent hconnected hq
        | some q =>
            cases hadmits : q.admits settings
            · simp only [hq, hadmits, Bool.not_false, if_true, failed?, Option.some.injEq] at h
              exact h ▸ .locked hconnected hq hadmits
            · simp [hq, hadmits, failed?] at h
    | ack tag multiple =>
        simp only [failure?, ack, failed?_settle, hconnected, if_true] at h
        split at h
        · next hnone =>
          obtain rfl := Option.some.inj h
          exact .unknown hconnected hnone (Or.inl ⟨multiple, rfl⟩)
        · simp at h
    | nack tag multiple requeue =>
        simp only [failure?, nack, failed?_settle, hconnected, if_true] at h
        split at h
        · next hnone =>
          obtain rfl := Option.some.inj h
          exact .unknown hconnected hnone (Or.inr ⟨multiple, requeue, rfl⟩)
        · simp at h
    | recover order => simp [failure?, recoverVisiting, hconnected, failed?] at h
    | start | stop | receive | close | cancel => exact (isRequest_of_failure? h).elim
  · intro h
    cases h with
    | closed hrequest hclosed => exact absurd hclosed hopen
    | absent _ hnone => simp [failure?, consume_eq, hconnected, hnone, failed?]
    | locked _ hq hlocked => simp [failure?, consume_eq, hconnected, hq, hlocked, failed?]
    | unroutable _ hroutes hmandatory =>
        simp [failure?, publish_of_not_routes hconnected hroutes, hmandatory, failed?]
    | unknown _ hnone hcall =>
        rcases hcall with ⟨multiple, rfl⟩ | ⟨multiple, requeue, rfl⟩ <;>
          simp [failure?, ack, nack, failed?_settle, hconnected, hnone]

/-- The requests answer with an error exactly at the exits. -/
theorem failure?_eq_some_iff : s.failure? c = some e ↔ s.Refusal c e := by
  cases hconnected : s.connected
  · constructor
    · intro h
      have hrequest := isRequest_of_failure? h
      obtain rfl := Option.some.inj ((failure?_of_closed hconnected hrequest).symm.trans h)
      exact .closed hrequest hconnected
    · intro h
      cases h with
      | closed hrequest _ => exact failure?_of_closed hconnected hrequest
      | absent hopen | locked hopen | unroutable hopen | unknown hopen =>
          exact absurd (hopen.symm.trans hconnected) (by simp)
  · exact failure?_of_connected hconnected

/-! ## The states -/

/-- A request without a connection has no effect. -/
theorem perform_of_closed (hclosed : s.connected = false) (hrequest : c.IsRequest) :
    s.perform c = s := by
  cases c with
  | declare settings => simp [perform, declare, hclosed]
  | publish settings body => simp [perform, publish, hclosed]
  | consume settings => simp [perform, consume, hclosed]
  | ack tag multiple =>
      exact congrArg Prod.snd (settle_refused (Or.inl hclosed) multiple .discard)
  | nack tag multiple requeue => exact congrArg Prod.snd (settle_refused (Or.inl hclosed) multiple _)
  | recover order => simp [perform, recoverIn, hclosed]
  | start | stop | receive | close | cancel => exact hrequest.elim

/-- What is turned away leaves no trace, but for the count of consumers that were asked for. -/
theorem Refusal.perform_eq (h : s.Refusal c e) :
    s.perform c = s ∨
      (∃ settings, c = .consume settings) ∧ s.perform c = { s with asked := s.asked + 1 } := by
  cases h with
  | closed hrequest hclosed => exact Or.inl (perform_of_closed hclosed hrequest)
  | @absent settings hconnected hnone =>
      exact Or.inr ⟨⟨settings, rfl⟩, by simp [perform, consume_eq, hconnected, hnone]⟩
  | @locked settings q hconnected hq hlocked =>
      exact Or.inr ⟨⟨settings, rfl⟩, by simp [perform, consume_eq, hconnected, hq, hlocked]⟩
  | @unroutable settings body hconnected hroutes hmandatory =>
      exact Or.inl (publish_unrouted body hroutes)
  | unknown hconnected hnone hcall =>
      rcases hcall with ⟨multiple, rfl⟩ | ⟨multiple, requeue, rfl⟩
      · exact Or.inl (congrArg Prod.snd (settle_refused (Or.inr hnone) multiple .discard))
      · exact Or.inl (congrArg Prod.snd (settle_refused (Or.inr hnone) multiple _))

end State

open State

/-- A request that fails changes nothing, in whatever state the broker is. The error says why: it is
    one of the five of `Refusal`, and comes up at those exits only. The connection, the latest
    delivery tag, the queues with all that they hold, and the streams are what they were; only a
    request to consume may have been counted. A message that reaches no queue and does not have to is
    dropped without a trace. -/
theorem failed_requests_change_nothing (s : State β) :
    (∀ (c : Call β) (e : Error), s.failure? c = some e →
      s.Refusal c e ∧ ∃ asked, s.perform c = { s with asked } ∧
        (asked = s.asked ∨ asked = s.asked + 1 ∧ ∃ settings, c = .consume settings)) ∧
    ∀ (settings : PublishSettings) (body : β), s.connected = true → s.routes settings = false →
      settings.mandatory = false → s.publish settings body = (.ok (), s) := by
  refine ⟨?_, ?_⟩
  · intro c e h
    have hrefusal := failure?_eq_some_iff.mp h
    refine ⟨hrefusal, ?_⟩
    rcases hrefusal.perform_eq with hsame | ⟨hconsume, hcounted⟩
    · exact ⟨s.asked, hsame, Or.inl rfl⟩
    · exact ⟨s.asked + 1, hcounted, Or.inr ⟨rfl, hconsume⟩⟩
  · intro settings body hconnected hroutes hmandatory
    rw [publish_of_not_routes hconnected hroutes, hmandatory]
    rfl

/-- A queue with an exclusive consumer that holds a delivery. -/
def lockedQueue : State String where
  connected := true
  lastTag := 1
  asked := 1
  queues := [("q",
    { settings := { name := "q" }
      consumers := [⟨"a", false, true, 0⟩]
      cursor := 1
      unacked := [(1, ⟨"a", message { routingKey := "q" } "m"⟩)] })]
  streams := [{ waiting := [{ message { routingKey := "q" } "m" with tag := 1 }] }]

/-- Requests for which it is in the wrong state, with the errors that they get. -/
def misplaced : List (Call String × Error) :=
  [(.consume { queue := "q" }, .exclusiveQueue "q"), (.consume { queue := "r" }, .queueNotFound "r"),
    (.publish { routingKey := "r", mandatory := true } "x", .unroutable "" "r"),
    (.ack 2 true, .unknownDeliveryTag 2), (.nack 2 false true, .unknownDeliveryTag 2)]

/-- A broker comes into that state, and the requests leave it there. So does one that comes after a
    stop. A message that goes nowhere is dropped. -/
theorem lockedQueue_unchanged :
    run [.start, .declare { name := "q" },
      .consume { queue := "q", consumer := "a", exclusive := true },
      .publish { routingKey := "q" } "m"] = lockedQueue ∧
    (∀ x ∈ misplaced, lockedQueue.failure? x.1 = some x.2 ∧
      ∃ asked, lockedQueue.perform x.1 = { lockedQueue with asked }) ∧
    lockedQueue.publish { routingKey := "r" } "x" = (.ok (), lockedQueue) ∧
    lockedQueue.stop.failure? (.recover ["q"]) = some .notConnected ∧
    ∃ asked, lockedQueue.stop.perform (.recover ["q"]) = { lockedQueue.stop with asked } := by
  have hrun : run [.start, .declare { name := "q" },
      .consume { queue := "q", consumer := "a", exclusive := true },
      .publish { routingKey := "q" } "m"] = lockedQueue := by cbv
  have hfail : misplaced.map (fun x => lockedQueue.failure? x.1) = misplaced.map (some ·.2) := by
    decide
  have hclosed : lockedQueue.stop.failure? (.recover ["q"]) = some .notConnected := by decide
  obtain ⟨hunchanged, hdropped⟩ := failed_requests_change_nothing lockedQueue
  obtain ⟨hstopped, -⟩ := failed_requests_change_nothing lockedQueue.stop
  have hnothing := hdropped { routingKey := "r" } "x" rfl (by decide) rfl
  obtain ⟨-, asked, hafter, -⟩ := hstopped (.recover ["q"]) .notConnected hclosed
  refine ⟨hrun, ?_, hnothing, hclosed, asked, hafter⟩
  intro x hx
  have hx' : lockedQueue.failure? x.1 = some x.2 := List.map_inj_left.mp hfail x hx
  obtain ⟨-, asked', heq, -⟩ := hunchanged x.1 x.2 hx'
  exact ⟨hx', asked', heq⟩

end Almanac.Broker
