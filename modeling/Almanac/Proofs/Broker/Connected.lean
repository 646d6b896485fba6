/-
  Almanac.Proofs.Broker.Connected

  Whether a broker is connected. Only a start and a stop change that (`connected_perform`), and
  a broker that is connected never answers that it is not. `Client.strict` is a broker that
  crashes in place of such an answer; whoever uses it while it is connected does not notice.
-/
import Almanac.Broker.Client
import Almanac.Proofs.Action
import Almanac.Proofs.Broker.Run

namespace Almanac.Broker

variable {β : Type}

namespace State

variable {s : State β}

theorem connected_recoverQueue (s : State β) (name : String) :
    (s.recoverQueue name).connected = s.connected := by
  rw [recoverQueue_eq]
  cases s.queue? name <;> rfl

/-- A start connects the broker, a stop disconnects it, and no other call does either. -/
theorem connected_perform (s : State β) (call : Call β) :
    (s.perform call).connected =
      match call with
      | .start => true
      | .stop => false
      | _ => s.connected := by
  cases call with
  | start => rfl
  | stop =>
      cases hconnected : s.connected
      · rw [perform, stop, if_neg (by simp [hconnected]), hconnected]
      · rw [perform, stop, if_pos hconnected]
  | declare settings =>
      simp only [perform, declare]
      split
      · rfl
      · split <;> rfl
  | publish settings body =>
      by_cases hroutes : s.routes settings = true
      · obtain ⟨hconnected, hexchange, q, hq⟩ := routes_iff.mp hroutes
        rw [perform, publish_routed body hconnected hexchange hq, deliver_connected]
      · rw [perform, publish_unrouted body (by simpa using hroutes)]
  | consume settings =>
      rcases consume_cases s settings with ⟨e, n, heq⟩ | ⟨q, hconnected, hq, hadmits⟩
      · rw [perform, heq]
      · rw [perform, consume_admitted hconnected hq hadmits]
        rfl
  | ack tag multiple =>
      rcases settle_cases s tag multiple .discard with ⟨heq, -⟩ | ⟨name, q, owner, -, -, heq⟩
      · rw [perform, ack, heq]
      · rw [perform, ack, heq]
        rfl
  | nack tag multiple requeue =>
      rcases settle_cases s tag multiple (if requeue then .requeue else .discard) with
        ⟨heq, -⟩ | ⟨name, q, owner, -, -, heq⟩
      · rw [perform, nack, heq]
      · rw [perform, nack, heq]
        cases requeue <;> rfl
  | recover order =>
      rw [perform, recoverIn]
      split
      · induction order generalizing s with
        | nil => rfl
        | cons name order ih =>
            rw [List.foldl_cons]
            refine (ih _ ?_).trans (connected_recoverQueue s name)
            rwa [connected_recoverQueue]
      · rfl
  | receive c =>
      rcases receive_cases s c with ⟨heq, -⟩ | ⟨stream, d, waiting, -, -, heq⟩
      · rw [perform, heq]
      · rw [perform, heq]
  | close c =>
      rw [perform, closeStream]
      split <;> rfl
  | cancel name tag =>
      rcases cancel_cases s name tag with heq | ⟨q, -, ⟨-, -, heq⟩ | heq⟩ <;> rw [perform, heq]
      rfl

theorem connected_drop (s : State β) (c : Consumer) : (s.drop c).connected = s.connected := by
  rw [drop_eq, connected_perform, connected_perform]

/-! ## Answers -/

theorem publish_answer (hconnected : s.connected = true) (settings : PublishSettings) (body : β) :
    (s.publish settings body).1 ≠ .error .notConnected := by
  rw [publish, if_neg (by simp [hconnected])]
  dsimp only
  split
  · simp
  · split <;> simp

theorem consume_answer (hconnected : s.connected = true) (settings : ConsumeSettings) :
    (s.consume settings).1 ≠ .error .notConnected := by
  rw [consume_eq, if_neg (by simp [hconnected])]
  split
  · simp
  · split <;> simp

theorem ack_answer (hconnected : s.connected = true) (tag : Nat) (multiple : Bool) :
    (s.ack tag multiple).1 ≠ .error .notConnected := by
  rw [ack, settle, if_neg (by simp [hconnected])]
  split <;> simp

end State

/-! ## A strict broker -/

variable {σ : Type}

/-- The action, except that it crashes in place of answering that the broker is not connected. -/
def insist {α : Type} (act : Action σ (Except Error α)) : Action σ (Except Error α) := do
  match ← act with
  | .error .notConnected => Action.crash Error.notConnected.text
  | answer => return answer

/-- The broker, except that it crashes in place of answering that it is not connected. -/
def Client.strict (b : Client σ) : Client σ :=
  { b with
    consume := fun settings => insist (b.consume settings)
    publish := fun settings body => insist (b.publish settings body)
    ack := fun tag multiple => insist (b.ack tag multiple) }

/-- Whether an action never answers that the broker is not connected. -/
def Serves {α : Type} (act : ClientAction σ α) (w : σ) : Prop :=
  (act.perform w).1 ≠ .ok (.error .notConnected)

/-- Insisting is not noticed where the broker serves. -/
theorem perform_insist {α : Type} {act : ClientAction σ α} {w : σ} (h : Serves act w) :
    (insist act).perform w = act.perform w := by
  rw [insist, Action.perform_bind]
  rcases hperform : act.perform w with ⟨answer, w'⟩
  have hanswer : answer ≠ .ok (.error .notConnected) := by
    rw [Serves, hperform] at h
    exact h
  match answer, hanswer with
  | .error _, _ => rfl
  | .ok (.ok _), _ => rfl
  | .ok (.error .notConnected), hanswer => exact (hanswer rfl).elim
  | .ok (.error (.queueNotFound _)), _ => rfl
  | .ok (.error (.exclusiveQueue _)), _ => rfl
  | .ok (.error (.unroutable _ _)), _ => rfl
  | .ok (.error (.unknownDeliveryTag _)), _ => rfl
  | .ok (.error (.closed _)), _ => rfl

end Almanac.Broker
