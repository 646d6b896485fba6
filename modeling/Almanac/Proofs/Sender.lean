/-
  Almanac.Proofs.Sender

  What one step of a sender can do to the world: no more than the calls it makes
  (`keeps_step`). A sender that is served by its broker all the time does not notice whether the
  broker is strict (`step_strict`).

  What a sender has counted is determined by the bodies that it has read and the answers that it got
  to its acknowledgements (`Tally.account`, and `Tally.after` when all of them succeed).
-/
import Almanac.Proofs.Broker.Connected
import Almanac.Proofs.Storage.Keyed
import Almanac.Sender

namespace Almanac

/-- Whether a body holds no notification. -/
def Notification.malformed (body : Bytes) : Bool := !(decode body).isOk

namespace Sender

open Broker (Consumer Delivery Serves)
open Storage (Keeps)

namespace Tally

/-- A delivery is counted, whatever it holds. -/
@[simp] theorem received_read (t : Tally) (body : Bytes) :
    (t.read body).received = t.received + 1 := by
  unfold read
  dsimp only
  split <;> rfl

@[simp] theorem received_settled (t : Tally) (answer : Except Broker.Error Unit) :
    (t.settled answer).received = t.received := by
  cases answer <;> rfl

/-- The tally of a sender that has counted some bodies, and acknowledged a number of them. -/
def after (seen : List Bytes) (acked : Nat) : Tally where
  received := seen.length
  acked
  malformed := seen.countP Notification.malformed
  lastMessage := (seen.filterMap fun body => (Notification.decode body).toOption).getLast?

theorem read_after (seen : List Bytes) (acked : Nat) (body : Bytes) :
    (after seen acked).read body = after (seen ++ [body]) acked := by
  unfold read after
  dsimp only
  cases hdecode : Notification.decode body with
  | ok n =>
      have hgood : Notification.malformed body = false := by
        rw [Notification.malformed, hdecode]
        rfl
      simp [hdecode, hgood, Except.toOption, List.countP_append, List.filterMap_append]
  | error e =>
      have hbad : Notification.malformed body = true := by
        rw [Notification.malformed, hdecode]
        rfl
      simp [hdecode, hbad, Except.toOption, List.countP_append, List.filterMap_append]

theorem settled_after (seen : List Bytes) (acked : Nat) :
    (after seen acked).settled (.ok ()) = after seen (acked + 1) := rfl

/-- The tally of a sender that has counted some bodies, and got some answers to its
    acknowledgements. -/
def account (seen : List Bytes) (answers : List (Except Broker.Error Unit)) : Tally :=
  { after seen (answers.countP (·.isOk)) with ackFailures := answers.countP fun a => !a.isOk }

/-- Reading does not look at failures. -/
theorem read_with_failures (t : Tally) (failures : Nat) (body : Bytes) :
    ({ t with ackFailures := failures } : Tally).read body =
      { t.read body with ackFailures := failures } := by
  unfold read
  dsimp only
  split <;> rfl

theorem read_account (seen : List Bytes) (answers : List (Except Broker.Error Unit))
    (body : Bytes) : (account seen answers).read body = account (seen ++ [body]) answers := by
  rw [account, read_with_failures, read_after, account]

theorem settled_account (seen : List Bytes) (answers : List (Except Broker.Error Unit))
    (answer : Except Broker.Error Unit) :
    (account seen answers).settled answer = account seen (answers ++ [answer]) := by
  cases answer with
  | ok _ => simp [account, settled, after, List.countP_append, Except.isOk, Except.toBool]
  | error e => simp [account, settled, after, List.countP_append, Except.isOk, Except.toBool]

end Tally

variable {σ : Type} (s : Sender σ) {good : σ → Prop}

/-- A step keeps what its calls keep, also when it stalls. -/
theorem keeps_step (hconsume : Keeps good (s.broker.consume s.settings))
    (hreceive : ∀ c, Keeps good (s.broker.receive c))
    (hack : ∀ tag, Keeps good (s.broker.ack tag false))
    (hdrop : ∀ c, Keeps good (s.broker.drop c)) (hstop : Keeps good s.stopRequested) (t : Tally)
    (stage : Stage) : Keeps good (s.step t stage) := by
  have hleave : ∀ c outcome, Keeps good (s.leave t c outcome) := fun c _ =>
    (hdrop c).bind fun _ => .answer _ _
  match stage with
  | .registering =>
      refine hconsume.bind fun r => ?_
      cases r <;> exact .answer _ _
  | .consuming c =>
      refine hstop.bind fun stop => ?_
      split
      · exact hleave c _
      · refine (hreceive c).bind fun found => ?_
        cases found with
        | delivery d =>
            refine .bind ?_ fun _ => .answer _ _
            unfold handle
            split
            · exact .answer _ _
            · exact (hack d.tag).bind fun _ => .answer _ _
        | empty => exact .answer _ _
        | ended =>
            refine hstop.bind fun stop => ?_
            split <;> exact hleave c _
  | .ended _ => exact .answer _ _

/-- The sender over a broker that crashes in place of answering that it is not connected. -/
def strict : Sender σ := { s with broker := s.broker.strict }

theorem handle_strict {w : σ} {d : Delivery Bytes} (h : Serves (s.broker.ack d.tag false) w)
    (t : Tally) : (s.strict.handle t d).perform w = (s.handle t d).perform w := by
  have hsettings : s.strict.settings = s.settings := rfl
  simp only [handle, hsettings]
  cases s.settings.autoAck with
  | true => rfl
  | false => exact Action.perform_bind_congr (Broker.perform_insist h) fun _ _ _ => rfl

/-- A step does not notice that its broker is strict if the broker serves it in good worlds, and
    looking for a delivery leaves them good. -/
theorem step_strict (hconsume : ∀ w, good w → Serves (s.broker.consume s.settings) w)
    (hack : ∀ tag w, good w → Serves (s.broker.ack tag false) w)
    (hreceive : ∀ c, Keeps good (s.broker.receive c)) (hstop : Keeps good s.stopRequested)
    {w : σ} (hw : good w) (t : Tally) (stage : Stage) :
    (s.strict.step t stage).perform w = (s.step t stage).perform w := by
  match stage with
  | .registering =>
      exact Action.perform_bind_congr (Broker.perform_insist (hconsume w hw)) fun _ _ _ => rfl
  | .consuming c =>
      refine Action.perform_bind_congr rfl fun stop w₁ hstopped => ?_
      have hw₁ : good w₁ := by
        have hkept := hstop w hw
        rwa [hstopped] at hkept
      cases stop with
      | true => rfl
      | false =>
          refine Action.perform_bind_congr rfl fun found w₂ hreceived => ?_
          cases found with
          | empty => rfl
          | ended => rfl
          | delivery d =>
              have hw₂ : good w₂ := by
                have hkept := hreceive c w₁ hw₁
                rwa [hreceived] at hkept
              exact Action.perform_bind_congr (s.handle_strict (hack d.tag w₂ hw₂) t)
                fun _ _ _ => rfl
  | .ended _ => rfl

end Sender

end Almanac
