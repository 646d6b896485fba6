/-
  Almanac.Proofs.Sender.Accounts

  The books of a sender. What it has counted is what it took, but for a delivery that it has not read
  yet, and what it has acknowledged is what it has counted, but for a delivery that it is about to
  acknowledge (`Accounts`). It has nothing in its hand when it leaves the loop, so by then everything
  that it took is done (`Accounted`).
-/
import Almanac.Proofs.Sender
import Almanac.Proofs.Sender.Loop

namespace Almanac.Sender

open Broker (Client ConsumeSettings Consumer Delivery)

variable {σ : Type}

namespace Place

/-- What it has taken and not read. -/
def unread : Place → List (Delivery Bytes)
  | received d => [d]
  | _ => []

/-- What it has counted and is going to acknowledge. -/
def unsettled : Place → List (Delivery Bytes)
  | counted d => [d]
  | _ => []

/-- It has nothing in its hand. -/
def Free (place : Place) : Prop := place.unread = [] ∧ place.unsettled = []

end Place

namespace Post

variable {settings : ConsumeSettings} {client : Client σ} {c : Consumer} {n : Nat} {p q : Post σ}

/-- A sender that has counted some deliveries has its books in order. -/
structure Accounts (settings : ConsumeSettings) (p : Post σ) (seen : List (Delivery Bytes)) :
    Prop where
  taken : p.taken = seen ++ p.place.unread
  tally : p.tally = .account (seen.map (·.body)) (p.attempts.map (·.2))
  manual : settings.autoAck = false → seen = p.attempts.map (·.1) ++ p.place.unsettled
  auto : settings.autoAck = true → p.attempts = [] ∧ p.place.unsettled = []

namespace Accounts

variable {seen : List (Delivery Bytes)}

theorem start (settings : ConsumeSettings) (desk : Desk σ) :
    Accounts settings ({ desk } : Post σ) [] where
  taken := rfl
  tally := rfl
  manual _ := rfl
  auto _ := ⟨rfl, rfl⟩

/-- Moves between places at which the sender has nothing in its hand do not touch the books. -/
theorem elsewhere (h : p.Accounts settings seen) {here : Place} (hplace : p.place = here)
    (hhere : here.Free) (htaken : q.taken = p.taken) (htally : q.tally = p.tally)
    (hattempts : q.attempts = p.attempts) (hq : q.place.Free) : q.Accounts settings seen := by
  subst hplace
  obtain ⟨hunread, hunsettled⟩ := hhere
  obtain ⟨hunread', hunsettled'⟩ := hq
  constructor
  · rw [htaken, h.taken, hunread, hunread']
  · rw [htally, h.tally, hattempts]
  · intro hmanual
    rw [h.manual hmanual, hattempts, hunsettled, hunsettled']
  · intro hauto
    exact ⟨hattempts.trans (h.auto hauto).1, hunsettled'⟩

theorem move (h : p.Accounts settings seen) (hmove : Move settings client c p q) :
    ∃ seen', q.Accounts settings seen' := by
  cases hmove with
  | ask hplace =>
      refine ⟨seen, h.elsewhere hplace ⟨rfl, rfl⟩ rfl rfl rfl ?_⟩
      show Place.Free (if _ then _ else _)
      split <;> exact ⟨rfl, rfl⟩
  | @asked path hplace =>
      refine ⟨seen, h.elsewhere hplace ⟨rfl, rfl⟩ rfl rfl rfl ?_⟩
      cases path <;> exact ⟨rfl, rfl⟩
  | @take d w hplace =>
      have hseen := h.taken
      have hmanual := h.manual
      rw [hplace] at hseen hmanual
      simp only [Place.unread, List.append_nil] at hseen
      exact ⟨seen, by rw [hseen]; rfl, h.tally, hmanual, fun hauto => ⟨(h.auto hauto).1, rfl⟩⟩
  | wait hplace | finish hplace | leave hplace =>
      exact ⟨seen, h.elsewhere hplace ⟨rfl, rfl⟩ rfl rfl rfl ⟨rfl, rfl⟩⟩
  | @read d hplace =>
      have hseen := h.taken
      have hmanual := h.manual
      rw [hplace] at hseen hmanual
      refine ⟨seen ++ [d], ?_, ?_, ?_, ?_⟩
      · rw [hseen]
        cases settings.autoAck <;> exact (List.append_nil _).symm
      · show p.tally.read d.body = _
        rw [h.tally, Tally.read_account, List.map_append]
        rfl
      · intro hno
        rw [hmanual hno, hno]
        simp [Place.unsettled]
      · intro hauto
        exact ⟨(h.auto hauto).1, by rw [hauto]; rfl⟩
  | @settle d answer w hplace =>
      have hseen := h.taken
      have hmanual := h.manual
      have hauto := h.auto
      rw [hplace] at hseen hmanual hauto
      refine ⟨seen, hseen, ?_, ?_, ?_⟩
      · show p.tally.settled answer = _
        rw [h.tally, Tally.settled_account, List.map_append]
        rfl
      · intro hno
        rw [hmanual hno, List.map_append]
        exact (List.append_nil _).symm
      · intro hyes
        exact absurd (hauto hyes).2 (by simp [Place.unsettled])
  | @check path hplace =>
      refine ⟨seen, h.elsewhere hplace ⟨rfl, rfl⟩ rfl rfl rfl ?_⟩
      show Place.Free (if _ then _ else _)
      split
      · exact ⟨rfl, rfl⟩
      · cases path <;> exact ⟨rfl, rfl⟩

theorem run (h : p.Accounts settings seen) (hrun : Run settings client c n p q) :
    ∃ seen', q.Accounts settings seen' :=
  hrun.preserves (P := fun p => ∃ seen, p.Accounts settings seen)
    (fun _ _ ⟨_, hp⟩ hmove => hp.move hmove)
    (fun _ _ ⟨seen, hp⟩ _ => ⟨seen, hp.taken, hp.tally, hp.manual, hp.auto⟩) ⟨seen, h⟩

end Accounts

/-- What the books of a sender say when it has handled all that it took. -/
structure Accounted (settings : ConsumeSettings) (p : Post σ) : Prop where
  received : p.tally.received = p.taken.length
  malformed : p.tally.malformed = p.taken.countP fun d => Notification.malformed d.body
  lastMessage : p.tally.lastMessage =
    (p.taken.filterMap fun d => (Notification.decode d.body).toOption).getLast?
  /-- Each delivery was acknowledged once, in order, and each attempt counted as it went. -/
  manual : settings.autoAck = false → p.attempts.map (·.1) = p.taken ∧
    p.tally.acked = p.attempts.countP (·.2.isOk) ∧
    p.tally.ackFailures = p.attempts.countP (!·.2.isOk) ∧
    p.tally.acked + p.tally.ackFailures = p.tally.received
  auto : settings.autoAck = true →
    p.attempts = [] ∧ p.tally.acked = 0 ∧ p.tally.ackFailures = 0

theorem Accounts.accounted {seen : List (Delivery Bytes)} (h : p.Accounts settings seen)
    (hfree : p.place.Free) : p.Accounted settings := by
  have htaken : p.taken = seen := by rw [h.taken, hfree.1, List.append_nil]
  have htally := h.tally
  rw [← htaken] at htally
  have hacked : p.tally.acked = p.attempts.countP (·.2.isOk) := by
    rw [htally]
    exact List.countP_map
  have hfailures : p.tally.ackFailures = p.attempts.countP (!·.2.isOk) := by
    rw [htally]
    exact List.countP_map
  have hreceived : p.tally.received = p.taken.length := by
    rw [htally]
    exact List.length_map _
  refine ⟨hreceived, ?_, ?_, fun hno => ⟨?_, hacked, hfailures, ?_⟩, fun hauto => ?_⟩
  · rw [htally]
    exact List.countP_map
  · rw [htally]
    exact congrArg List.getLast? List.filterMap_map
  · rw [htaken, h.manual hno, hfree.2, List.append_nil]
  · have hall := List.length_eq_countP_add_countP (·.2.isOk) (l := p.attempts)
    have hlength : p.attempts.length = p.taken.length := by
      rw [htaken, h.manual hno, hfree.2, List.append_nil, List.length_map]
    rw [hacked, hfailures, hreceived, ← hlength, hall]
    simp
  · obtain ⟨hnone, -⟩ := h.auto hauto
    exact ⟨hnone, by rw [hacked, hnone]; rfl, by rw [hfailures, hnone]; rfl⟩

end Post

end Almanac.Sender
