/-
  Almanac.Proofs.Sender.Exits

  How a sender ends, over every run beside others.

  It leaves the loop for a stop, or for the end of its stream. At the end it looks for a stop one
  path after the other, and others may take a path in between; but a stop lasts, so when neither
  look finds one there was none when the first look was made (`History`). So there is always one
  moment that decides the outcome.

  Once it is on its way out it needs no more than `ahead` moves, whatever the others do
  (`Poised.moves_le`), and a sender that was stopped before its first look at the end ends well
  (`Dismissed.returned`). All of it comes together in `accounts_and_exits`.
-/
import Almanac.Proofs.Notification
import Almanac.Proofs.Sender.Accounts

namespace Almanac.Sender

open Broker (Client ConsumeSettings Consumer Delivery Received)
open Shutdown (Channel Waiter)

variable {σ : Type}

namespace Place

/-- A sender decides once. -/
theorem Decided.unique {place : Place} {outcome outcome' : Except Service.Error Unit}
    (h : place.Decided outcome) (h' : place.Decided outcome') : outcome = outcome' := by
  rcases h with rfl | rfl
  · simpa [Decided] using h'
  · simpa [Decided] using h'

/-- How many moves are ahead of a sender that is on its way out, at most, by how long its waiters
    keep it. Unless it is looking for it just now, it finds the stop in its next pass. -/
def ahead (shutdown handle : Nat) (byHandle : Bool) : Place → Nat
  | .asking .shutdown => shutdown + handle + 2
  | .asking .handle => handle + 1 + if byHandle then 0 else shutdown + handle + 5
  | .listening => shutdown + handle + 5
  | .received _ => shutdown + handle + 4
  | .counted _ => shutdown + handle + 3
  | .checking .shutdown => 3
  | .checking .handle => 2
  | .leaving _ => 1
  | .returned _ => 0

theorem ahead_mono (place : Place) {shutdown shutdown' handle handle' : Nat}
    {byHandle byHandle' : Bool} (hshutdown : shutdown' ≤ shutdown) (hhandle : handle' ≤ handle)
    (hby : byHandle = true → byHandle' = true) :
    place.ahead shutdown' handle' byHandle' ≤ place.ahead shutdown handle byHandle := by
  cases place with
  | asking path =>
      cases path with
      | shutdown =>
          simp only [ahead]
          omega
      | handle =>
          have hrest : (if byHandle' then 0 else shutdown' + handle' + 5) ≤
              if byHandle then 0 else shutdown + handle + 5 := by
            cases byHandle with
            | true => simp [hby rfl]
            | false =>
                cases byHandle' with
                | true => exact Nat.zero_le _
                | false =>
                    simp only [Bool.false_eq_true, if_false]
                    omega
          simp only [ahead]
          omega
  | checking path => cases path <;> exact Nat.le_refl _
  | listening | received | counted | leaving | returned =>
      simp only [ahead]
      omega

end Place

namespace Post

variable {settings : ConsumeSettings} {client : Client σ} {c : Consumer} {n m : Nat}
  {p p₀ q r : Post σ}

/-! ## The moment that decides -/

/-- A run goes through a point. -/
def Between (settings : ConsumeSettings) (client : Client σ) (c : Consumer) (p q r : Post σ) :
    Prop :=
  (∃ n, Run settings client c n p q) ∧ ∃ n, Run settings client c n q r

/-- At some point, before the sender knew how it was going to end, it was stopped, and so it ends
    well, or its stream had ended and it was not stopped, and so it fails. -/
structure Decides (settings : ConsumeSettings) (outcome : Except Service.Error Unit) (q : Post σ) :
    Prop where
  undecided : ∀ other, ¬q.place.Decided other
  outcomes : outcome = .ok () ∨ outcome = .error (.consumerClosed settings.queue)
  ok : outcome = .ok () ↔ q.desk.Stopped
  closed : outcome = .error (.consumerClosed settings.queue) ↔ q.ended = true ∧ ¬q.desk.Stopped

theorem decides_ok (settings : ConsumeSettings) (hnot : ∀ other, ¬q.place.Decided other)
    (h : q.desk.Stopped) : Decides settings (.ok ()) q where
  undecided := hnot
  outcomes := Or.inl rfl
  ok := by simp [h]
  closed := by simp [h]

theorem decides_closed (hnot : ∀ other, ¬q.place.Decided other) (hended : q.ended = true)
    (h : ¬q.desk.Stopped) : Decides settings (.error (.consumerClosed settings.queue)) q where
  undecided := hnot
  outcomes := Or.inr rfl
  ok := by simp [h]
  closed := by simp [h, hended]

/-- What is known of the past of a sender that is not in its loop any more. -/
structure History (settings : ConsumeSettings) (client : Client σ) (c : Consumer)
    (p₀ p : Post σ) : Prop where
  ended : ∀ path, p.place = .checking path → p.ended = true
  /-- Before the second look, there was no stop of the first kind when the first look was made. -/
  unshut : p.place = .checking .handle → ∃ q, Between settings client c p₀ q p ∧
    q.place = .checking .shutdown ∧ q.ended = true ∧
    (q.desk.channels .shutdown).triggered = false
  decided : ∀ outcome, p.place.Decided outcome →
    ∃ q, Between settings client c p₀ q p ∧ Decides settings outcome q

/-- A sender in its loop has no such past. -/
theorem history_of_looping (h : p.place.Looping) : History settings client c p₀ p where
  ended path hplace := by simp [hplace, Place.Looping] at h
  unshut hplace := by simp [hplace, Place.Looping] at h
  decided outcome hdecided := absurd hdecided (Place.not_decided_of_looping h outcome)

theorem looping_otherwise (path : StopPath) : path.otherwise.Looping := by
  cases path <;> exact trivial

/-- A sender that is about to leave was decided at a point of its past. -/
theorem history_of_leaving {outcome : Except Service.Error Unit}
    (hplace : p.place.Decided outcome)
    (h : ∃ q, Between settings client c p₀ q p ∧ Decides settings outcome q) :
    History settings client c p₀ p where
  ended path hchecking := by simp [hchecking, Place.Decided] at hplace
  unshut hchecking := by simp [hchecking, Place.Decided] at hplace
  decided outcome' hdecided := hplace.unique hdecided ▸ h

namespace History

theorem change (h : History settings client c p₀ p) {desk : Desk σ}
    (hchange : p.desk.Change desk) : History settings client c p₀ { p with desk } := by
  have hlater : ∀ q, Between settings client c p₀ q p →
      Between settings client c p₀ q { p with desk } :=
    fun q ⟨hbefore, n, hafter⟩ => ⟨hbefore, n, hafter.other hchange⟩
  refine ⟨h.ended, fun hplace => ?_, fun outcome hdecided => ?_⟩
  · obtain ⟨q, hbetween, hq⟩ := h.unshut hplace
    exact ⟨q, hlater q hbetween, hq⟩
  · obtain ⟨q, hbetween, hq⟩ := h.decided outcome hdecided
    exact ⟨q, hlater q hbetween, hq⟩

theorem move (h : History settings client c p₀ p) (hpoised : p.Poised)
    (hrun : Run settings client c n p₀ p) (hmove : Move settings client c p q) :
    History settings client c p₀ q := by
  have hhere : Between settings client c p₀ p q := ⟨⟨n, hrun⟩, 1, .single hmove⟩
  have hlater : ∀ r, Between settings client c p₀ r p → Between settings client c p₀ r q :=
    fun r ⟨hbefore, m, hafter⟩ => ⟨hbefore, _, hafter.move hmove⟩
  cases hmove with
  | @ask path hplace hready =>
      by_cases hdone : (p.stepped path).phase = .done
      · have hnot : ∀ other, ¬p.place.Decided other := by simp [Place.Decided, hplace]
        have hstopped : p.desk.Stopped := ⟨path, (hpoised.stepped path).done hdone⟩
        exact history_of_leaving (Or.inl (if_pos hdone))
          ⟨p, hhere, decides_ok settings hnot hstopped⟩
      · refine history_of_looping ?_
        simp [hdone, Place.Looping]
  | @asked path hplace => exact history_of_looping (looping_otherwise path)
  | take | wait | settle => exact history_of_looping trivial
  | read hplace =>
      refine history_of_looping ?_
      cases settings.autoAck <;> exact trivial
  | finish hplace =>
      exact ⟨fun _ _ => rfl, fun hchecking => by simp at hchecking,
        fun outcome hdecided => by simp [Place.Decided] at hdecided⟩
  | @check path hplace =>
      have hended := h.ended path hplace
      by_cases htriggered : (p.desk.channels path).triggered = true
      · have hnot : ∀ other, ¬p.place.Decided other := by simp [Place.Decided, hplace]
        exact history_of_leaving (Or.inl (if_pos htriggered))
          ⟨p, hhere, decides_ok settings hnot ⟨path, htriggered⟩⟩
      · have hcalm : (p.desk.channels path).triggered = false := by simpa using htriggered
        cases path with
        | shutdown =>
            refine ⟨fun _ _ => hended, fun _ => ⟨p, hhere, hplace, hended, hcalm⟩,
              fun outcome hdecided => ?_⟩
            simp [hcalm, StopPath.atEnd, Place.Decided] at hdecided
        | handle =>
            -- Neither look has found a stop, so there was none at the first one.
            obtain ⟨q, hbetween, hfirst, hqended, hunshut⟩ := h.unshut hplace
            have hundecided : ∀ other, ¬q.place.Decided other := by simp [Place.Decided, hfirst]
            have hnot : ¬q.desk.Stopped := by
              rintro ⟨path, hstop⟩
              obtain ⟨m, hafter⟩ := hbetween.2
              cases path with
              | shutdown => simp [hunshut] at hstop
              | handle => exact htriggered (hafter.triggered hstop)
            exact history_of_leaving (Or.inl (if_neg htriggered))
              ⟨q, hlater q hbetween, decides_closed hundecided hqended hnot⟩
  | @leave outcome w hplace =>
      obtain ⟨r, hbetween, hdecides⟩ := h.decided outcome (Or.inl hplace)
      exact history_of_leaving (Or.inr rfl) ⟨r, hlater r hbetween, hdecides⟩

theorem run (h₀ : p₀.Poised) (hlooping : p₀.place.Looping)
    (hrun : Run settings client c n p₀ p) : History settings client c p₀ p := by
  induction hrun with
  | refl => exact history_of_looping hlooping
  | move hrun hmove ih => exact (ih h₀ hlooping).move (h₀.run hrun) hrun hmove
  | other _ hchange ih => exact (ih h₀ hlooping).change hchange

/-- Nothing but a stop or the end of the stream leads out of the loop. -/
theorem looping (h : History settings client c p₀ p) (hnot : ¬p.desk.Stopped)
    (hopen : p.ended = false) : p.place.Looping := by
  have hundecided : ∀ outcome, ¬p.place.Decided outcome := by
    intro outcome hdecided
    obtain ⟨q, ⟨-, m, hafter⟩, hdecides⟩ := h.decided outcome hdecided
    rcases hdecides.outcomes with hok | hclosed
    · exact hnot (hafter.stopped (hdecides.ok.mp hok))
    · simp [hafter.ended (hdecides.closed.mp hclosed).1] at hopen
  cases hplace : p.place with
  | asking | listening | received | counted => trivial
  | checking path => simp [h.ended path hplace] at hopen
  | leaving outcome => exact (hundecided outcome (Or.inl hplace)).elim
  | returned outcome => exact (hundecided outcome (Or.inr hplace)).elim

end History

/-! ## How long it takes -/

/-- The broker answers every call, whatever the answer is. -/
structure Answers (client : Client σ) (c : Consumer) : Prop where
  receive : ∀ w, ∃ found w', (client.receive c).perform w = (.ok found, w')
  ack : ∀ tag w, ∃ answer w', (client.ack tag false).perform w = (.ok answer, w')
  drop : ∀ w, ∃ w', (client.drop c).perform w = (.ok (), w')

/-- A sender that has not returned can go on. -/
theorem exists_move (settings : ConsumeSettings) (h : Answers client c) (p : Post σ) :
    (∃ outcome, p.place = .returned outcome) ∨ ∃ q, Move settings client c p q := by
  cases hplace : p.place with
  | asking path =>
      cases hready : (p.waiters path).ready (p.desk.channels path) with
      | true => exact Or.inr ⟨_, .ask hplace hready⟩
      | false => exact Or.inr ⟨_, .asked hplace hready⟩
  | listening =>
      obtain ⟨found, w, hcall⟩ := h.receive p.desk.world
      cases found with
      | delivery d => exact Or.inr ⟨_, .take hplace hcall⟩
      | empty => exact Or.inr ⟨_, .wait hplace hcall⟩
      | ended => exact Or.inr ⟨_, .finish hplace hcall⟩
  | received d => exact Or.inr ⟨_, .read hplace⟩
  | counted d =>
      obtain ⟨answer, w, hcall⟩ := h.ack d.tag p.desk.world
      exact Or.inr ⟨_, .settle hplace hcall⟩
  | checking path => exact Or.inr ⟨_, .check hplace⟩
  | leaving outcome =>
      obtain ⟨w, hcall⟩ := h.drop p.desk.world
      exact Or.inr ⟨_, .leave hplace hcall⟩
  | returned outcome => exact Or.inl ⟨outcome, rfl⟩

/-- How long a waiter keeps the sender. -/
def patience (p : Post σ) (path : StopPath) : Nat :=
  Waiter.patience (p.desk.channels path) (p.waiters path)

/-- How many moves are ahead of a sender that is on its way out, at most. -/
def ahead (p : Post σ) : Nat :=
  p.place.ahead (p.patience .shutdown) (p.patience .handle) (p.desk.channels .handle).triggered

/-- A sender that is still in its loop has been stopped. -/
def Outbound (p : Post σ) : Prop := p.place.Looping → p.desk.Stopped

theorem ahead_le (p : Post σ) : p.ahead ≤ 15 := by
  have hshutdown : p.patience .shutdown ≤ 3 := Waiter.patience_le _ _
  have hhandle : p.patience .handle ≤ 3 := Waiter.patience_le _ _
  unfold ahead
  cases p.place with
  | asking path =>
      cases path with
      | shutdown =>
          simp only [Place.ahead]
          omega
      | handle =>
          simp only [Place.ahead]
          split <;> omega
  | checking path => cases path <;> simp [Place.ahead]
  | listening | received | counted | leaving | returned =>
      simp only [Place.ahead]
      omega

theorem ahead_of_not_looping (h : ¬p.place.Looping) : p.ahead ≤ 3 := by
  unfold ahead
  cases hplace : p.place with
  | asking | listening | received | counted => simp [hplace, Place.Looping] at h
  | checking path => cases path <;> simp [Place.ahead]
  | leaving | returned => simp [Place.ahead]

theorem patience_change {desk : Desk σ} (hchange : p.desk.Change desk) (path : StopPath) :
    ({ p with desk } : Post σ).patience path ≤ p.patience path := by
  cases hchange with
  | world w => exact Nat.le_refl _
  | @channel other c hchannel =>
      by_cases heq : path = other
      · subst heq
        simpa [patience] using Waiter.patience_change hchannel
      · simp [patience, heq]

/-- What others do does not put the end off. -/
theorem ahead_change {desk : Desk σ} (hchange : p.desk.Change desk) :
    ({ p with desk } : Post σ).ahead ≤ p.ahead :=
  p.place.ahead_mono (patience_change hchange .shutdown) (patience_change hchange .handle)
    hchange.triggered

/-- A waiter that makes a step keeps the sender for a shorter time, and the other one for as long as
    before. -/
theorem Poised.patience_ask (h : p.Poised) {path : StopPath}
    (hready : (p.waiters path).ready (p.desk.channels path) = true) (place : Place) :
    ({ p with waiters := Function.update p.waiters path (p.stepped path), place } :
      Post σ).patience path < p.patience path ∧
    ∀ other, other ≠ path →
      ({ p with waiters := Function.update p.waiters path (p.stepped path), place } :
        Post σ).patience other = p.patience other := by
  constructor
  · have hless : Waiter.patience (p.desk.channels path) (p.stepped path) < p.patience path :=
      (h.alert path).patience_step (h.live path) hready
    simpa [patience] using hless
  · intro other hne
    simp [patience, hne]

/-- Every move brings a sender that is on its way out nearer to the end. -/
theorem Poised.ahead_move (h : p.Poised) (hout : p.Outbound)
    (hmove : Move settings client c p q) : q.ahead < p.ahead := by
  cases hmove with
  | @ask path hplace hready =>
      obtain ⟨hless, hsame⟩ := h.patience_ask hready
        (if (p.stepped path).phase = .done then .leaving (.ok ()) else .asking path)
      by_cases hdone : (p.stepped path).phase = .done
      · cases path <;> simp only [ahead, hplace, if_pos hdone, Place.ahead] <;> omega
      · cases path with
        | shutdown =>
            have hother := hsame .handle (by simp)
            simp only [ahead, hplace, if_neg hdone, Place.ahead] at hless hother ⊢
            omega
        | handle =>
            have hother := hsame .shutdown (by simp)
            simp only [ahead, hplace, if_neg hdone, Place.ahead] at hless hother ⊢
            split <;> omega
  | @asked path hplace hidle =>
      have hlooping : p.place.Looping := hplace ▸ trivial
      have hnot := h.waiting (Place.not_decided_of_looping hlooping) path
      have hcalm := (((h.alert path).ready_iff (h.live path) hnot).mp hidle).2
      cases path with
      | shutdown =>
          -- So it was stopped by its handle, and is going to find that out.
          have hhandle : (p.desk.channels .handle).triggered = true := by
            obtain ⟨other, hstop⟩ := hout hlooping
            cases other with
            | shutdown => simp [hcalm] at hstop
            | handle => exact hstop
          simp only [ahead, hplace, StopPath.otherwise, Place.ahead, hhandle, if_true]
          show p.patience .handle + 1 + 0 < _
          omega
      | handle =>
          simp only [ahead, hplace, StopPath.otherwise, Place.ahead, hcalm]
          show p.patience .shutdown + p.patience .handle + 5 < _
          simp
  | take hplace | settle hplace =>
      simp only [ahead, hplace, Place.ahead]
      exact Nat.lt_succ_self _
  | wait hplace =>
      simp only [ahead, hplace, Place.ahead]
      exact Nat.add_lt_add_left (by decide : 2 < 5) _
  | finish hplace =>
      simp only [ahead, hplace, Place.ahead]
      omega
  | read hplace =>
      simp only [ahead, hplace]
      cases settings.autoAck with
      | true => exact Nat.add_lt_add_left (by decide : 2 < 4) _
      | false => exact Nat.lt_succ_self _
  | @check path hplace =>
      simp only [ahead, hplace]
      cases path with
      | shutdown => split <;> simp [StopPath.atEnd, Place.ahead]
      | handle => split <;> simp [StopPath.atEnd, Place.ahead]
  | leave hplace =>
      simp only [ahead, hplace, Place.ahead]
      exact Nat.one_pos

/-- A sender on its way out stays on it. -/
theorem Outbound.move (h : p.Outbound) (hmove : Move settings client c p q) : q.Outbound := by
  by_cases hlooping : p.place.Looping
  · intro _
    have hstopped := h hlooping
    rwa [Desk.Stopped, ← hmove.channels] at hstopped
  · -- Nothing leads back into the loop.
    intro hback
    cases hmove with
    | ask hplace | asked hplace | take hplace | wait hplace | finish hplace | read hplace
    | settle hplace =>
        rw [hplace] at hlooping
        exact absurd trivial hlooping
    | @check path hplace =>
        dsimp only at hback
        split at hback
        · exact hback.elim
        · cases path <;> exact hback.elim
    | leave hplace => exact hback.elim

theorem Outbound.change (h : p.Outbound) {desk : Desk σ} (hchange : p.desk.Change desk) :
    ({ p with desk } : Post σ).Outbound :=
  fun hlooping => (h hlooping).imp fun _ htriggered => hchange.triggered htriggered

/-- However the others interfere, a sender that is on its way out makes only so many moves. -/
theorem Poised.moves_le (h : p.Poised) (hout : p.Outbound) (hrun : Run settings client c n p q) :
    n + q.ahead ≤ p.ahead := by
  have hall : n + q.ahead ≤ p.ahead ∧ q.Poised ∧ q.Outbound := by
    induction hrun with
    | refl => exact ⟨Nat.le_of_eq (Nat.zero_add _), h, hout⟩
    | move _ hmove ih =>
        obtain ⟨hle, hpoised, houtbound⟩ := ih h hout
        have hless := hpoised.ahead_move houtbound hmove
        exact ⟨by omega, hpoised.move hmove, houtbound.move hmove⟩
    | other _ hchange ih =>
        obtain ⟨hle, hpoised, houtbound⟩ := ih h hout
        have hless := ahead_change hchange
        exact ⟨by omega, hpoised.change hchange, houtbound.change hchange⟩
  exact hall.1

/-- However the others interfere, the sender makes no more than so many moves from here on, and goes
    on until it has returned. -/
def EndsWithin (settings : ConsumeSettings) (client : Client σ) (c : Consumer) (moves : Nat)
    (p : Post σ) : Prop :=
  ∀ m q, Run settings client c m p q → m ≤ moves ∧
    ((∃ outcome, q.place = .returned outcome) ∨ ∃ r, Move settings client c q r)

theorem Poised.endsWithin (h : p.Poised) (hout : p.Outbound) (hanswers : Answers client c)
    {moves : Nat} (hle : p.ahead ≤ moves) : p.EndsWithin settings client c moves := by
  intro m q hrun
  have hmoves := h.moves_le hout hrun
  exact ⟨by omega, exists_move settings hanswers q⟩

/-- A sender that was stopped in time, and is going to find that out or has done so. -/
structure Dismissed (p : Post σ) : Prop where
  stopped : p.desk.Stopped
  place : p.place.Looping ∨ p.place = .checking .shutdown ∨
    (p.place = .checking .handle ∧ (p.desk.channels .handle).triggered = true) ∨
    p.place.Decided (.ok ())

namespace Dismissed

theorem change (h : p.Dismissed) {desk : Desk σ} (hchange : p.desk.Change desk) :
    ({ p with desk } : Post σ).Dismissed where
  stopped := h.stopped.imp fun _ htriggered => hchange.triggered htriggered
  place := h.place.imp_right (Or.imp_right (Or.imp_left (And.imp_right hchange.triggered)))

theorem move (h : p.Dismissed) (hmove : Move settings client c p q) : q.Dismissed := by
  have hstopped : q.desk.Stopped := by
    rw [Desk.Stopped, hmove.channels]
    exact h.stopped
  refine ⟨hstopped, ?_⟩
  cases hmove with
  | @ask path hplace =>
      by_cases hdone : (p.stepped path).phase = .done
      · exact Or.inr (Or.inr (Or.inr (Or.inl (if_pos hdone))))
      · refine Or.inl ?_
        simp [hdone, Place.Looping]
  | @asked path hplace => exact Or.inl (looping_otherwise path)
  | take | wait | settle => exact Or.inl trivial
  | read hplace =>
      refine Or.inl ?_
      cases settings.autoAck <;> exact trivial
  | finish hplace => exact Or.inr (Or.inl rfl)
  | @check path hplace =>
      by_cases htriggered : (p.desk.channels path).triggered = true
      · exact Or.inr (Or.inr (Or.inr (Or.inl (if_pos htriggered))))
      · cases path with
        | shutdown =>
            -- The service was not shut down, so the handle was used.
            obtain ⟨other, hstop⟩ := h.stopped
            cases other with
            | shutdown => exact absurd hstop htriggered
            | handle => exact Or.inr (Or.inr (Or.inl ⟨if_neg htriggered, hstop⟩))
        | handle =>
            have hfound := h.place
            simp [hplace, Place.Looping, Place.Decided, htriggered] at hfound
  | @leave outcome w hplace =>
      have hfound := h.place
      simp only [hplace, Place.Looping, Place.Decided, reduceCtorEq, false_and, false_or, or_false,
        Place.leaving.injEq] at hfound
      exact Or.inr (Or.inr (Or.inr (Or.inr (by rw [hfound]))))

/-- It does not fail any more. -/
theorem returned (h : p.Dismissed) (hrun : Run settings client c n p q)
    {outcome : Except Service.Error Unit} (hplace : q.place = .returned outcome) :
    outcome = .ok () := by
  have hdismissed : q.Dismissed :=
    hrun.preserves (fun _ _ hp hmove => hp.move hmove) (fun _ _ hp hchange => hp.change hchange) h
  have hfound := hdismissed.place
  simpa [hplace, Place.Looping, Place.Decided] using hfound

end Dismissed

end Post

open Post

/-- A sender that starts between live channels, beside others, keeps its books in order. When it has
    returned it has handled all that it took, and the outcome is that of one moment. Nothing but a
    stop or the end of its stream leads it out of the loop, and one that is stopped before it has
    looked for that at the end ends well. Over a broker that answers it goes on until it has returned,
    which takes so many moves at most once it is on its way out. Its steps, as long as it is left
    alone, are such runs. -/
theorem accounts_and_exits (settings : ConsumeSettings) (client : Client σ) (c : Consumer)
    {desk : Desk σ} (hlive : ∀ path, (desk.channels path).Live) {n : Nat} {p : Post σ}
    (hrun : Run settings client c n { desk } p) :
    (∃ seen, p.Accounts settings seen) ∧
    (∀ outcome, p.place = .returned outcome → p.Accounted settings ∧
      ∃ q, Between settings client c { desk } q p ∧ Decides settings outcome q) ∧
    (¬p.desk.Stopped → p.ended = false → p.place.Looping) ∧
    (p.desk.Stopped → p.place.Looping ∨ p.place = .checking .shutdown →
      ∀ m q, Run settings client c m p q →
        ∀ outcome, q.place = .returned outcome → outcome = .ok ()) ∧
    (Answers client c →
      ((∃ outcome, p.place = .returned outcome) ∨ ∃ q, Move settings client c p q) ∧
      (p.desk.Stopped → p.EndsWithin settings client c 15) ∧
      (¬p.place.Looping → p.EndsWithin settings client c 3)) ∧
    (p.place = .asking .shutdown → ∀ progress desk',
      ((Desk.sender settings client).step p.tally (.consuming c)).perform p.desk =
        (.ok progress, desk') →
      ∃ m q, Run settings client c m p q ∧ q.desk = desk' ∧ q.Shows c p.tally progress) := by
  have hstart := poised_start hlive
  have hpoised := hstart.run hrun
  have hhistory := History.run hstart trivial hrun
  obtain ⟨seen, haccounts⟩ := (Accounts.start settings desk).run hrun
  refine ⟨⟨seen, haccounts⟩, fun outcome hplace => ⟨haccounts.accounted ?_, ?_⟩, hhistory.looping,
    fun hstopped hplace m q hafter outcome => ?_, fun hanswers => ⟨?_, ?_, ?_⟩, ?_⟩
  · rw [hplace]
    exact ⟨rfl, rfl⟩
  · exact hhistory.decided outcome (Or.inr hplace)
  · exact Dismissed.returned ⟨hstopped, hplace.imp_right Or.inl⟩ hafter
  · exact exists_move settings hanswers p
  · exact fun hstopped => hpoised.endsWithin (fun _ => hstopped) hanswers p.ahead_le
  · intro hout
    exact hpoised.endsWithin (fun hlooping => absurd hlooping hout) hanswers
      (ahead_of_not_looping hout)
  · exact fun hplace progress desk' hstep => hpoised.run_of_step hplace hstep

/-! ## A stream with a bad body and a refused acknowledgement -/

/-- A broker whose stream is a list, and which refuses to acknowledge the first delivery. -/
def scripted : Client (List (Received Bytes)) where
  name := "scripted"
  start := Action.answer (.ok ())
  stop := Action.answer (.ok ())
  declare _ := Action.answer (.ok ())
  consume settings :=
    Action.answer (.ok { tag := settings.consumer, queue := settings.queue, stream := 0 })
  publish _ _ := Action.answer (.ok ())
  receive _ := Action.update fun
    | [] => (.ended, [])
    | found :: rest => (found, rest)
  ack tag _ := Action.answer (if tag = 1 then .error (.unknownDeliveryTag tag) else .ok ())
  drop _ := Action.answer ()

theorem scripted_answers (c : Consumer) : Answers scripted c where
  receive w := by
    cases w with
    | nil => exact ⟨_, _, rfl⟩
    | cons found rest => exact ⟨_, _, rfl⟩
  ack _ _ := ⟨_, _, rfl⟩
  drop _ := ⟨_, rfl⟩

/-- The consumer that it registers. -/
def scriptedReader : Consumer where
  tag := "calendar-sender"
  queue := Broker.defaultQueue
  stream := 0

/-- A delivery of the scripted broker. -/
def scriptedDelivery (tag : Nat) (body : Bytes) : Delivery Bytes where
  body
  contentType := Notification.contentType
  routingKey := Broker.defaultQueue
  redelivered := false
  tag

def standup : Notification where
  id := "e-2"
  title := "standup"
  description := ""
  notification := Instant.first

def standupBody : Bytes := Notification.layout.encode standup

theorem decode_standupBody : Notification.decode standupBody = .ok standup :=
  Notification.decode_of_encode (if_neg (by decide +kernel))

/-- Two untriggered channels, and a stream with a bad body and a good one. -/
def scriptedDesk : Desk (List (Received Bytes)) where
  world := [.delivery (scriptedDelivery 1 [33]), .delivery (scriptedDelivery 2 standupBody)]
  channels _ := {}

/-- The stream is empty, and the handle of the sender was used. -/
def stoppedDesk : Desk (List (Received Bytes)) where
  world := []
  channels := Function.update (fun _ => {}) .handle (Channel.trigger {})

/-- The tally of a sender that has counted both. -/
def scriptedTally : Tally where
  received := 2
  acked := 1
  ackFailures := 1
  malformed := 1
  lastMessage := some standup

theorem account_scripted :
    Tally.account [[33], standupBody] [.error (.unknownDeliveryTag 1), .ok ()] = scriptedTally := by
  have hbad : Notification.malformed [33] = true := by decide
  have hgood : Notification.malformed standupBody = false := by
    rw [Notification.malformed, decode_standupBody]
    rfl
  simp [Tally.account, Tally.after, scriptedTally, hbad, hgood, decode_standupBody, Except.isOk,
    Except.toBool, Except.toOption]

theorem scriptedDesk_live (path : StopPath) : (scriptedDesk.channels path).Live :=
  Channel.live_fresh

/-- It takes both deliveries, and has the first acknowledgement refused. -/
theorem scripted_takes_both :
    ∃ n p, Run {} scripted scriptedReader n { desk := scriptedDesk } p ∧
      p.place = .asking .shutdown ∧ p.desk = { world := [], channels := fun _ => {} } ∧
      p.tally = scriptedTally := by
  have hrefused : ((Desk.sender {} scripted).step {} (.consuming scriptedReader)).perform
      scriptedDesk = (.ok (.moved ((Tally.read {} [33]).settled (.error (.unknownDeliveryTag 1)))
        (.consuming scriptedReader)), { scriptedDesk with
          world := [.delivery (scriptedDelivery 2 standupBody)] }) := rfl
  have hstart := poised_start scriptedDesk_live
  obtain ⟨n, p, hrun, hdesk, -, hplace, htally⟩ := hstart.run_of_step rfl hrefused
  have hsecond : ((Desk.sender {} scripted).step p.tally (.consuming scriptedReader)).perform
      p.desk = (.ok (.moved ((p.tally.read standupBody).settled (.ok ()))
        (.consuming scriptedReader)), { world := [], channels := fun _ => {} }) := by
    rw [hdesk]
    rfl
  obtain ⟨m, q, hrun', hdesk', -, hplace', htally'⟩ :=
    (hstart.run hrun).run_of_step hplace hsecond
  refine ⟨n + m, q, hrun.trans hrun', hplace', hdesk', ?_⟩
  have hfirst : p.tally = .account [[33]] [.error (.unknownDeliveryTag 1)] := by
    rw [htally]
    exact (congrArg (Tally.settled · _) (Tally.read_account [] [] [33])).trans
      (Tally.settled_account [[33]] [] _)
  rw [htally', hfirst, Tally.read_account, Tally.settled_account, ← account_scripted]
  rfl

/-- When its stream ends it fails, with both deliveries handled. When its handle is used in place of
    that it ends well, in no more than so many moves. -/
theorem badBody_and_refusedAck_accounted :
    (∃ n p, Run {} scripted scriptedReader n { desk := scriptedDesk } p ∧
      p.place = .returned (.error (.consumerClosed Broker.defaultQueue)) ∧
      p.tally = scriptedTally ∧ p.taken.length = 2 ∧ p.attempts.map (·.1) = p.taken) ∧
    ∃ n p, Run {} scripted scriptedReader n { desk := scriptedDesk } p ∧
      p.desk.Stopped ∧ p.place.Looping ∧ p.EndsWithin {} scripted scriptedReader 15 ∧
      (∃ m q, Run {} scripted scriptedReader m p q ∧ q.place = .returned (.ok ())) ∧
      ∀ m q, Run {} scripted scriptedReader m p q →
        ∀ outcome, q.place = .returned outcome → outcome = .ok () := by
  obtain ⟨n, p, hrun, hplace, hdesk, htally⟩ := scripted_takes_both
  obtain ⟨-, -, -, -, -, hsteps⟩ :=
    accounts_and_exits {} scripted scriptedReader scriptedDesk_live hrun
  constructor
  · have hend : ((Desk.sender {} scripted).step p.tally (.consuming scriptedReader)).perform
        p.desk = (.ok (.moved p.tally (.ended (.error (.consumerClosed Broker.defaultQueue)))),
          { world := [], channels := fun _ => {} }) := by
      rw [hdesk]
      rfl
    obtain ⟨m, q, hrun', -, hreturned, hsame⟩ := hsteps hplace _ _ hend
    obtain ⟨-, hdone, -⟩ :=
      accounts_and_exits {} scripted scriptedReader scriptedDesk_live (hrun.trans hrun')
    obtain ⟨haccounted, -⟩ := hdone _ hreturned
    have htwo : q.tally = scriptedTally := hsame.trans htally
    refine ⟨_, q, hrun.trans hrun', hreturned, htwo, ?_, (haccounted.manual rfl).1⟩
    rw [← haccounted.received, htwo]
    rfl
  · -- Somebody stops the sender by its handle.
    have hchange : p.desk.Change stoppedDesk := by
      rw [hdesk]
      exact .channel .trigger
    have hother : Run {} scripted scriptedReader n { desk := scriptedDesk }
        { p with desk := stoppedDesk } := hrun.other hchange
    have hstopped : stoppedDesk.Stopped := ⟨.handle, rfl⟩
    have hlooping : p.place.Looping := hplace ▸ trivial
    obtain ⟨-, -, -, hwell, hends, hsteps'⟩ :=
      accounts_and_exits {} scripted scriptedReader scriptedDesk_live hother
    obtain ⟨m, q, hrun', -, hreturned, -⟩ :=
      hsteps' hplace (.moved p.tally (.ended (.ok ()))) stoppedDesk rfl
    exact ⟨n, _, hother, hstopped, hlooping, (hends (scripted_answers _)).2.1 hstopped,
      ⟨m, q, hrun', hreturned⟩, hwell hstopped (Or.inl hlooping)⟩

end Almanac.Sender
