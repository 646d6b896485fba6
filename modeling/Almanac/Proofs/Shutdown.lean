/-
  Almanac.Proofs.Shutdown

  Waiters on a channel that others use. A waiter is `Attentive` as long as it does not sleep over a
  trigger; this it stays, whatever it and the others do, because the version it saw last is behind
  that of every trigger since.

  The others trigger the channel, and make and give up handles (`Channel.Change`). As long as one
  handle is kept (`Channel.Live`), a waiter that was made from a handle is `Alert`: it is attentive,
  and it is done only after a trigger. So it has nothing to do exactly when
  the channel has not been triggered (`Alert.ready_iff`), and the gone handles, which would end it as
  well, do not come into it. How many steps it can make before it sleeps or is done is bounded by its
  `patience`.
-/
import Almanac.Shutdown

namespace Almanac.Shutdown

namespace Channel

/-- What the users of a channel do to it, one of whom keeps a handle. -/
inductive Change (c : Channel) : Channel → Prop
  | trigger : Change c c.trigger
  | clone : Change c c.clone
  | release (hkept : 1 < c.handles) : Change c c.release

/-- A channel with a handle, whose version counts the triggers. -/
structure Live (c : Channel) : Prop where
  handles : 0 < c.handles
  version : c.triggered = false → c.version = 0

variable {c d : Channel}

/-- A new channel is live. -/
theorem live_fresh : Live {} := ⟨by decide, fun _ => rfl⟩

theorem Live.change (h : c.Live) (hchange : c.Change d) : d.Live := by
  cases hchange with
  | trigger => exact ⟨h.handles, fun hnot => by simp [Channel.trigger] at hnot⟩
  | clone => exact ⟨Nat.succ_pos _, h.version⟩
  | release hkept => exact ⟨Nat.sub_pos_of_lt hkept, h.version⟩

/-- A channel stays triggered. -/
theorem Change.triggered (hchange : c.Change d) (h : c.triggered = true) : d.triggered = true := by
  cases hchange with
  | trigger => rfl
  | clone => exact h
  | release => exact h

end Channel

namespace Waiter

open Channel (Live Change)

variable {c d : Channel} {w : Waiter}

/-! ## Attention -/

/-- A waiter that does not sleep over a trigger. -/
structure Attentive (c : Channel) (w : Waiter) : Prop where
  seen : w.seen ≤ c.version
  /-- It wakes up if it went to sleep before a trigger. -/
  asleep : w.phase = .parked → c.triggered = true → w.seen < c.version

theorem attentive_fresh (c : Channel) : Attentive c {} where
  seen := Nat.zero_le _
  asleep h := by simp at h

namespace Attentive

/-- A trigger is ahead of everything that a waiter has seen. -/
theorem trigger (h : Attentive c w) : Attentive c.trigger w := by
  have hlt : w.seen < c.version + 1 := Nat.lt_succ_of_le h.seen
  exact ⟨Nat.le_of_lt hlt, fun _ _ => hlt⟩

/-- Handles do not count. -/
theorem congr (h : Attentive c w) (hflag : d.triggered = c.triggered)
    (hversion : d.version = c.version) : Attentive d w where
  seen := by rw [hversion]; exact h.seen
  asleep := by rw [hflag, hversion]; exact h.asleep

theorem step (h : Attentive c w) : Attentive c (w.step c) := by
  cases hphase : w.phase with
  | reading =>
      simp only [Waiter.step, hphase]
      refine ⟨h.seen, fun hparked htriggered => ?_⟩
      -- It does not go to sleep once the flag is set.
      simp [htriggered] at hparked
  | parked =>
      simp only [Waiter.step, hphase]
      split
      · exact ⟨Nat.le_refl _, fun hparked => by simp at hparked⟩
      · split
        · exact ⟨h.seen, fun hparked => by simp at hparked⟩
        · exact h
  | done =>
      simp only [Waiter.step, hphase]
      exact h

/-- A waiter that was put to sleep before a trigger has something to do. -/
theorem ready_of_triggered (h : Attentive c w) (hparked : w.phase = .parked)
    (htriggered : c.triggered = true) : w.ready c = true := by
  have hlt := h.asleep hparked htriggered
  simp only [ready, hparked, Bool.or_eq_true, bne_iff_ne]
  exact Or.inl (Nat.ne_of_lt hlt)

end Attentive

/-- A waiter that has not missed anything. -/
structure Alert (c : Channel) (w : Waiter) : Prop extends Attentive c w where
  done : w.phase = .done → c.triggered = true

/-- A new waiter is alert. -/
theorem alert_fresh (c : Channel) : Alert c {} where
  toAttentive := attentive_fresh c
  done h := by simp at h

theorem Alert.change (h : Alert c w) (hchange : c.Change d) : Alert d w := by
  cases hchange with
  | trigger => exact ⟨h.toAttentive.trigger, fun _ => rfl⟩
  | clone => exact ⟨h.toAttentive.congr rfl rfl, h.done⟩
  | release => exact ⟨h.toAttentive.congr rfl rfl, h.done⟩

/-- A waiter has something to do unless it sleeps on a channel that was not triggered. -/
theorem Alert.ready_iff (h : Alert c w) (hc : c.Live) (hnot : w.phase ≠ .done) :
    w.ready c = false ↔ w.phase = .parked ∧ c.triggered = false := by
  have hhandles : (c.handles == 0) = false := by simpa using Nat.ne_of_gt hc.handles
  cases hphase : w.phase with
  | reading => simp [ready, hphase]
  | done => exact absurd hphase hnot
  | parked =>
      simp only [ready, hphase, hhandles, Bool.or_false, bne_eq_false_iff_eq, true_and]
      constructor
      · intro hsame
        cases htriggered : c.triggered with
        | false => rfl
        | true =>
            have hlt := h.asleep hphase htriggered
            omega
      · intro htriggered
        have hzero := hc.version htriggered
        have hle := h.seen
        omega

theorem Alert.step (h : Alert c w) (hc : c.Live) : Alert c (w.step c) := by
  have hhandles : ¬(c.handles == 0) = true := by simpa using Nat.ne_of_gt hc.handles
  refine ⟨h.toAttentive.step, fun hdone => ?_⟩
  cases hphase : w.phase with
  | reading =>
      simp only [Waiter.step, hphase] at hdone
      split at hdone
      · assumption
      · simp at hdone
  | parked =>
      -- Handles are left, so it cannot have ended for want of them.
      simp only [Waiter.step, hphase, hhandles] at hdone
      split at hdone
      · simp at hdone
      · simp [hphase] at hdone
  | done => exact h.done hphase

/-- How many steps a waiter makes at most until it sleeps or is done. -/
def patience (c : Channel) (w : Waiter) : Nat :=
  match w.phase with
  | .reading => if c.triggered then 1 else 3
  | .parked => 2
  | .done => 0

theorem patience_le (c : Channel) (w : Waiter) : patience c w ≤ 3 := by
  unfold patience
  split
  · split <;> decide
  · decide
  · decide

/-- Others do not keep a waiter from its end. -/
theorem patience_change (hchange : c.Change d) : patience d w ≤ patience c w := by
  unfold patience
  split
  · cases htriggered : c.triggered with
    | true => simp [hchange.triggered htriggered]
    | false => split <;> decide
  · exact Nat.le_refl _
  · exact Nat.le_refl _

/-- Every step brings it nearer. -/
theorem Alert.patience_step (h : Alert c w) (hc : c.Live) (hready : w.ready c = true) :
    patience c (w.step c) < patience c w := by
  cases hphase : w.phase with
  | reading =>
      cases htriggered : c.triggered <;> simp [patience, Waiter.step, hphase, htriggered]
  | parked =>
      -- It was awake because of a trigger, and will read the flag next.
      have htriggered : c.triggered = true := by
        cases hflag : c.triggered with
        | true => rfl
        | false =>
            have hidle := (h.ready_iff hc (by simp [hphase])).mpr ⟨hphase, hflag⟩
            simp [hidle] at hready
      have hlt := h.asleep hphase htriggered
      have hchanged : (w.seen != c.version) = true := by simpa using Nat.ne_of_lt hlt
      simp [patience, Waiter.step, hphase, hchanged, htriggered]
  | done => simp [ready, hphase] at hready

end Waiter

end Almanac.Shutdown
