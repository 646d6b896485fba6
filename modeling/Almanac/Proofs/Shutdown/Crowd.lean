/-
  Almanac.Proofs.Shutdown.Crowd

  A channel with all its handles and any number of waiters, through everything that can happen to
  them, in any order (`Move`). Handles are made and given up, also the last one; whoever has a handle
  may trigger the channel, once or often; waiters come before a trigger or after it; and between any
  two steps of a waiter anything else can happen, also between its reading of the flag and its going
  to sleep.

  A waiter that finds nothing new goes to sleep, and then it takes somebody to wake it. A trigger
  wakes those who have seen an older version, and so does the end of the last handle; nothing else
  wakes anybody. Then nobody sleeps while there is something to do (`Sleeper.Sound`): a sleeper has
  seen the latest version, so all triggers were before, and of those an attentive waiter knows.

  A channel is `Over` when it has been triggered, or nobody is left to trigger it. Then no waiter
  sleeps, and each has two steps to make at most (`remaining_step`), whatever the others do.
-/
import Almanac.Proofs.Shutdown
import Mathlib.Data.List.Basic

namespace Almanac.Shutdown

/-- A waiter and its task. -/
structure Sleeper where
  waiter : Waiter := {}
  /-- The task sleeps, and nobody has woken it. -/
  asleep : Bool := false
deriving DecidableEq

namespace Sleeper

/-- One step of a waiter, which goes to sleep when it has nothing to do. -/
def act (c : Channel) (x : Sleeper) : Sleeper where
  waiter := x.waiter.step c
  asleep := x.waiter.phase == .parked && !x.waiter.ready c

/-- The channel wakes those who have something to do now. -/
def hear (c : Channel) (x : Sleeper) : Sleeper :=
  { x with asleep := x.asleep && !x.waiter.ready c }

end Sleeper

/-- A channel and all who have begun to wait on it; a waiter is known by its place. -/
structure Crowd where
  channel : Channel := {}
  sleepers : List Sleeper := []
deriving DecidableEq

/-- What can happen. A waiter that is given up is one that makes no more steps. -/
inductive Move
  | trigger
  /-- Another handle is made from one that there is. -/
  | clone
  /-- A handle is given up. -/
  | release
  /-- Somebody begins to wait. -/
  | join
  /-- A waiter makes a step. -/
  | step (place : Nat)
deriving DecidableEq

namespace Crowd

/-- The channel changes and wakes its waiters. -/
def announce (s : Crowd) (c : Channel) : Crowd := ⟨c, s.sleepers.map (Sleeper.hear c)⟩

/-- A move. Without a handle nobody can trigger the channel or make a handle. -/
def apply (s : Crowd) : Move → Crowd
  | .trigger => if s.channel.handles = 0 then s else s.announce s.channel.trigger
  | .clone => if s.channel.handles = 0 then s else { s with channel := s.channel.clone }
  | .release =>
    if s.channel.handles = 1 then s.announce s.channel.release
    else { s with channel := s.channel.release }
  | .join => { s with sleepers := s.sleepers ++ [{}] }
  | .step place => { s with sleepers := s.sleepers.modify place (Sleeper.act s.channel) }

/-- After some moves. -/
def after (s : Crowd) (moves : List Move) : Crowd := moves.foldl apply s

/-- After all moves so far, from a new channel with one handle and no waiters. -/
def of (moves : List Move) : Crowd := ({} : Crowd).after moves

variable {s : Crowd} {m : Move} {moves more : List Move}

theorem after_append (s : Crowd) (moves more : List Move) :
    s.after (moves ++ more) = (s.after moves).after more :=
  List.foldl_append

theorem of_append (moves more : List Move) : of (moves ++ more) = (of moves).after more :=
  after_append _ _ _

end Crowd

/-! ## Who sleeps -/

variable {c d : Channel} {x : Sleeper} {w : Waiter}

/-- The waiter has missed nothing: it is attentive, it is not done without a cause, and it sleeps
    only when it has nothing to do. -/
structure Sleeper.Sound (c : Channel) (x : Sleeper) : Prop where
  attentive : Waiter.Attentive c x.waiter
  done : x.waiter.phase = .done → c.triggered = true ∨ c.handles = 0
  asleep : x.asleep = true → x.waiter.phase = .parked ∧ x.waiter.ready c = false

namespace Sleeper.Sound

theorem fresh (c : Channel) : Sound c {} where
  attentive := Waiter.attentive_fresh c
  done h := by simp at h
  asleep h := by simp at h

/-- A waiter that ends has read the flag, or has found no handles. -/
theorem act (h : Sound c x) : Sound c (x.act c) where
  attentive := h.attentive.step
  done hdone := by
    cases hphase : x.waiter.phase with
    | reading =>
        simp only [Sleeper.act, Waiter.step, hphase] at hdone
        split at hdone
        · exact Or.inl ‹_›
        · simp at hdone
    | parked =>
        simp only [Sleeper.act, Waiter.step, hphase] at hdone
        split at hdone
        · simp at hdone
        · split at hdone
          · next hnobody => exact Or.inr (by simpa using hnobody)
          · simp [hphase] at hdone
    | done => exact h.done hphase
  asleep hasleep := by
    simp only [Sleeper.act, Bool.and_eq_true, beq_iff_eq, Bool.not_eq_true'] at hasleep
    obtain ⟨hphase, hready⟩ := hasleep
    -- With nothing to do, its step leaves it as it is.
    have hsame : x.waiter.step c = x.waiter := by
      simp only [Waiter.ready, hphase, Bool.or_eq_false_iff] at hready
      simp only [Waiter.step, hphase, hready, Bool.false_eq_true, if_false]
    simp only [Sleeper.act, hsame]
    exact ⟨hphase, hready⟩

/-- A change of the channel that wakes its waiters. -/
theorem hear (h : Sound c x) (hattentive : Waiter.Attentive d x.waiter)
    (hdone : c.triggered = true ∨ c.handles = 0 → d.triggered = true ∨ d.handles = 0) :
    Sound d (x.hear d) where
  attentive := hattentive
  done hphase := hdone (h.done hphase)
  asleep hasleep := by
    simp only [Sleeper.hear, Bool.and_eq_true, Bool.not_eq_true'] at hasleep
    exact ⟨(h.asleep hasleep.1).1, hasleep.2⟩

/-- A change of the channel that wakes nobody: there is a handle before it, and after it. -/
theorem unheard (h : Sound c x) (hflag : d.triggered = c.triggered)
    (hversion : d.version = c.version) (hbefore : c.handles ≠ 0) (hafter : d.handles ≠ 0) :
    Sound d x where
  attentive := h.attentive.congr hflag hversion
  done hphase := by
    rw [hflag]
    exact (h.done hphase).imp_right fun hnobody => absurd hnobody hbefore
  asleep hasleep := by
    obtain ⟨hphase, hready⟩ := h.asleep hasleep
    refine ⟨hphase, ?_⟩
    have hhandles : (d.handles == 0) = false := by simpa using hafter
    simp only [Waiter.ready, hphase, Bool.or_eq_false_iff] at hready
    simp only [Waiter.ready, hphase, hversion, hready.1, hhandles, Bool.or_false]

end Sleeper.Sound

/-! ## All who wait -/

/-- Nobody has missed anything, and the version counts the triggers. -/
structure Crowd.Sound (s : Crowd) : Prop where
  version : s.channel.triggered = false → s.channel.version = 0
  sleepers : ∀ x ∈ s.sleepers, x.Sound s.channel

/-- No waiter has a reason to sleep. -/
def Channel.Over (c : Channel) : Prop := c.triggered = true ∨ c.handles = 0

theorem Channel.release_of_none (h : c.handles = 0) : c.release = c := by
  obtain ⟨triggered, version, handles⟩ := c
  obtain rfl : handles = 0 := h
  rfl

namespace Crowd

variable {s : Crowd} {m : Move} {moves more : List Move}

theorem sound_fresh : ({} : Crowd).Sound := ⟨fun _ => rfl, fun x hx => by simp at hx⟩

namespace Sound

theorem announce (h : s.Sound) (hversion : d.triggered = false → d.version = 0)
    (hattentive : ∀ w, Waiter.Attentive s.channel w → Waiter.Attentive d w)
    (hover : s.channel.Over → d.Over) : (s.announce d).Sound where
  version := hversion
  sleepers := by
    intro y hy
    obtain ⟨x, hx, rfl⟩ := List.mem_map.mp hy
    exact (h.sleepers x hx).hear (hattentive _ (h.sleepers x hx).attentive) hover

theorem apply (h : s.Sound) (m : Move) : (s.apply m).Sound := by
  cases m with
  | trigger =>
      simp only [Crowd.apply]
      split
      · exact h
      · exact h.announce (fun hnot => by simp [Channel.trigger] at hnot)
          (fun w hw => hw.trigger) fun _ => Or.inl rfl
  | clone =>
      simp only [Crowd.apply]
      split
      · exact h
      · next hhandle =>
        refine ⟨h.version, fun x hx => (h.sleepers x hx).unheard rfl rfl hhandle ?_⟩
        exact Nat.succ_ne_zero _
  | release =>
      simp only [Crowd.apply]
      split
      · next hlast =>
        refine h.announce h.version (fun w hw => hw.congr rfl rfl) fun _ => Or.inr ?_
        simp [Channel.release, hlast]
      · next hmany =>
        by_cases hnobody : s.channel.handles = 0
        · -- There is nothing to give up.
          rw [Channel.release_of_none hnobody]
          exact h
        · refine ⟨h.version, fun x hx => (h.sleepers x hx).unheard rfl rfl hnobody ?_⟩
          show s.channel.handles - 1 ≠ 0
          omega
  | join =>
      refine ⟨h.version, fun x hx => ?_⟩
      rcases List.mem_append.mp hx with hold | hnew
      · exact h.sleepers x hold
      · rw [List.mem_singleton.mp hnew]
        exact Sleeper.Sound.fresh _
  | step place =>
      refine ⟨h.version, fun x hx => ?_⟩
      obtain ⟨i, hi, rfl⟩ := List.mem_iff_getElem.mp hx
      simp only [Crowd.apply, List.getElem_modify]
      split
      · exact (h.sleepers _ (List.getElem_mem _)).act
      · exact h.sleepers _ (List.getElem_mem _)

theorem after (h : s.Sound) (moves : List Move) : (s.after moves).Sound := by
  induction moves generalizing s with
  | nil => exact h
  | cons m moves ih => exact ih (h.apply m)

end Sound

/-- Whatever has happened, nobody has missed anything. -/
theorem sound_of (moves : List Move) : (of moves).Sound := sound_fresh.after moves

/-! ## The flag -/

/-- A move leaves the flag as it is, unless it is a trigger. -/
theorem triggered_apply (s : Crowd) (m : Move) :
    (s.apply m).channel.triggered =
      (s.channel.triggered || (m == .trigger && s.channel.handles != 0)) := by
  cases m with
  | trigger =>
      simp only [apply]
      split
      · next hnobody => simp [hnobody]
      · next hhandle => simp [announce, Channel.trigger, hhandle]
  | clone =>
      simp only [apply]
      split <;> simp [Channel.clone]
  | release =>
      simp only [apply]
      split <;> simp [Channel.release, announce]
  | join => simp [apply]
  | step place => simp [apply]

theorem triggered_after (h : s.channel.triggered = true) (moves : List Move) :
    (s.after moves).channel.triggered = true := by
  induction moves generalizing s with
  | nil => exact h
  | cons m moves ih =>
      refine ih ?_
      rw [triggered_apply, h, Bool.true_or]

/-- The flag is set by triggers only. -/
theorem mem_trigger_of_triggered (hnot : s.channel.triggered = false)
    (h : (s.after moves).channel.triggered = true) : .trigger ∈ moves := by
  induction moves generalizing s with
  | nil => simp [after, hnot] at h
  | cons m moves ih =>
      by_cases htrigger : m = .trigger
      · exact htrigger ▸ List.mem_cons_self
      · refine List.mem_cons_of_mem _ (ih (s := s.apply m) ?_ h)
        simp [triggered_apply, hnot, htrigger]

/-! ## The way out -/

/-- Without handles nothing happens to a channel any more. -/
theorem channel_apply (h : s.channel.handles = 0) (m : Move) :
    (s.apply m).channel = s.channel := by
  cases m <;> simp [apply, h, Channel.release_of_none]

/-- A parked waiter of a channel that is over has something to do. -/
theorem Sound.ready_of_over (hs : s.Sound) (h : s.channel.Over) (x : Sleeper)
    (hx : x ∈ s.sleepers) (hparked : x.waiter.phase = .parked) :
    x.waiter.ready s.channel = true := by
  rcases h with htriggered | hnobody
  · exact (hs.sleepers x hx).attentive.ready_of_triggered hparked htriggered
  · simp [Waiter.ready, hparked, hnobody]

theorem over_apply (h : s.channel.Over) (m : Move) : (s.apply m).channel.Over := by
  rcases h with htriggered | hnobody
  · exact Or.inl (triggered_after htriggered [m])
  · rw [channel_apply hnobody]
    exact Or.inr hnobody

/-- How many steps a waiter has to make on a channel that is over. -/
def remaining (c : Channel) (w : Waiter) : Nat :=
  match w.phase with
  | .reading => if c.triggered then 1 else 2
  | .parked => if c.triggered then 2 else 1
  | .done => 0

theorem remaining_le (c : Channel) (w : Waiter) : remaining c w ≤ 2 := by
  unfold remaining
  split
  · split <;> omega
  · split <;> omega
  · omega

theorem remaining_eq_zero : remaining c w = 0 ↔ w.phase = .done := by
  cases hphase : w.phase <;> cases hflag : c.triggered <;> simp [remaining, hphase, hflag]

/-- Each of its own steps brings a waiter nearer to its end. -/
theorem remaining_step (hw : Waiter.Attentive c w) (hversion : c.triggered = false → c.version = 0)
    (hover : c.Over) : remaining c (w.step c) ≤ remaining c w - 1 := by
  cases hphase : w.phase with
  | reading =>
      cases htriggered : c.triggered <;> simp [remaining, Waiter.step, hphase, htriggered]
  | parked =>
      cases htriggered : c.triggered with
      | true =>
          -- It finds the new version, and reads the flag next.
          have hlt := hw.asleep hphase htriggered
          have hnew : (w.seen != c.version) = true := by simpa using Nat.ne_of_lt hlt
          simp [remaining, Waiter.step, hphase, hnew, htriggered]
      | false =>
          -- There is no version but the first, so it finds the handles gone.
          have hsame : w.seen = c.version := by
            have hzero := hversion htriggered
            have hseen := hw.seen
            omega
          have hnobody : c.handles = 0 := hover.resolve_left (by simp [htriggered])
          simp [remaining, Waiter.step, hphase, hsame, hnobody]
  | done => simp [remaining, Waiter.step, hphase]

/-- A waiter that is left alone comes to its end on a channel that is over, and on no other. -/
theorem Sound.completes_iff (hs : s.Sound) {x : Sleeper} (hx : x ∈ s.sleepers) :
    x.waiter.completes s.channel = true ↔ s.channel.Over := by
  have h := hs.sleepers x hx
  rw [Waiter.completes, beq_iff_eq]
  constructor
  · intro hdone
    exact h.act.act.act.act.done hdone
  · intro hover
    have hstart := remaining_le s.channel x.waiter
    have hfirst := remaining_step h.attentive hs.version hover
    have hsecond := remaining_step h.attentive.step hs.version hover
    have hthird := remaining_step h.attentive.step.step hs.version hover
    have hfourth := remaining_step h.attentive.step.step.step hs.version hover
    have hnothing : remaining s.channel (x.waiter.settle s.channel) = 0 := by
      unfold Waiter.settle
      omega
    exact remaining_eq_zero.mp hnothing

theorem remaining_congr (h : d.triggered = c.triggered) (w : Waiter) :
    remaining d w = remaining c w := by
  simp only [remaining, h]

/-- Nobody sets the flag of a channel that is over, if it is not set. -/
theorem triggered_of_over (h : s.channel.Over) (m : Move) :
    (s.apply m).channel.triggered = s.channel.triggered := by
  rcases h with htriggered | hnobody
  · rw [htriggered]
    exact triggered_after htriggered [m]
  · rw [channel_apply hnobody]

theorem sleepers_apply_step (s : Crowd) (place : Nat) :
    (s.apply (.step place)).sleepers[place]? = s.sleepers[place]?.map (Sleeper.act s.channel) := by
  simp [apply]

/-- The moves of the others leave a waiter where it is, though they may wake it. -/
theorem sleepers_apply_other {place : Nat} {x : Sleeper} (hx : s.sleepers[place]? = some x)
    (hother : m ≠ .step place) :
    ∃ y, (s.apply m).sleepers[place]? = some y ∧ y.waiter = x.waiter := by
  cases m with
  | trigger =>
      simp only [apply]
      split
      · exact ⟨x, hx, rfl⟩
      · exact ⟨x.hear s.channel.trigger, by simp [announce, hx], rfl⟩
  | clone =>
      simp only [apply]
      split <;> exact ⟨x, hx, rfl⟩
  | release =>
      simp only [apply]
      split
      · exact ⟨x.hear s.channel.release, by simp [announce, hx], rfl⟩
      · exact ⟨x, hx, rfl⟩
  | join =>
      obtain ⟨hlt, -⟩ := List.getElem?_eq_some_iff.mp hx
      exact ⟨x, by simp only [apply, List.getElem?_append_left hlt, hx], rfl⟩
  | step i =>
      have hne : i ≠ place := fun heq => hother (heq ▸ rfl)
      exact ⟨x, by simp [apply, hne, hx], rfl⟩

/-- What is left for a waiter to do goes down with its own steps, and does not go up by anything
    else. -/
theorem remaining_after (hs : s.Sound) (hover : s.channel.Over) {place : Nat} {x : Sleeper}
    (hx : s.sleepers[place]? = some x) (moves : List Move) :
    ∃ y, (s.after moves).sleepers[place]? = some y ∧
      remaining (s.after moves).channel y.waiter ≤
        remaining s.channel x.waiter - moves.count (.step place) := by
  induction moves generalizing s x with
  | nil => exact ⟨x, hx, Nat.le_refl _⟩
  | cons m moves ih =>
      have hflag := triggered_of_over hover m
      by_cases hown : m = .step place
      · subst hown
        have hnext := sleepers_apply_step s place
        rw [hx, Option.map_some] at hnext
        obtain ⟨y, hy, hle⟩ := ih (hs.apply _) (over_apply hover _) hnext
        refine ⟨y, hy, ?_⟩
        have hmem := List.mem_of_getElem? hx
        have hstep := remaining_step (hs.sleepers x hmem).attentive hs.version hover
        rw [remaining_congr hflag] at hle
        rw [List.count_cons_self]
        simp only [Sleeper.act] at hle
        exact Nat.le_trans hle (by omega)
      · obtain ⟨x', hx', hsame⟩ := sleepers_apply_other hx hown
        obtain ⟨y, hy, hle⟩ := ih (hs.apply _) (over_apply hover _) hx'
        refine ⟨y, hy, ?_⟩
        rw [remaining_congr hflag, hsame] at hle
        rw [List.count_cons_of_ne hown]
        exact hle

end Crowd

open Crowd

/-- Shutdown signals are neither missed nor spurious, whatever has happened to a channel, its
    handles and its waiters. A trigger sets the flag, nothing else does, and it stays set. A waiter
    is done only when the flag is set or all handles are gone, and one that is left alone comes to
    its end exactly then. When the flag is set, or all handles are gone, no waiter sleeps: one that
    is parked has something to do, and nobody has to wake it. So two steps of its own, whatever
    comes between them, see it done. -/
theorem signals_never_missed (moves : List Move) :
    (0 < (of moves).channel.handles → (of (moves ++ [.trigger])).channel.triggered = true) ∧
    ((of moves).channel.triggered = true → .trigger ∈ moves) ∧
    (∀ more, (of moves).channel.triggered = true →
      (of (moves ++ more)).channel.triggered = true) ∧
    (∀ x ∈ (of moves).sleepers, x.waiter.phase = .done →
      (of moves).channel.triggered = true ∨ (of moves).channel.handles = 0) ∧
    (∀ x ∈ (of moves).sleepers, x.waiter.completes (of moves).channel = true ↔
      (of moves).channel.triggered = true ∨ (of moves).channel.handles = 0) ∧
    ((of moves).channel.triggered = true ∨ (of moves).channel.handles = 0 →
      (∀ x ∈ (of moves).sleepers, x.asleep = false ∧
        (x.waiter.phase = .parked → x.waiter.ready (of moves).channel = true)) ∧
      ∀ place more, place < (of moves).sleepers.length → 2 ≤ more.count (.step place) →
        ∃ x, (of (moves ++ more)).sleepers[place]? = some x ∧ x.waiter.phase = .done) := by
  have hsound := sound_of moves
  refine ⟨fun hhandle => ?_, fun h => mem_trigger_of_triggered rfl h, fun more h => ?_,
    fun x hx hdone => (hsound.sleepers x hx).done hdone, fun x hx => hsound.completes_iff hx,
    fun hover => ⟨fun x hx => ?_, ?_⟩⟩
  · rw [of_append]
    show ((of moves).apply .trigger).channel.triggered = true
    rw [triggered_apply]
    simp [Nat.ne_of_gt hhandle]
  · rw [of_append]
    exact triggered_after h more
  · have hready := hsound.ready_of_over hover x hx
    refine ⟨?_, hready⟩
    cases hasleep : x.asleep with
    | false => rfl
    | true =>
        obtain ⟨hphase, hidle⟩ := (hsound.sleepers x hx).asleep hasleep
        simp [hready hphase] at hidle
  · intro place more hplace htwice
    obtain ⟨y, hy, hle⟩ :=
      remaining_after hsound hover (List.getElem?_eq_getElem hplace) more
    have hmost := remaining_le (of moves).channel (of moves).sleepers[place].waiter
    have hnothing : remaining ((of moves).after more).channel y.waiter = 0 := by omega
    rw [of_append]
    exact ⟨y, hy, remaining_eq_zero.mp hnothing⟩

/-- Handles that are gone end a waiter without a trigger. -/
example : (of [.join, .step 0, .release, .step 0]).sleepers = [⟨⟨0, .done⟩, false⟩] := by decide

/-- One waiter sleeps, and another one has read the flag and not gone to sleep yet. -/
def beforeTrigger : List Move := [.join, .step 0, .step 0, .clone, .join, .step 1]

/-- The channel is triggered twice, both handles are given up, and a third waiter comes. -/
def afterTrigger : List Move := beforeTrigger ++ [.trigger, .trigger, .release, .release, .join]

/-- The trigger that comes between the reading of the flag and the going to sleep is not missed. -/
theorem beforeTrigger_not_missed :
    (of beforeTrigger).sleepers = [⟨⟨0, .parked⟩, true⟩, ⟨⟨0, .parked⟩, false⟩] ∧
    0 < (of beforeTrigger).channel.handles ∧
    (of (beforeTrigger ++ [.trigger])).channel.triggered = true ∧
    (of afterTrigger).channel.triggered = true ∧ .trigger ∈ afterTrigger ∧
    (of (afterTrigger ++ [.step 1, .step 0, .step 1])).channel.triggered = true ∧
    (∀ x ∈ (of beforeTrigger).sleepers, ¬x.waiter.completes (of beforeTrigger).channel = true) ∧
    (∀ x ∈ (of afterTrigger).sleepers, x.asleep = false) ∧
    (∃ x ∈ (of afterTrigger).sleepers, x.waiter.ready (of afterTrigger).channel = true) ∧
    (∃ x, (of (afterTrigger ++ [.step 1, .step 0, .step 1])).sleepers[1]? = some x ∧
      x.waiter.phase = .done) ∧
    ∃ x ∈ (of (afterTrigger ++ [.step 2])).sleepers, x.waiter.phase = .done ∧
      ((of (afterTrigger ++ [.step 2])).channel.triggered = true ∨
        (of (afterTrigger ++ [.step 2])).channel.handles = 0) := by
  have hhandle : 0 < (of beforeTrigger).channel.handles := by decide
  have hflag : (of afterTrigger).channel.triggered = true := by decide
  have hquiet : ¬((of beforeTrigger).channel.triggered = true ∨
      (of beforeTrigger).channel.handles = 0) := by decide
  obtain ⟨hsets, -, -, -, hcompletes, -⟩ := signals_never_missed beforeTrigger
  obtain ⟨-, hcause, hstays, -, -, hover⟩ := signals_never_missed afterTrigger
  obtain ⟨-, -, -, hdone, -⟩ := signals_never_missed (afterTrigger ++ [.step 2])
  obtain ⟨hawake, hends⟩ := hover (Or.inl hflag)
  have hsecond : ⟨⟨0, .parked⟩, false⟩ ∈ (of afterTrigger).sleepers := by decide
  have hthird : ⟨⟨0, .done⟩, false⟩ ∈ (of (afterTrigger ++ [.step 2])).sleepers := by decide
  exact ⟨by decide, hhandle, hsets hhandle, hflag, hcause hflag, hstays _ hflag,
    fun x hx hcompleted => hquiet ((hcompletes x hx).mp hcompleted), fun x hx => (hawake x hx).1,
    ⟨_, hsecond, (hawake _ hsecond).2 rfl⟩, hends 1 _ (by decide) (by decide),
    ⟨_, hthird, rfl, hdone _ hthird rfl⟩⟩

end Almanac.Shutdown
