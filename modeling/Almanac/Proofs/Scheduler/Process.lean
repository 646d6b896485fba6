/-
  Almanac.Proofs.Scheduler.Process

  A scheduler among others. Ticks follow one another, each one call at a time, and between
  two calls the others may change the world in any way that keeps it good. Beside the world
  and the tally a `Process` keeps what its ticks have done: which selections of due events
  succeeded, on which world and with which answer, and which announcements were attempted.

  `Change` lists what one call can do to these books. A `Trace` is a run with the calls that were
  made in it, and the attempts in the books are the announcements among these calls
  (`Trace.attempts`).
-/
import Almanac.Proofs.Scheduler.Deeds
import Almanac.Proofs.Time.Order
import Mathlib.Logic.Relation

namespace Almanac.Scheduler

variable {σ : Type}

/-- The announcements that a tick at some stage is still going to attempt. -/
def Stage.pending : Stage → List Notification
  | .publishing due => due.map Event.announcement
  | _ => []

/-- What holds of a tick under way. -/
structure Tick.Running (settings : Settings) (tally : Tally) (t : Tick) (stage : Stage) :
    Prop where
  lower : t.after = tally.coveredUntil.getD (settings.firstBound t.now)
  whole : t.now.floorSecond = t.now
  fresh : stage = .selectingDue → t.through = none
  handled : ∀ n, t.through = some n → n = t.now ∧ t.after < t.now

theorem Tick.Running.same {settings : Settings} {tally : Tally} {t t' : Tick} {stage stage' : Stage}
    (h : t.Running settings tally stage) (hsame : t.SameWindow t')
    (hstage : stage' ≠ .selectingDue) : t'.Running settings tally stage' where
  lower := by rw [hsame.1, hsame.2.1, h.lower]
  whole := by rw [hsame.1, h.whole]
  fresh heq := (hstage heq).elim
  handled n hn := by
    rw [hsame.1, hsame.2.1]
    exact h.handled n (hsame.2.2.symm.trans hn)

/-- A selection of due events that succeeded. -/
structure Selection (σ : Type) where
  /-- The window, its lower end excluded. -/
  after : Instant
  now : Instant
  /-- The world that was asked. -/
  world : σ
  due : List Event

/-- Whether an instant lies in the window of a selection. -/
def Selection.Covers (x : Selection σ) (i : Instant) : Prop := x.after < i ∧ i ≤ x.now

/-- A scheduler that makes one tick after the other, with its books. -/
structure Process (σ : Type) where
  world : σ
  tally : Tally
  /-- The tick under way, and what it does next. -/
  current : Option (Tick × Stage) := none
  selections : List (Selection σ) := []
  attempts : List Notification := []

namespace Process

/-- Through where notifications have been handled, by the tick under way too. -/
def watermark (p : Process σ) : Option Instant :=
  match p.current with
  | some (t, _) => t.through.or p.tally.coveredUntil
  | none => p.tally.coveredUntil

/-- The announcements that the tick under way is still going to attempt. -/
def pending (p : Process σ) : List Notification :=
  match p.current with
  | some (_, stage) => stage.pending
  | none => []

/-- The process after a step of the tick under way. -/
def advance (p : Process σ) (t : Tick) (stage : Stage) (t' : Tick) (next : Option Stage)
    (world : σ) : Process σ where
  world
  tally := match next with
    | some _ => p.tally
    | none => t'.recorded p.tally
  current := next.map fun stage' => (t', stage')
  selections := match stage, next, t'.through with
    | .selectingDue, some (.publishing due), some _ =>
      p.selections ++ [⟨t.after, t.now, p.world, due⟩]
    | _, _, _ => p.selections
  attempts := match stage with
    | .publishing (e :: _) => p.attempts ++ [e.announcement]
    | _ => p.attempts

/-- One step of a scheduler among others. -/
inductive Step (s : Scheduler σ) (good : σ → Prop) : Process σ → Process σ → Prop
  /-- Others act. -/
  | interfere {p : Process σ} (world : σ) (h : good world) : Step s good p { p with world }
  /-- A tick begins when the clock reads `clock`. -/
  | begin {p : Process σ} (clock : Instant) (h : p.current = none) :
      Step s good p
        { p with current := some (Tick.begin s.settings p.tally clock, .selectingDue) }
  /-- The tick under way makes its next call. -/
  | work {p : Process σ} {t t' : Tick} {stage : Stage} {next : Option Stage} {world : σ}
      (hcurrent : p.current = some (t, stage))
      (hstep : (s.step t stage).perform p.world = (.ok (t', next), world)) :
      Step s good p (p.advance t stage t' next world)

/-- Any number of steps. -/
def Run (s : Scheduler σ) (good : σ → Prop) : Process σ → Process σ → Prop :=
  Relation.ReflTransGen (Step s good)

variable {s : Scheduler σ} {good : σ → Prop} {p p' : Process σ}

/-- A tick that nobody disturbs is a run. -/
theorem run_of_finishes {t t' : Tick} {stage : Stage} {w w' : σ}
    (h : s.Finishes t stage w t' w') (hcurrent : p.current = some (t, stage))
    (hworld : p.world = w) :
    ∃ p', Run s good p p' ∧ p'.current = none ∧ p'.world = w' ∧
      p'.tally = t'.recorded p.tally := by
  induction h generalizing p with
  | @last t t' stage w w' h =>
      subst hworld
      exact ⟨p.advance t stage t' none w', .single (.work hcurrent h), rfl, rfl, rfl⟩
  | @next t t₁ t' stage stage₁ w w₁ w' h hrest ih =>
      subst hworld
      obtain ⟨p', hrun, hend⟩ := ih (p := p.advance t stage t₁ (some stage₁) w₁) rfl rfl
      exact ⟨p', .head (.work hcurrent h) hrun, hend⟩

/-- The tick as a whole is one of the runs of the process. -/
theorem run_of_tick {clock : Instant} {r : Report} {tally : Tally} {w : σ}
    (hcurrent : p.current = none)
    (h : (s.tick p.tally clock).perform p.world = (.ok (r, tally), w)) :
    ∃ p', Run s good p p' ∧ p'.current = none ∧ p'.world = w ∧ p'.tally = tally := by
  obtain ⟨t, w₁, hwork, h⟩ := Action.perform_bind_eq_ok.mp h
  cases h
  -- The tick begins, and then nobody comes between its calls.
  let q : Process σ :=
    { p with current := some (Tick.begin s.settings p.tally clock, .selectingDue) }
  obtain ⟨p', hrun, hend⟩ : ∃ p', Run s good q p' ∧ p'.current = none ∧ p'.world = w ∧
      p'.tally = t.recorded p.tally :=
    run_of_finishes (p := q) (s.finishes_of_work hwork) rfl rfl
  exact ⟨p', .head (.begin clock hcurrent) hrun, hend⟩

/-! ## What a call does -/

/-- What the next call of a tick can do to the books: a selection succeeds, the tick moves on, or
    the tick ends. -/
inductive Change (s : Scheduler σ) (p : Process σ) : Process σ → Prop
  | selected {t t' : Tick} {due : List Event} {world : σ}
      (hcurrent : p.current = some (t, .selectingDue)) (hwindow : t.after < t.now)
      (hanswer :
        (s.calendar.eventsDueBetween t.after t.now).perform p.world = (.ok (.ok due), world))
      (hnow : t'.now = t.now) (hafter : t'.after = t.after) (hthrough : t'.through = some t.now) :
      Change s p
        { p with
          world
          current := some (t', .publishing due)
          selections := p.selections ++ [⟨t.after, t.now, p.world, due⟩] }
  | moved {t t' : Tick} {stage stage' : Stage} {world : σ} {attempted : List Notification}
      (hcurrent : p.current = some (t, stage)) (hsame : t.SameWindow t')
      (hstage : stage' ≠ .selectingDue) (hbooks : stage.pending = attempted ++ stage'.pending) :
      Change s p
        { p with world, current := some (t', stage'), attempts := p.attempts ++ attempted }
  | ended {t : Tick} {stage : Stage} (hcurrent : p.current = some (t, stage))
      (hbooks : stage.pending = []) :
      Change s p { p with current := none, tally := t.recorded p.tally }

/-- The tick moves on and attempts nothing. -/
theorem Change.moved_on {t t' : Tick} {stage : Stage} (hcurrent : p.current = some (t, stage))
    (hsame : t.SameWindow t') (world : σ) (stage' : Stage) (hstage : stage' ≠ .selectingDue)
    (hbooks : stage.pending = stage'.pending) :
    Change s p { p with world, current := some (t', stage') } := by
  have hmoved : Change s p
      { p with world, current := some (t', stage'), attempts := p.attempts ++ [] } :=
    .moved hcurrent hsame hstage hbooks
  rwa [List.append_nil] at hmoved

/-- A call is one of these changes, as long as nothing counts as handled before the selection. -/
theorem change_of_step {t t' : Tick} {stage : Stage} {next : Option Stage} {world : σ}
    (hcurrent : p.current = some (t, stage)) (hfresh : stage = .selectingDue → t.through = none)
    (hstep : (s.step t stage).perform p.world = (.ok (t', next), world)) :
    Change s p (p.advance t stage t' next world) := by
  have hdoes := s.does_of_step hstep
  clear hstep
  match stage, hcurrent, hfresh, hdoes with
  | .selectingDue, hcurrent, hfresh, ⟨due, hnext, hselect⟩ =>
      subst hnext
      rcases s.selectDue_cases hselect with ⟨hwindow, hanswer, hnow, hafter, hthrough⟩ |
        ⟨-, rfl, hsame, -⟩ | ⟨-, rfl, rfl, -⟩
      · have hchange := Change.selected hcurrent (of_decide_eq_true hwindow) hanswer hnow hafter
          hthrough
        simpa only [advance, hthrough, Option.map_some] using hchange
      · -- The selection failed, and nothing counts as handled.
        have hthrough : t'.through = none := hsame.2.2.trans (hfresh rfl)
        have hchange := Change.moved_on (s := s) hcurrent hsame world (.publishing []) (by simp) rfl
        simpa only [advance, hthrough, Option.map_some] using hchange
      · -- There was no second to select.
        have hthrough : t'.through = none := hfresh rfl
        have hchange := Change.moved_on (s := s) hcurrent (Tick.SameWindow.refl t') world
          (.publishing []) (by simp) rfl
        simpa only [advance, hthrough, Option.map_some] using hchange
  | .publishing (e :: due), hcurrent, _, ⟨hnext, hpublish⟩ =>
      subst hnext
      -- The event in front is attempted, whatever comes of it.
      have hbooks : (Stage.publishing (e :: due)).pending =
          [e.announcement] ++ (Stage.publishing due).pending := rfl
      exact .moved hcurrent (s.publishOne_cases hpublish).1 (by simp) hbooks
  | .publishing [], hcurrent, _, ⟨hnext, hsame, hworld⟩ =>
      subst hnext hsame hworld
      exact .moved_on hcurrent (Tick.SameWindow.refl t') p.world .selectingExpired (by simp) rfl
  | .selectingExpired, hcurrent, _, ⟨expired, hnext, hselect⟩ =>
      subst hnext
      exact .moved_on hcurrent (s.selectExpired_cases hselect).1 world (.purging expired) (by simp)
        rfl
  | .purging (e :: expired), hcurrent, _, ⟨hnext, hpurge⟩ =>
      subst hnext
      exact .moved_on hcurrent (s.purgeOne_cases hpurge).1 world (.purging expired) (by simp) rfl
  | .purging [], hcurrent, _, ⟨hnext, hsame, hworld⟩ =>
      subst hnext hsame hworld
      exact .ended hcurrent rfl

/-! ## The tick under way -/

/-- What a tick under way knows fits what the tally says. -/
def Orderly (s : Scheduler σ) (p : Process σ) : Prop :=
  ∀ t stage, p.current = some (t, stage) → t.Running s.settings p.tally stage

theorem Orderly.of_current {q : Process σ} {t : Tick} {stage : Stage}
    (hcurrent : q.current = some (t, stage)) (h : t.Running s.settings q.tally stage) :
    q.Orderly s := by
  intro u stage' heq
  rw [hcurrent, Option.some.injEq, Prod.mk.injEq] at heq
  exact heq.1 ▸ heq.2 ▸ h

theorem Orderly.change (hp : p.Orderly s) (h : Change s p p') : p'.Orderly s := by
  cases h with
  | @selected t t' due world hcurrent hwindow hanswer hnow hafter hthrough =>
      have hrunning := hp t _ hcurrent
      refine .of_current rfl ⟨?_, ?_, fun h => by simp at h, fun n hn => ?_⟩
      · rw [hnow, hafter, hrunning.lower]
      · rw [hnow, hrunning.whole]
      · rw [hthrough, Option.some.injEq] at hn
        rw [hnow, hafter, hn]
        exact ⟨rfl, hn ▸ hwindow⟩
  | @moved t t' stage stage' world attempted hcurrent hsame hstage hbooks =>
      exact .of_current rfl ((hp t stage hcurrent).same hsame hstage)
  | ended hcurrent hbooks => exact fun u stage heq => by simp at heq

theorem Orderly.step (hp : p.Orderly s) (h : Step s good p p') : p'.Orderly s := by
  cases h with
  | interfere world h => exact hp
  | begin clock h =>
      exact .of_current rfl
        ⟨rfl, clock.floorSecond_floorSecond, fun _ => rfl, fun n hn => by simp [Tick.begin] at hn⟩
  | work hcurrent hstep => exact hp.change (change_of_step hcurrent (hp _ _ hcurrent).fresh hstep)

theorem Orderly.run (hp : p.Orderly s) (h : Run s good p p') : p'.Orderly s := by
  induction h with
  | refl => exact hp
  | tail _ hstep ih => exact ih.step hstep

/-- Selections are only added, and while none is the watermark stays. -/
theorem Orderly.watermark_step (hp : p.Orderly s) (h : Step s good p p') :
    ∃ new, p'.selections = p.selections ++ new ∧ (new = [] → p'.watermark = p.watermark) := by
  cases h with
  | interfere world h => exact ⟨[], (List.append_nil _).symm, fun _ => rfl⟩
  | begin clock h =>
      exact ⟨[], (List.append_nil _).symm, fun _ => by simp [watermark, h, Tick.begin]⟩
  | @work t t' stage next world hcurrent hstep =>
      have hchange := change_of_step hcurrent (hp _ _ hcurrent).fresh hstep
      generalize p.advance t stage t' next world = q at hchange
      cases hchange with
      | selected => exact ⟨_, rfl, fun h => by simp at h⟩
      | moved hcurrent hsame hstage hbooks =>
          refine ⟨[], (List.append_nil _).symm, fun _ => ?_⟩
          simp only [watermark, hcurrent, hsame.2.2]
      -- The watermark of the tick becomes that of the tally.
      | ended hcurrent hbooks =>
          refine ⟨[], (List.append_nil _).symm, fun _ => ?_⟩
          simp only [watermark, hcurrent, Tick.recorded, Tally.record]

theorem Orderly.watermark_run (hp : p.Orderly s) (h : Run s good p p') :
    ∃ new, p'.selections = p.selections ++ new ∧ (new = [] → p'.watermark = p.watermark) := by
  induction h with
  | refl => exact ⟨[], (List.append_nil _).symm, fun _ => rfl⟩
  | tail hrun hstep ih =>
      obtain ⟨new, hselections, hwatermark⟩ := ih
      obtain ⟨more, hselections', hwatermark'⟩ := (hp.run hrun).watermark_step hstep
      refine ⟨new ++ more, by rw [hselections', hselections, List.append_assoc], fun hnil => ?_⟩
      obtain ⟨hnew, hmore⟩ := List.append_eq_nil_iff.mp hnil
      rw [hwatermark' hmore, hwatermark hnew]

/-- A tick that selects and adds to the books has added its own selection. -/
theorem Orderly.selections_step (hp : p.Orderly s) {t : Tick}
    (hcurrent : p.current = some (t, .selectingDue)) (h : Step s good p p')
    (hnew : p'.selections ≠ p.selections) :
    ∃ due, p'.selections = p.selections ++ [⟨t.after, t.now, p.world, due⟩] := by
  cases h with
  | interfere world h => exact (hnew rfl).elim
  | begin clock h => exact (hnew rfl).elim
  | @work u t' stage next world hu hstep =>
      have hchange := change_of_step hu (hp _ _ hu).fresh hstep
      generalize p.advance u stage t' next world = q at hchange hnew
      cases hchange with
      | @selected u' t' due world hu' =>
          rw [hcurrent, Option.some.injEq, Prod.mk.injEq] at hu'
          obtain rfl := hu'.1
          exact ⟨due, rfl⟩
      | moved => exact (hnew rfl).elim
      | ended => exact (hnew rfl).elim

/-! ## The calls of a run -/

/-- A run with the calls that its ticks made, in their order: the world in which each of them was
    made, and what it came to. -/
inductive Trace (s : Scheduler σ) (good : σ → Prop) (p : Process σ) :
    List (σ × Deed) → Process σ → Prop
  | start : Trace s good p [] p
  | interfere {calls : List (σ × Deed)} {q : Process σ} (h : Trace s good p calls q) (world : σ)
      (hgood : good world) : Trace s good p calls { q with world }
  | begin {calls : List (σ × Deed)} {q : Process σ} (h : Trace s good p calls q) (clock : Instant)
      (hidle : q.current = none) :
      Trace s good p calls
        { q with current := some (Tick.begin s.settings q.tally clock, .selectingDue) }
  | work {calls : List (σ × Deed)} {q : Process σ} {t t' : Tick} {stage : Stage}
      {next : Option Stage} {world : σ} (h : Trace s good p calls q)
      (hcurrent : q.current = some (t, stage))
      (hstep : (s.step t stage).perform q.world = (.ok (t', next), world)) :
      Trace s good p (calls ++ (s.deed? t stage q.world).toList.map fun d => (q.world, d))
        (q.advance t stage t' next world)

/-- Every run makes some calls. -/
theorem exists_trace (h : Run s good p p') : ∃ calls, Trace s good p calls p' := by
  induction h with
  | refl => exact ⟨[], .start⟩
  | tail _ hstep ih =>
      obtain ⟨calls, htrace⟩ := ih
      cases hstep with
      | interfere world hgood => exact ⟨calls, htrace.interfere world hgood⟩
      | begin clock hidle => exact ⟨calls, htrace.begin clock hidle⟩
      | work hcurrent hstep => exact ⟨_, htrace.work hcurrent hstep⟩

theorem attempts_advance (q : Process σ) (t : Tick) (stage : Stage) (t' : Tick)
    (next : Option Stage) (world : σ) :
    (q.advance t stage t' next world).attempts = q.attempts ++ stage.attempt?.toList := by
  match stage with
  | .publishing (e :: due) => rfl
  | .selectingDue | .publishing [] | .selectingExpired | .purging _ =>
      exact (List.append_nil _).symm

namespace Trace

variable {calls : List (σ × Deed)}

theorem run (h : Trace s good p calls p') : Run s good p p' := by
  induction h with
  | start => exact .refl
  | interfere _ world hgood ih => exact ih.tail (.interfere world hgood)
  | begin _ clock hidle ih => exact ih.tail (.begin clock hidle)
  | work _ hcurrent hstep ih => exact ih.tail (.work hcurrent hstep)

/-- A call that is answered joins the calls of the run. -/
theorem call (h : Trace s good p calls p') {t : Tick} {stage : Stage} {α : Type}
    {act : Action σ α} {f : α → Deed} {answer : α} {world : σ}
    (hcurrent : p'.current = some (t, stage))
    (hcall : s.call? t stage = some (do return f (← act)))
    (hanswer : act.perform p'.world = (.ok answer, world)) :
    Trace s good p (calls ++ [(p'.world, f answer)])
      (p'.advance t stage (t.note (f answer)) (stage.after (some (f answer))) world) := by
  obtain ⟨hstep, hdeed⟩ := s.step_of_call hcall hanswer
  have htrace := h.work hcurrent hstep
  rwa [hdeed] at htrace

/-- What a run attempts are the announcements among its calls, in their order. -/
theorem attempts (h : Trace s good p calls p') :
    p'.attempts = p.attempts ++ calls.filterMap fun call => call.2.announcement? := by
  induction h with
  | start => exact (List.append_nil _).symm
  | interfere _ _ _ ih => exact ih
  | begin _ _ _ ih => exact ih
  | @work calls q t t' stage next world _ hcurrent hstep ih =>
      rw [attempts_advance, ih, ← (s.announces_of_step hstep).1, List.filterMap_append,
        List.append_assoc]
      cases s.deed? t stage q.world with
      | none => rfl
      | some d => cases hd : d.announcement? <;> simp [hd]

/-- An announcement among the calls was made, in the world that stands beside it. -/
theorem announced (h : Trace s good p calls p') {w : σ} {e : Event}
    {answer : Except Service.Error Unit} (hmem : (w, Deed.announced e answer) ∈ calls) :
    ∃ w', (s.announce e).perform w = (.ok answer, w') := by
  induction h with
  | start => simp at hmem
  | interfere _ _ _ ih => exact ih hmem
  | begin _ _ _ ih => exact ih hmem
  | @work calls q t t' stage next world _ hcurrent hstep ih =>
      rcases List.mem_append.mp hmem with hold | hnew
      · exact ih hold
      · obtain ⟨d, hd, heq⟩ := List.mem_map.mp hnew
        cases heq
        exact ⟨_, (s.announces_of_step hstep).2 e answer (Option.mem_toList.mp hd)⟩

end Trace

end Process

end Almanac.Scheduler
