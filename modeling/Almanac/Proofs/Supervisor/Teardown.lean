/-
  Almanac.Proofs.Supervisor.Teardown

  The teardown of a supervisor. A `Life` is a supervisor that takes one turn after the other,
  forever, in a world that anybody may change in between, with a book of the steps of the
  teardown that are over. The report says what the book says (`Life.accounted`), and a teardown
  that has begun comes to its end, whatever fails on the way, if time goes by (`Life.ends`).

  A turn is a step of the supervisor together with what the step did, and the two say the same
  (`step_iff_advance`), so that a life exists in every sequence of worlds (`exists_life`), which
  decide on its phases (`Life.phase_succ`).
-/
import Almanac.Proofs.Rehearsal.Reliable
import Almanac.Proofs.Supervisor.Step

namespace Almanac.Supervisor

open Service (Component)

/-! ## What a report owes to a deed -/

/-- The entry on a component that ended badly. -/
def Deed.failure? : Deed → Option Failure
  | .joined c (.ended (.failed cause)) => some ⟨c.name, cause.text⟩
  | .joined c (.ended .crashed) => some ⟨c.name, crashMessage⟩
  | _ => none

/-- The entry on a step that failed or took too long. -/
def Deed.teardownError? : Deed → Option Failure
  | .joined c .overdue => some ⟨c.name, "drain timed out"⟩
  | .stopped (.refused cause) => some ⟨"broker", cause.text⟩
  | .stopped .overdue => some ⟨"broker", "timed out"⟩
  | _ => none

/-- A report has an entry for each deed that owes one, in their order, and no other; the
    components that nobody waited for are those that are not enabled. -/
structure Accounts (settings : Settings) (deeds : List Deed) (report : Report) : Prop where
  failures : report.failures = deeds.filterMap Deed.failure?
  teardownErrors : report.teardownErrors = deeds.filterMap Deed.teardownError?
  absent : ∀ c how, Deed.joined c how ∈ deeds → (how = .absent ↔ settings.enables c = false)

/-- The book in a phase: it is empty before the teardown, during the teardown it holds the steps
    that are over, and at the end all of them. -/
def Phase.Accounted (settings : Settings) (deeds : List Deed) : Phase → Prop
  | .closing steps _ report =>
    deeds.map Deed.step ++ steps = teardown ∧ Accounts settings deeds report
  | .ended (.ok report) => deeds.map Deed.step = teardown ∧ Accounts settings deeds report
  | .ended (.error _) => deeds = []
  | _ => deeds = []

variable {σ : Type} {host : Host σ} {settings : Settings}

namespace Accounts

variable {deeds : List Deed} {report report' : Report} {d : Deed}

theorem nothing (settings : Settings) : Accounts settings [] {} where
  failures := rfl
  teardownErrors := rfl
  absent c how h := by simp at h

/-- A deed is added with what it owes. -/
theorem add (h : Accounts settings deeds report)
    (hfailures : report'.failures = report.failures ++ d.failure?.toList)
    (hteardown : report'.teardownErrors = report.teardownErrors ++ d.teardownError?.toList)
    (habsent : ∀ c how, d = .joined c how → (how = .absent ↔ settings.enables c = false)) :
    Accounts settings (deeds ++ [d]) report' where
  failures := by
    rw [hfailures, h.failures, List.filterMap_append]
    cases hd : d.failure? <;> simp [hd]
  teardownErrors := by
    rw [hteardown, h.teardownErrors, List.filterMap_append]
    cases hd : d.teardownError? <;> simp [hd]
  absent c how hmem := by
    rcases List.mem_append.mp hmem with hold | hnew
    · exact h.absent c how hold
    · exact habsent c how (List.mem_singleton.mp hnew).symm

/-- Nothing went wrong exactly if no deed owes an entry. -/
theorem wentWell_iff (h : Accounts settings deeds report) :
    report.wentWell = true ↔ ∀ d ∈ deeds, d.failure? = none ∧ d.teardownError? = none := by
  rw [Report.wentWell, h.failures, h.teardownErrors, Bool.and_eq_true, List.isEmpty_iff,
    List.isEmpty_iff, List.filterMap_eq_nil_iff, List.filterMap_eq_nil_iff, ← forall₂_and]

end Accounts

/-- A step of the teardown that is over goes from the steps to the book. -/
theorem map_step_add {deeds : List Deed} {d : Deed} {rest : List Teardown}
    (h : deeds.map Deed.step ++ d.step :: rest = teardown) :
    (deeds ++ [d]).map Deed.step ++ rest = teardown := by
  rw [List.map_append, List.append_assoc]
  exact h

/-- Every step of a supervisor keeps the book. -/
theorem Phase.Accounted.advance {w w' : σ} {phase phase' : Phase} {deed : Option Deed}
    {deeds : List Deed} (h : phase.Accounted settings deeds)
    (hstep : Advance host settings w phase deed phase' w') :
    phase'.Accounted settings (deeds ++ deed.toList) := by
  cases hstep with
  | asked _ =>
      exact ⟨map_step_add h.1, h.2.add (List.append_nil _).symm (List.append_nil _).symm (by simp)⟩
  | absent henabled =>
      refine ⟨map_step_add h.1, h.2.add (List.append_nil _).symm (List.append_nil _).symm ?_⟩
      rintro c how heq
      cases heq
      simp [henabled]
  | @joined c rest awaiting report how _ henabled _ =>
      refine ⟨map_step_add h.1, h.2.add ?_ ?_ ?_⟩
      · cases how <;> simp [Report.ended, Report.noteFailure, Deed.failure?]
      · cases how <;> simp [Report.ended, Report.noteFailure, Deed.teardownError?]
      · rintro c how heq
        cases heq
        simp [henabled]
  | overdue henabled _ _ _ _ =>
      refine ⟨map_step_add h.1, h.2.add (List.append_nil _).symm rfl ?_⟩
      rintro c how heq
      cases heq
      simp [henabled]
  | brokerStopped _ _ _ =>
      exact ⟨map_step_add h.1, h.2.add (List.append_nil _).symm (List.append_nil _).symm (by simp)⟩
  | brokerRefused _ _ _ =>
      exact ⟨map_step_add h.1, h.2.add (List.append_nil _).symm rfl (by simp)⟩
  | brokerOverdue _ _ =>
      exact ⟨map_step_add h.1, h.2.add (List.append_nil _).symm rfl (by simp)⟩
  | signalled _ =>
      obtain rfl : deeds = [] := h
      exact ⟨rfl, .nothing settings⟩
  | awaited _ _ _ _ => rwa [Option.toList_none, List.append_nil]
  | brokerAwaited _ _ _ => rwa [Option.toList_none, List.append_nil]
  | reported =>
      rw [Option.toList_none, List.append_nil]
      exact ⟨(List.append_nil _).symm.trans h.1, h.2⟩
  -- Before the teardown the book is empty, and an empty book stays so.
  | _ =>
      obtain rfl : deeds = [] := h
      rfl

/-! ## The life of a supervisor -/

/-- One turn of a supervisor: it moves on, and what it leaves goes into the book, or it stays
    where it is. -/
inductive Turn (host : Host σ) (settings : Settings) (w : σ) :
    Phase → List Deed → Phase → List Deed → Prop
  | moves {phase phase' : Phase} {deed : Option Deed} {w' : σ} (deeds : List Deed)
      (hstep : (step host settings phase).perform w = (.ok (some phase'), w'))
      (hdeed : Advance host settings w phase deed phase' w') :
      Turn host settings w phase deeds phase' (deeds ++ deed.toList)
  | rests {phase : Phase} (deeds : List Deed)
      (hstep : ∀ phase' w', (step host settings phase).perform w ≠ (.ok (some phase'), w')) :
      Turn host settings w phase deeds phase deeds

/-- A supervisor from its start on, turn by turn. What the world is like at a turn is up to
    others. -/
structure Life (host : Host σ) (settings : Settings) where
  world : Nat → σ
  phase : Nat → Phase
  /-- The steps of the teardown that are over. -/
  deeds : Nat → List Deed
  starting : phase 0 = .starting
  fresh : deeds 0 = []
  turn : ∀ n, Turn host settings (world n) (phase n) (deeds n) (phase (n + 1)) (deeds (n + 1))

/-- The phase after a turn in a world. -/
def Phase.next (host : Host σ) (settings : Settings) (w : σ) (phase : Phase) : Phase :=
  match ((step host settings phase).perform w).1 with
  | .ok (some phase') => phase'
  | _ => phase

/-- A turn leaves no choice. -/
theorem Turn.eq_next {w : σ} {phase phase' : Phase} {deeds deeds' : List Deed}
    (h : Turn host settings w phase deeds phase' deeds') : phase' = phase.next host settings w := by
  cases h with
  | moves _ hstep _ => rw [Phase.next, hstep]
  | rests _ hstep =>
      rcases hrun : (step host settings phase).perform w with ⟨answer, w'⟩
      rw [Phase.next, hrun]
      match answer, hrun with
      | .ok (some phase'), hrun => exact (hstep phase' w' hrun).elim
      | .ok none, _ => rfl
      | .error _, _ => rfl

theorem exists_turn (host : Host σ) (settings : Settings) (w : σ) (phase : Phase)
    (deeds : List Deed) : ∃ phase' deeds', Turn host settings w phase deeds phase' deeds' := by
  by_cases hmoves : ∃ phase' w', (step host settings phase).perform w = (.ok (some phase'), w')
  · obtain ⟨phase', w', hstep⟩ := hmoves
    obtain ⟨deed, hdeed⟩ := step_iff_advance.mp hstep
    exact ⟨_, _, .moves deeds hstep hdeed⟩
  · exact ⟨_, _, .rests deeds fun phase' w' hstep => hmoves ⟨phase', w', hstep⟩⟩

/-- Whatever the world is like from turn to turn, a supervisor lives in it. -/
theorem exists_life (host : Host σ) (settings : Settings) (world : Nat → σ) :
    ∃ life : Life host settings, life.world = world := by
  choose phase deeds hturn using exists_turn host settings
  let states : Nat → Phase × List Deed := Nat.rec (.starting, []) fun n s =>
    (phase (world n) s.1 s.2, deeds (world n) s.1 s.2)
  exact ⟨⟨world, fun n => (states n).1, fun n => (states n).2, rfl, rfl, fun n => hturn _ _ _⟩, rfl⟩

namespace Life

/-- The book is kept all the time. -/
theorem accounted (life : Life host settings) (n : Nat) :
    (life.phase n).Accounted settings (life.deeds n) := by
  induction n with
  | zero =>
      rw [life.starting, life.fresh]
      rfl
  | succ n ih =>
      have hturn := life.turn n
      generalize life.phase (n + 1) = phase', life.deeds (n + 1) = deeds' at hturn
      cases hturn with
      | moves _ _ hdeed => exact ih.advance hdeed
      | rests _ _ => exact ih

/-- The worlds decide on all phases. -/
theorem phase_succ (life : Life host settings) (n : Nat) :
    life.phase (n + 1) = (life.phase n).next host settings (life.world n) :=
  (life.turn n).eq_next

/-- A supervisor that can move on does. -/
theorem phase_of_advance (life : Life host settings) {n : Nat} {phase phase' : Phase} {w' : σ}
    {deed : Option Deed} (hphase : life.phase n = phase)
    (h : Advance host settings (life.world n) phase deed phase' w') :
    life.phase (n + 1) = phase' := by
  have hstep := step_iff_advance.mpr ⟨deed, h⟩
  rw [life.phase_succ, hphase, Phase.next, hstep]

end Life

/-! ## The teardown comes to its end -/

/-- Whether the calls of a teardown are answered in a world, where the clock shows `time`. Only
    the broker may never answer, when it is to be stopped. -/
structure Responsive (host : Host σ) (time : σ → Nat) (w : σ) : Prop where
  stop : ∀ c, ∃ w', (host.stop c).perform w = (.ok (), w')
  join : ∀ c, ∃ how w₁ w₂ w₃, (host.ending c).perform w = (.ok how, w₁) ∧
    host.clock.perform w₁ = (.ok (time w), w₂) ∧ (host.abort c).perform w₂ = (.ok (), w₃)
  stopBroker : ∃ w₁, host.clock.perform w = (.ok (time w), w₁) ∧
    ∀ message, (host.broker.stop.perform w₁).1 ≠ .error (.crash message)

/-- How many turns a teardown takes at most, those not counted in which it waits. -/
def Phase.effort : Phase → Nat
  | .closing (.join _ :: rest) (.task _) _ => 2 * rest.length + 2
  | .closing (.stopBroker :: rest) (.broker _) _ => 2 * rest.length + 2
  | .closing steps _ _ => 2 * steps.length + 1
  | _ => 0

variable {w w' : σ} {steps : List Teardown} {awaiting : Awaiting} {report : Report}
  {time : σ → Nat}

/-- What has become of a teardown is the report, or a teardown with less to do. -/
theorem Advance.effort_lt {deed : Option Deed} {phase' : Phase}
    (h : Advance host settings w (.closing steps awaiting report) deed phase' w') :
    (∃ report', phase' = .ended (.ok report')) ∨
      ∃ steps' awaiting' report', phase' = .closing steps' awaiting' report' ∧
        phase'.effort < (Phase.closing steps awaiting report).effort := by
  cases h with
  | reported => exact Or.inl ⟨_, rfl⟩
  | asked _ => exact Or.inr ⟨_, _, _, rfl, by simp [Phase.effort]⟩
  | absent _ => exact Or.inr ⟨_, _, _, rfl, by cases awaiting <;> simp [Phase.effort]⟩
  | joined _ _ => exact Or.inr ⟨_, _, _, rfl, by cases awaiting <;> simp [Phase.effort]⟩
  | awaited _ _ _ hnew =>
      refine Or.inr ⟨_, _, _, rfl, ?_⟩
      cases awaiting with
      | task deadline => exact (hnew deadline rfl).elim
      | _ => simp [Phase.effort]; omega
  | overdue _ _ _ _ _ => exact Or.inr ⟨_, _, _, rfl, by simp [Phase.effort]⟩
  | brokerStopped _ _ _ =>
      exact Or.inr ⟨_, _, _, rfl, by cases awaiting <;> simp [Phase.effort]⟩
  | brokerRefused _ _ _ =>
      exact Or.inr ⟨_, _, _, rfl, by cases awaiting <;> simp [Phase.effort]⟩
  | brokerAwaited _ hnew _ =>
      refine Or.inr ⟨_, _, _, rfl, ?_⟩
      cases awaiting with
      | broker deadline => exact (hnew deadline rfl).elim
      | _ => simp [Phase.effort]; omega
  | brokerOverdue _ _ => exact Or.inr ⟨_, _, _, rfl, by simp [Phase.effort]⟩

/-- A teardown whose waiting is over moves on. -/
theorem Responsive.moves (h : Responsive host time w)
    (hready : ∀ deadline, (Phase.closing steps awaiting report).deadline? = some deadline →
      deadline ≤ time w) :
    ∃ deed phase' w', Advance host settings w (.closing steps awaiting report) deed phase' w' := by
  match steps with
  | [] => exact ⟨_, _, _, .reported⟩
  | .stop c :: rest =>
      obtain ⟨w', hcall⟩ := h.stop c
      exact ⟨_, _, _, .asked hcall⟩
  | .join c :: rest =>
      cases henabled : settings.enables c with
      | false => exact ⟨_, _, _, .absent henabled⟩
      | true =>
          obtain ⟨how, w₁, w₂, w₃, hending, hclock, habort⟩ := h.join c
          match how, awaiting, hready with
          | some how, _, _ => exact ⟨_, _, _, .joined henabled hending⟩
          | none, .task deadline, hready =>
              exact ⟨_, _, _, .overdue henabled hending hclock (hready deadline rfl) habort⟩
          | none, .nothing, _ => exact ⟨_, _, _, .awaited henabled hending hclock (by simp)⟩
          | none, .broker _, _ => exact ⟨_, _, _, .awaited henabled hending hclock (by simp)⟩
  | .stopBroker :: rest =>
      obtain ⟨w₁, hclock, hcrash⟩ := h.stopBroker
      by_cases hawaiting : ∃ deadline, awaiting = .broker deadline
      · obtain ⟨deadline, rfl⟩ := hawaiting
        exact ⟨_, _, _, .brokerOverdue hclock (hready deadline rfl)⟩
      · have hnew : ∀ deadline, awaiting ≠ .broker deadline := fun deadline heq =>
          hawaiting ⟨deadline, heq⟩
        rcases hcall : host.broker.stop.perform w₁ with ⟨answer, w₂⟩
        match answer, hcall with
        | .ok (.ok ()), hcall => exact ⟨_, _, _, .brokerStopped hclock hnew hcall⟩
        | .ok (.error cause), hcall => exact ⟨_, _, _, .brokerRefused hclock hnew hcall⟩
        | .error .never, hcall => exact ⟨_, _, _, .brokerAwaited hclock hnew hcall⟩
        | .error (.crash message), hcall => exact (hcrash message (congrArg Prod.fst hcall)).elim

namespace Life

/-- A supervisor that does not stay where it is for some turns moves on in one of them. -/
theorem moves_or_stays (life : Life host settings) (n i : Nat) :
    (∃ j deed w', n ≤ j ∧ Advance host settings (life.world j) (life.phase n) deed
      (life.phase (j + 1)) w') ∨ life.phase (n + i) = life.phase n := by
  induction i with
  | zero => exact Or.inr rfl
  | succ i ih =>
      rcases ih with hmoved | hstays
      · exact Or.inl hmoved
      · have hturn := life.turn (n + i)
        rw [hstays] at hturn
        rw [← Nat.add_assoc]
        generalize hnext : life.phase (n + i + 1) = next,
          life.deeds (n + i) = deeds, life.deeds (n + i + 1) = deeds' at hturn
        cases hturn with
        | moves _ _ hdeed => exact Or.inl ⟨n + i, _, _, Nat.le_add_right n i, hnext ▸ hdeed⟩
        | rests _ _ => exact Or.inr rfl

/-- A teardown moves on, at the latest when its deadline has passed. -/
theorem moves_on (life : Life host settings)
    (hanswers : ∀ n, Responsive host time (life.world n))
    (htime : ∀ t, ∃ n, ∀ m, n ≤ m → t ≤ time (life.world m)) {n : Nat}
    (hphase : life.phase n = .closing steps awaiting report) :
    ∃ j deed w', n ≤ j ∧ Advance host settings (life.world j) (.closing steps awaiting report)
      deed (life.phase (j + 1)) w' := by
  rw [← hphase]
  obtain ⟨late, hlate⟩ := htime ((life.phase n).deadline?.getD 0)
  rcases life.moves_or_stays n late with hmoved | hstays
  · exact hmoved
  · -- It is still there when the deadline has passed, and then nothing holds it.
    have hready : ∀ deadline, (Phase.closing steps awaiting report).deadline? = some deadline →
        deadline ≤ time (life.world (n + late)) := by
      intro deadline hdeadline
      have hle := hlate (n + late) (Nat.le_add_left late n)
      rwa [hphase, hdeadline] at hle
    obtain ⟨deed, phase', w', hmoves⟩ : ∃ deed phase' w', Advance host settings
        (life.world (n + late)) (.closing steps awaiting report) deed phase' w' :=
      (hanswers (n + late)).moves hready
    have hnext : life.phase (n + late + 1) = phase' :=
      life.phase_of_advance (hstays.trans hphase) hmoves
    refine ⟨n + late, deed, w', Nat.le_add_right n late, ?_⟩
    rwa [hnext, hphase]

/-- A teardown that has begun ends with a report. -/
theorem ends (life : Life host settings)
    (hanswers : ∀ n, Responsive host time (life.world n))
    (htime : ∀ t, ∃ n, ∀ m, n ≤ m → t ≤ time (life.world m)) {n : Nat}
    (hphase : life.phase n = .closing steps awaiting report) :
    ∃ m report', n ≤ m ∧ life.phase m = .ended (.ok report') := by
  generalize heffort : (Phase.closing steps awaiting report).effort = effort
  induction effort using Nat.strongRecOn generalizing n steps awaiting report with
  | _ effort ih =>
      subst heffort
      obtain ⟨j, deed, w', hle, hmoves⟩ := life.moves_on hanswers htime hphase
      rcases hmoves.effort_lt with ⟨report', hended⟩ | ⟨steps', awaiting', report', hnext, hlt⟩
      · exact ⟨j + 1, report', Nat.le_succ_of_le hle, hended⟩
      · rw [hnext] at hlt
        obtain ⟨m, report'', hle', hended⟩ := ih _ hlt hnext rfl
        exact ⟨m, report'', Nat.le_trans (Nat.le_succ_of_le hle) hle', hended⟩

end Life

/-- A supervisor that gets the shutdown signal comes to its end, and then it has taken every
    step of the teardown in order, whatever went wrong on the way. Its report has one entry for
    each component that ended badly while it was waited for, and one for each component and the
    broker that did not end in time or refused to, in the order of the steps; and it is clean
    exactly if nothing went wrong. -/
theorem teardown_complete (life : Life host settings)
    (hanswers : ∀ n, Responsive host time (life.world n))
    (htime : ∀ t, ∃ n, ∀ m, n ≤ m → t ≤ time (life.world m)) {n : Nat}
    (hwatching : life.phase n = .watching) {w' : σ}
    (hsignal : host.shutdown.perform (life.world n) = (.ok true, w')) :
    (∃ m report, n < m ∧ life.phase m = .ended (.ok report)) ∧
      ∀ m report, life.phase m = .ended (.ok report) →
        (life.deeds m).map Deed.step =
          [.stop .http, .stop .grpc, .join .http, .join .grpc, .stop .scheduler,
            .join .scheduler, .stop .sender, .join .sender, .stopBroker] ∧
        (∀ c how, Deed.joined c how ∈ life.deeds m →
          (how = .absent ↔ settings.enables c = false)) ∧
        report.failures = (life.deeds m).filterMap Deed.failure? ∧
        report.teardownErrors = (life.deeds m).filterMap Deed.teardownError? ∧
        (report.wentWell = true ↔
          ∀ d ∈ life.deeds m, d.failure? = none ∧ d.teardownError? = none) := by
  constructor
  · have hclosing : life.phase (n + 1) = .closing teardown .nothing {} :=
      life.phase_of_advance hwatching (.signalled hsignal)
    obtain ⟨m, report, hle, hended⟩ := life.ends hanswers htime hclosing
    exact ⟨m, report, hle, hended⟩
  · intro m report hended
    have haccounted := life.accounted m
    rw [hended] at haccounted
    obtain ⟨hsteps, haccounts⟩ := haccounted
    exact ⟨hsteps, haccounts.absent, haccounts.failures, haccounts.teardownErrors,
      haccounts.wentWell_iff⟩

/-! ## In a rehearsal -/

open Rehearsal (World)

/-- The supervisors of a rehearsal are answered, unless stopping the broker is to crash. -/
theorem responsive_host (i : Nat) {w : World} (hstop : w.faults.broker .stop ≠ some .crash) :
    Responsive (World.host i) World.clock w where
  stop c := ⟨_, rfl⟩
  join c := ⟨_, _, _, _, rfl, rfl, rfl⟩
  stopBroker := by
    refine ⟨w, rfl, fun message hcrash => ?_⟩
    have hcalled := congrArg Prod.fst
      (Rehearsal.perform_struck (fun v : World => v.faults.broker .stop) World.bareBroker.stop w)
    have hsame := hcrash.symm.trans hcalled
    rcases hfault : w.faults.broker .stop with - | fault
    · rw [hfault] at hsame
      cases hsame
    · rw [hfault] at hsame
      cases fault with
      | crash => exact hstop hfault
      | fail _ => cases hsame
      | hang => cases hsame

/-- A supervisor that waits a millisecond for each component. -/
def hurried : Settings where
  drain := 1
  components := [.http, .scheduler, .sender]

/-- A world whose shutdown signal has been given, at some time. The server of the supervisor hangs,
    its scheduler has panicked, its sender has failed, and the broker does not stop. -/
def signalledWorld (clock : Nat) : World where
  clock
  wall := Instant.first
  broker := { connected := true }
  faults := { broker := fun call => if call = .stop then some .hang else none }
  root := Shutdown.Channel.trigger {}
  tasks := [
    { job := .supervisor
        { settings := hurried, scheduler := 0, sender := 0
          children := [(.http, 1), (.scheduler, 2), (.sender, 3)] } },
    { job := .server true, status := .stuck },
    { job := .scheduler 0 none none, status := .ended .crashed },
    { job := .sender 0 .registering, status := .ended (.failed (.consumerClosed "q")) }]

/-- What went wrong in that world. -/
def signalledReport : Report where
  failures := [⟨"scheduler", "<panic>"⟩,
    ⟨"sender", "consumer stream for queue q closed unexpectedly"⟩]
  teardownErrors := [⟨"http", "drain timed out"⟩, ⟨"broker", "timed out"⟩]

/-- The phases of a supervisor in that world, turn by turn. -/
def signalledPhase : Nat → Phase
  | 0 => .starting
  | n + 1 => (signalledPhase n).next (World.host 0) hurried (signalledWorld n)

/-- The teardown waits for the server and for the broker, and then reports. -/
theorem signalledPhase_ended : signalledPhase 21 = .ended (.ok signalledReport) := rfl

/-- The teardown comes to its end and reports each of the failures, in the order of the steps. -/
theorem teardown_complete_signalled :
    ∃ life : Life (World.host 0) hurried,
      (∃ m report, 8 < m ∧ life.phase m = .ended (.ok report)) ∧
      life.phase 21 = .ended (.ok signalledReport) ∧ signalledReport.wentWell = false ∧
      (life.deeds 21).map Deed.step = teardown ∧
      (life.deeds 21).filterMap Deed.failure? = [⟨"scheduler", "<panic>"⟩,
        ⟨"sender", "consumer stream for queue q closed unexpectedly"⟩] ∧
      (life.deeds 21).filterMap Deed.teardownError? =
        [⟨"http", "drain timed out"⟩, ⟨"broker", "timed out"⟩] ∧
      Deed.joined .grpc .absent ∈ life.deeds 21 := by
  obtain ⟨life, hworld⟩ := exists_life (World.host 0) hurried signalledWorld
  have hphase : ∀ n, life.phase n = signalledPhase n := by
    intro n
    induction n with
    | zero => exact life.starting
    | succ n ih => rw [life.phase_succ, ih, hworld, signalledPhase]
  have hwatching : life.phase 8 = .watching := hphase 8
  have hended : life.phase 21 = .ended (.ok signalledReport) :=
    (hphase 21).trans signalledPhase_ended
  have hanswers : ∀ n, Responsive (World.host 0) World.clock (life.world n) := fun n => by
    rw [hworld]
    exact responsive_host 0 (by simp [signalledWorld])
  have htime : ∀ t, ∃ n, ∀ m, n ≤ m → t ≤ (life.world m).clock := fun t => by
    rw [hworld]
    exact ⟨t, fun _ h => h⟩
  have hsignal : (World.host 0).shutdown.perform (life.world 8) = (.ok true, signalledWorld 8) := by
    rw [hworld]
    rfl
  obtain ⟨hends, hexact⟩ := teardown_complete life hanswers htime hwatching hsignal
  obtain ⟨hsteps, habsent, hfailures, hteardown, -⟩ := hexact 21 signalledReport hended
  -- The wait for the missing server is among the steps, so it is in the book.
  have hjoin : Teardown.join .grpc ∈ (life.deeds 21).map Deed.step := by
    rw [hsteps]
    decide
  obtain ⟨d, hd, hstep⟩ := List.mem_map.mp hjoin
  refine ⟨life, hends, hended, rfl, hsteps, hfailures.symm, hteardown.symm, ?_⟩
  cases d with
  | joined c how =>
      cases hstep
      obtain rfl := (habsent .grpc how hd).mpr rfl
      exact hd
  | asked c => cases hstep
  | stopped how => cases hstep

end Almanac.Supervisor
