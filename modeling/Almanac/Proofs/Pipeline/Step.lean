/-
  Almanac.Proofs.Pipeline.Step

  Schedulers, a broker in memory and a sender that run beside each other. A `Pipeline` is what
  they share, the place where the sender is with a delivery, the ticks under way, and books of
  what was published, selected and handled. One `Step` is one call of one of them, or an
  arbitrary body that somebody else publishes, so a `Run` is any interleaving.

  The sender of the service (`run_of_sender_step`) and a tick as a whole (`run_of_tick`) are
  among the runs.
-/
import Almanac.Proofs.Broker.Run
import Almanac.Proofs.Scheduler.Step
import Almanac.Sender
import Mathlib.Logic.Relation

namespace Almanac

open Broker (Client Consumer ConsumeSettings Delivery PublishSettings Queue State)
open Scheduler (Stage Tick)

/-- What the parts of the service share. -/
structure Site (τ : Type) where
  broker : State Bytes
  storage : τ

variable {τ : Type}

namespace Site

/-- The broker in memory, as the parts see it. -/
def client : Client (Site τ) := Client.memory.zoom Site.broker fun b w => { w with broker := b }

/-- The calendar over a storage. -/
def calendar (storage : Storage τ) : Calendar (Site τ) :=
  ⟨storage.zoom Site.storage fun m w => { w with storage := m }⟩

/-- A scheduler. -/
def scheduler (storage : Storage τ) (settings : Scheduler.Settings) : Scheduler (Site τ) where
  settings
  calendar := calendar storage
  broker := client

/-- A sender that nobody stops. -/
def sender (settings : ConsumeSettings) : Sender (Site τ) where
  settings
  broker := client
  stopRequested := Action.answer false

/-- The broker in memory always answers, and so does each step of a sender over it. -/
theorem sender_answers (settings : ConsumeSettings) (t : Sender.Tally) (stage : Sender.Stage) :
    ((sender settings : Sender (Site τ)).step t stage).Answers := by
  have hleave : ∀ t c outcome,
      ((sender settings : Sender (Site τ)).leave t c outcome).Answers := fun _ _ _ =>
    .bind (fun _ => ⟨_, _, rfl⟩) fun _ => .pure _
  have hhandle : ∀ d, ((sender settings : Sender (Site τ)).handle t d).Answers := by
    intro d
    unfold Sender.handle
    split
    · exact .pure _
    · exact .bind (fun _ => ⟨_, _, rfl⟩) fun _ => .pure _
  match stage with
  | .registering =>
      refine .bind (fun _ => ⟨_, _, rfl⟩) fun answer => ?_
      cases answer <;> exact .pure _
  | .consuming c =>
      refine .bind (fun _ => ⟨_, _, rfl⟩) fun stop => ?_
      split
      · exact hleave _ _ _
      · refine .bind (fun _ => ⟨_, _, rfl⟩) fun found => ?_
        match found with
        | .delivery d => exact (hhandle d).bind fun _ => .pure _
        | .empty => exact .pure _
        | .ended =>
            refine .bind (fun _ => ⟨_, _, rfl⟩) fun stop => ?_
            split <;> exact hleave _ _ _
  | .ended _ => exact .pure _

/-- The storage cannot reach the broker. -/
theorem broker_of_zoom {α : Type} {act : Action τ α} {w w' : Site τ} {r : Except Stall α}
    (h : (Action.zoom Site.storage (fun m w => { w with storage := m }) act).perform w = (r, w')) :
    w'.broker = w.broker := by
  rw [Action.perform_zoom] at h
  cases h
  rfl

section

variable {w w' : Site τ}

theorem publish_ok {settings : PublishSettings} {body : Bytes} {answer : Except Broker.Error Unit}
    (h : (client.publish settings body).perform w = (.ok answer, w')) :
    w.broker.publish settings body = (answer, w'.broker) := by
  cases h
  rfl

theorem receive_ok {c : Consumer} {found : Broker.Received Bytes}
    (h : (client.receive c).perform w = (.ok found, w')) :
    w.broker.receive c = (found, w'.broker) := by
  cases h
  rfl

theorem ack_ok {tag : Nat} {multiple : Bool} {answer : Except Broker.Error Unit}
    (h : (client.ack tag multiple).perform w = (.ok answer, w')) :
    w.broker.ack tag multiple = (answer, w'.broker) := by
  cases h
  rfl

end

end Site

/-! ## What a step of a tick does to the broker -/

/-- The events that a tick at some stage is still going to publish. -/
def Scheduler.Stage.due : Stage → List Event
  | .publishing due => due
  | _ => []

/-- The body that a tick at some stage publishes next, if it can be written. -/
def Scheduler.Stage.bodies : Stage → List (Bytes × Option Event)
  | .publishing (e :: _) =>
    match e.announcement.encode with
    | .ok body => [(body, some e)]
    | .error _ => []
  | _ => []

/-- The events that a step of a tick has selected. -/
def Scheduler.Stage.selected : Stage → Option Stage → List Event
  | .selectingDue, some (.publishing due) => due
  | _, _ => []

namespace Site

variable {storage : Storage τ} {settings : Scheduler.Settings} {t t' : Tick} {stage : Stage}
  {next : Option Stage} {w w' : Site τ}

/-- A step of a tick leaves the broker alone, or publishes the announcement of a due event. -/
theorem broker_of_step
    (h : ((scheduler storage settings).step t stage).perform w = (.ok (t', next), w')) :
    (stage.bodies = [] ∧ w'.broker = w.broker) ∨
      ∃ e body, e ∈ stage.due ∧ e.announcement.encode = .ok body ∧
        stage.bodies = [(body, some e)] ∧
        w'.broker = (w.broker.publish settings.publish body).2 := by
  have hdoes := Scheduler.does_of_step _ h
  clear h
  match stage, hdoes with
  | .selectingDue, ⟨due, _, hselect⟩ =>
      refine Or.inl ⟨rfl, ?_⟩
      rcases Scheduler.selectDue_cases _ hselect with ⟨-, hanswer, -⟩ | ⟨-, -, -, e, hanswer, -⟩ |
        ⟨-, -, -, hw⟩
      · exact broker_of_zoom hanswer
      · exact broker_of_zoom hanswer
      · rw [hw]
  | .publishing (e :: due), ⟨_, hpublish⟩ =>
      obtain ⟨-, r, hannounce⟩ := Scheduler.publishOne_cases _ hpublish
      rcases Scheduler.announce_cases _ hannounce with ⟨cause, hencode, -, hw⟩ |
        ⟨body, answer, hencode, hsent, -⟩
      · -- The message is too large, and the broker is not asked.
        refine Or.inl ⟨?_, by rw [hw]⟩
        simp only [Scheduler.Stage.bodies, hencode]
      · refine Or.inr ⟨e, body, List.mem_cons_self, hencode, ?_, ?_⟩
        · simp only [Scheduler.Stage.bodies, hencode]
        · have hbroker : w.broker.publish settings.publish body = (answer, w'.broker) :=
            publish_ok hsent
          rw [hbroker]
  | .publishing [], ⟨_, _, hw⟩ => exact Or.inl ⟨rfl, by rw [hw]⟩
  | .selectingExpired, ⟨expired, _, hselect⟩ =>
      obtain ⟨-, r, hanswer⟩ := Scheduler.selectExpired_cases _ hselect
      exact Or.inl ⟨rfl, broker_of_zoom hanswer⟩
  | .purging (e :: expired), ⟨_, hpurge⟩ =>
      obtain ⟨-, r, hanswer⟩ := Scheduler.purgeOne_cases _ hpurge
      exact Or.inl ⟨rfl, broker_of_zoom hanswer⟩
  | .purging [], ⟨_, _, hw⟩ => exact Or.inl ⟨rfl, by rw [hw]⟩

/-- What a tick is going to publish was so before the step, or has just been selected. -/
theorem due_of_step
    (h : ((scheduler storage settings).step t stage).perform w = (.ok (t', next), w'))
    {stage' : Stage} (hnext : next = some stage') {e : Event} (he : e ∈ stage'.due) :
    e ∈ stage.due ∨ e ∈ stage.selected next := by
  have hdoes := Scheduler.does_of_step _ h
  clear h
  subst hnext
  match stage, hdoes with
  | .selectingDue, ⟨due, hnext, _⟩ =>
      cases hnext
      exact Or.inr he
  | .publishing (_ :: due), ⟨hnext, _⟩ =>
      cases hnext
      exact Or.inl (List.mem_cons_of_mem _ he)
  | .publishing [], ⟨hnext, _⟩ => cases hnext; cases he
  | .selectingExpired, ⟨_, hnext, _⟩ => cases hnext; cases he
  | .purging (_ :: _), ⟨hnext, _⟩ => cases hnext; cases he
  | .purging [], ⟨hnext, _⟩ => cases hnext

end Site

/-! ## The pipeline -/

namespace Pipeline

/-- Where the sender is with a delivery. -/
inductive Hand
  | free
  /-- Taken from the stream. -/
  | received (d : Delivery Bytes)
  /-- Read and counted, and not acknowledged yet. -/
  | counted (d : Delivery Bytes)

/-- The deliveries that the sender has taken and not acknowledged. -/
def Hand.taken : Hand → List (Delivery Bytes)
  | .free => []
  | .received d => [d]
  | .counted d => [d]

/-- The bodies that the sender has counted and not acknowledged. -/
def Hand.countedBodies : Hand → List Bytes
  | .counted d => [d.body]
  | _ => []

/-- A tick under way. -/
structure Errand where
  settings : Scheduler.Settings
  tick : Tick
  stage : Stage

end Pipeline

open Pipeline (Hand Errand)

/-- Schedulers, a broker and a sender, with their books. -/
structure Pipeline (τ : Type) where
  site : Site τ
  tally : Sender.Tally := {}
  hand : Hand := .free
  ticks : List Errand := []
  /-- What was published, and for which event if a tick published it. -/
  published : List (Bytes × Option Event) := []
  /-- The events that ticks have selected. -/
  selected : List Event := []
  /-- The bodies that the sender is done with. -/
  handled : List Bytes := []

namespace Pipeline

/-- Publishing with these settings reaches the queue of a name. -/
def Reaches (settings : PublishSettings) (name : String) : Prop :=
  settings.exchange = "" ∧ settings.routingKey = name

/-- The pipeline after a step of the tick in some place. -/
def advance (p : Pipeline τ) (i : Nat) (x : Errand) (t' : Tick) (next : Option Stage)
    (site : Site τ) : Pipeline τ :=
  { p with
    site
    ticks := match next with
      | some stage' => p.ticks.set i { x with tick := t', stage := stage' }
      | none => p.ticks.eraseIdx i
    published := p.published ++ x.stage.bodies
    selected := p.selected ++ x.stage.selected next }

/-- One call of one of the parts. -/
inductive Step (storage : Storage τ) (name : String) (c : Consumer) :
    Pipeline τ → Pipeline τ → Prop
  /-- Others use the storage. -/
  | interfere {p : Pipeline τ} (m : τ) :
      Step storage name c p { p with site := { p.site with storage := m } }
  /-- Somebody publishes a body. -/
  | publish {p : Pipeline τ} {settings : PublishSettings} {body : Bytes}
      {answer : Except Broker.Error Unit} {site : Site τ} (hreaches : Reaches settings name)
      (hcall : (Site.client.publish settings body).perform p.site = (.ok answer, site)) :
      Step storage name c p { p with site, published := p.published ++ [(body, none)] }
  /-- A tick begins when the clock reads `clock`. -/
  | begin {p : Pipeline τ} {settings : Scheduler.Settings} (tally : Scheduler.Tally)
      (clock : Instant) (hreaches : Reaches settings.publish name) :
      Step storage name c p
        { p with
          ticks := p.ticks ++ [⟨settings, Tick.begin settings tally clock, .selectingDue⟩] }
  /-- A tick under way makes its next call. -/
  | work {p : Pipeline τ} {i : Nat} {x : Errand} {t' : Tick} {next : Option Stage} {site : Site τ}
      (hx : p.ticks[i]? = some x)
      (hcall : ((Site.scheduler storage x.settings).step x.tick x.stage).perform p.site =
        (.ok (t', next), site)) :
      Step storage name c p (p.advance i x t' next site)
  /-- The sender takes a delivery. -/
  | receive {p : Pipeline τ} {d : Delivery Bytes} {site : Site τ} (hhand : p.hand = .free)
      (hcall : (Site.client.receive c).perform p.site = (.ok (.delivery d), site)) :
      Step storage name c p { p with site, hand := .received d }
  /-- The sender reads the body that it has taken. -/
  | read {p : Pipeline τ} {d : Delivery Bytes} (hhand : p.hand = .received d) :
      Step storage name c p { p with tally := p.tally.read d.body, hand := .counted d }
  /-- The sender acknowledges the delivery. -/
  | settle {p : Pipeline τ} {d : Delivery Bytes} {answer : Except Broker.Error Unit}
      {site : Site τ} (hhand : p.hand = .counted d)
      (hcall : (Site.client.ack d.tag false).perform p.site = (.ok answer, site)) :
      Step storage name c p
        { p with
          site
          tally := p.tally.settled answer
          hand := .free
          handled := p.handled ++ [d.body] }

/-- Any number of calls. -/
def Run (storage : Storage τ) (name : String) (c : Consumer) : Pipeline τ → Pipeline τ → Prop :=
  Relation.ReflTransGen (Step storage name c)

variable {storage : Storage τ} {name : String} {c : Consumer} {p : Pipeline τ}

/-! ## The parts as they run -/

/-- A sender that nobody stops, and whose stream is not at its end, waits or handles a
    delivery, which makes a run. -/
theorem run_of_sender_step {settings : ConsumeSettings} {progress : Sender.Progress}
    {site : Site τ} (hmanual : settings.autoAck = false) (hhand : p.hand = .free)
    (hopen : (p.site.broker.receive c).1 ≠ .ended)
    (h : ((Site.sender settings).step p.tally (.consuming c)).perform p.site =
      (.ok progress, site)) :
    (progress = .waits ∧ (p.site.broker.receive c).1 = .empty) ∨
      ∃ p', Run storage name c p p' ∧ p'.site = site ∧ p'.hand = .free ∧
        progress = .moved p'.tally (.consuming c) := by
  -- Nobody asks the sender to stop, so it looks into its stream.
  obtain ⟨stop, w, hstop, h⟩ := Action.perform_bind_eq_ok.mp h
  cases hstop
  obtain ⟨found, w₁, hreceive, h⟩ := Action.perform_bind_eq_ok.mp h
  cases found with
  | empty =>
      cases h
      exact Or.inl ⟨rfl, congrArg Prod.fst (Site.receive_ok hreceive)⟩
  | ended => exact (hopen (congrArg Prod.fst (Site.receive_ok hreceive))).elim
  | delivery d =>
      obtain ⟨tally, w₂, hhandle, h⟩ := Action.perform_bind_eq_ok.mp h
      cases h
      simp only [Sender.handle, Site.sender, hmanual] at hhandle
      obtain ⟨answer, w₃, hack, hhandle⟩ := Action.perform_bind_eq_ok.mp hhandle
      cases hhandle
      right
      -- Taking, reading and acknowledging are three calls.
      refine ⟨_, .head (.receive hhand hreceive) (.head (.read rfl) (.single (.settle rfl hack))),
        rfl, rfl, rfl⟩

/-- A tick that nobody disturbs is a run. -/
theorem run_of_finishes {settings : Scheduler.Settings} {i : Nat} {t t' : Tick} {stage : Stage}
    {w w' : Site τ} (h : (Site.scheduler storage settings).Finishes t stage w t' w')
    (hx : p.ticks[i]? = some ⟨settings, t, stage⟩) (hsite : p.site = w) :
    ∃ p', Run storage name c p p' ∧ p'.site = w' ∧ p'.ticks = p.ticks.eraseIdx i := by
  induction h generalizing p with
  | last h =>
      subst hsite
      exact ⟨_, .single (.work hx h), rfl, rfl⟩
  | @next t t₁ t' stage stage₁ w w₁ w' h hrest ih =>
      subst hsite
      have hlt : i < p.ticks.length := (List.getElem?_eq_some_iff.mp hx).1
      let q := p.advance i ⟨settings, t, stage⟩ t₁ (some stage₁) w₁
      have hq : q.ticks[i]? = some ⟨settings, t₁, stage₁⟩ := List.getElem?_set_self hlt
      -- The tick stays in its place until it ends.
      obtain ⟨p', hrun, hsite, hticks⟩ := ih (p := q) hq rfl
      refine ⟨p', .head (.work hx h) hrun, hsite, ?_⟩
      rw [hticks]
      exact List.eraseIdx_set_eq

/-- The tick as a whole is a run, which leaves the other ticks under way. -/
theorem run_of_tick {settings : Scheduler.Settings} {tally tally' : Scheduler.Tally}
    {clock : Instant} {r : Scheduler.Report} {w : Site τ} (hreaches : Reaches settings.publish name)
    (h : ((Site.scheduler storage settings).tick tally clock).perform p.site =
      (.ok (r, tally'), w)) :
    ∃ p', Run storage name c p p' ∧ p'.site = w ∧ p'.ticks = p.ticks := by
  obtain ⟨t, w₁, hwork, h⟩ := Action.perform_bind_eq_ok.mp h
  cases h
  let x : Errand := ⟨settings, Tick.begin settings tally clock, .selectingDue⟩
  let q : Pipeline τ := { p with ticks := p.ticks ++ [x] }
  have hx : q.ticks[p.ticks.length]? = some x := List.getElem?_concat_length
  obtain ⟨p', hrun, hsite, hticks⟩ :=
    run_of_finishes (Scheduler.finishes_of_work _ hwork) hx rfl
  refine ⟨p', .head (.begin tally clock hreaches) hrun, hsite, ?_⟩
  rw [hticks]
  exact List.eraseIdx_append_of_length_le (Nat.le_refl _) _ |>.trans (by simp)

end Pipeline

end Almanac
