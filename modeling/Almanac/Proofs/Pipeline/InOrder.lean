/-
  Almanac.Proofs.Pipeline.InOrder

  What is published to a queue that one sender serves is handled exactly once and in order. The
  books are tied to the broker by `Delivers`: what was published is what the sender is done with,
  then what it has in its hand, then what waits in its stream, and the tally of the sender is
  determined by the bodies that it has counted (`Tally.after`).

  `Delivers.step` is the step, `delivers_start` the beginning, and `published_in_order` the
  result for whole runs. `Delivers.drain` says that nothing gets stuck: from every point of a run
  the sender can be done with everything. `Delivers.sender` says it of the step that the sender of
  the service makes.
-/
import Almanac.Proofs.Broker.Owned
import Almanac.Proofs.Broker.Serving
import Almanac.Proofs.Notification
import Almanac.Proofs.Pipeline.Step
import Almanac.Proofs.Rehearsal.Reliable
import Almanac.Proofs.Sender

namespace Almanac

open Broker (Call ConsumeSettings Consumer Delivery PublishSettings Queue State)
open Rehearsal (dueEvent dueEvent_encodes dueTick dueWorld dueWorld_selection)
open Scheduler (Stage Tick)

/-! ## The invariant -/

namespace Pipeline

variable {τ : Type}

/-- The books of a pipeline agree with its broker, in which some deliveries wait for the sender. -/
structure Delivers (name : String) (c : Consumer) (p : Pipeline τ)
    (waiting : List (Delivery Bytes)) : Prop where
  serves : p.site.broker.Serves name c p.hand.taken waiting
  /-- What was published has been handled, is in the hand of the sender, or waits. -/
  bodies : p.published.map Prod.fst = p.handled ++ (p.hand.taken ++ waiting).map fun d => d.body
  tally : p.tally = .after (p.handled ++ p.hand.countedBodies) p.handled.length
  ticks : ∀ x ∈ p.ticks, Reaches x.settings.publish name ∧ ∀ e ∈ x.stage.due, e ∈ p.selected
  announced : ∀ body e, (body, some e) ∈ p.published →
    e ∈ p.selected ∧ e.announcement.encode = .ok body

namespace Delivers

variable {storage : Storage τ} {name : String} {c : Consumer} {p p' : Pipeline τ}
  {waiting : List (Delivery Bytes)}

/-- A call that publishes one body to the queue, or does nothing to the broker. -/
theorem extend (h : p.Delivers name c waiting) {broker : State Bytes}
    {entries : List (Bytes × Option Event)}
    (hcall : (entries = [] ∧ broker = p.site.broker) ∨
      ∃ settings body o, Reaches settings name ∧ entries = [(body, o)] ∧
        broker = (p.site.broker.publish settings body).2) :
    ∃ waiting', broker.Serves name c p.hand.taken waiting' ∧
      (p.published ++ entries).map Prod.fst =
        p.handled ++ (p.hand.taken ++ waiting').map fun d => d.body := by
  rcases hcall with ⟨rfl, rfl⟩ | ⟨settings, body, o, ⟨hexchange, hkey⟩, rfl, rfl⟩
  · refine ⟨waiting, h.serves, ?_⟩
    rw [List.append_nil]
    exact h.bodies
  · -- The body goes to the end of the stream, as it went to the end of the books.
    obtain ⟨-, x, hx, hserves⟩ := h.serves.publish hexchange hkey body
    have hbody : x.body = body := congrArg Broker.Message.body hx
    refine ⟨waiting ++ [x], hserves, ?_⟩
    rw [List.map_append, h.bodies]
    simp only [List.map_append, List.map_cons, List.map_nil, List.append_assoc, hbody]

/-- A step of a tick keeps what the ticks under way know. -/
theorem ticks_advance (h : p.Delivers name c waiting) {i : Nat} {x : Errand}
    (hx : p.ticks[i]? = some x) {t' : Tick} {next : Option Stage}
    {site : Site τ}
    (hcall : ((Site.scheduler storage x.settings).step x.tick x.stage).perform p.site =
      (.ok (t', next), site)) :
    ∀ y ∈ (p.advance i x t' next site).ticks, Reaches y.settings.publish name ∧
      ∀ e ∈ y.stage.due, e ∈ (p.advance i x t' next site).selected := by
  have hold : ∀ y ∈ p.ticks, Reaches y.settings.publish name ∧
      ∀ e ∈ y.stage.due, e ∈ p.selected ++ x.stage.selected next := fun y hy =>
    ⟨(h.ticks y hy).1, fun e he => List.mem_append_left _ ((h.ticks y hy).2 e he)⟩
  have hmem : x ∈ p.ticks := List.mem_of_getElem? hx
  intro y hy
  cases next with
  | none => exact hold y (List.mem_of_mem_eraseIdx hy)
  | some stage' =>
      rcases List.mem_or_eq_of_mem_set hy with hin | rfl
      · exact hold y hin
      · -- The tick itself may have selected events just now.
        refine ⟨(h.ticks x hmem).1, fun e he => ?_⟩
        rcases Site.due_of_step hcall rfl he with hdue | hselected
        · exact (hold x hmem).2 e hdue
        · exact List.mem_append_right _ hselected

/-- A step of a tick keeps the books. -/
theorem work (h : p.Delivers name c waiting) {i : Nat} {x : Errand}
    (hx : p.ticks[i]? = some x) {t' : Tick} {next : Option Stage}
    {site : Site τ}
    (hcall : ((Site.scheduler storage x.settings).step x.tick x.stage).perform p.site =
      (.ok (t', next), site)) :
    ∃ waiting', (p.advance i x t' next site).Delivers name c waiting' := by
  have hmem : x ∈ p.ticks := List.mem_of_getElem? hx
  have heffect := Site.broker_of_step hcall
  obtain ⟨waiting', hserves, hbodies⟩ : ∃ waiting',
      site.broker.Serves name c p.hand.taken waiting' ∧
        (p.published ++ x.stage.bodies).map Prod.fst =
          p.handled ++ (p.hand.taken ++ waiting').map fun d => d.body := by
    apply h.extend
    rcases heffect with hnone | ⟨e, body, -, -, hentries, hbroker⟩
    · exact Or.inl hnone
    · exact Or.inr ⟨_, body, some e, (h.ticks x hmem).1, hentries, hbroker⟩
  refine ⟨waiting', hserves, hbodies, h.tally, h.ticks_advance hx hcall, fun body e he => ?_⟩
  rcases List.mem_append.mp he with hold | hnew
  · obtain ⟨hselected, hencode⟩ := h.announced body e hold
    exact ⟨List.mem_append_left _ hselected, hencode⟩
  · -- The tick published it in this very step.
    rcases heffect with ⟨hnone, -⟩ | ⟨e', body', hdue, hencode, hentries, -⟩
    · rw [hnone] at hnew
      cases hnew
    · rw [hentries, List.mem_singleton] at hnew
      cases hnew
      exact ⟨List.mem_append_left _ ((h.ticks x hmem).2 e hdue), hencode⟩

/-! ## The sender -/

/-- The sender finds the first delivery that waits. -/
theorem receive (h : p.Delivers name c waiting) (hhand : p.hand = .free) {d : Delivery Bytes}
    {site : Site τ}
    (hcall : (Site.client.receive c).perform p.site = (.ok (.delivery d), site)) :
    ∃ rest, waiting = d :: rest ∧
      ({ p with site, hand := .received d } : Pipeline τ).Delivers name c rest := by
  have hserves := h.serves
  have hbodies := h.bodies
  have htally := h.tally
  rw [hhand] at hserves hbodies htally
  have hfound := Site.receive_ok hcall
  cases waiting with
  | nil =>
      -- An empty stream holds no delivery.
      rw [hserves.receive_nil] at hfound
      cases hfound
  | cons d' rest =>
      obtain ⟨hfirst, hafter⟩ := hserves.receive_cons
      rw [hfound] at hfirst hafter
      cases hfirst
      exact ⟨rest, rfl, hafter, hbodies, htally, h.ticks, h.announced⟩

/-- The sender counts what it has taken. -/
theorem read (h : p.Delivers name c waiting) {d : Delivery Bytes} (hhand : p.hand = .received d) :
    ({ p with tally := p.tally.read d.body, hand := .counted d } : Pipeline τ).Delivers name c
      waiting := by
  have hserves := h.serves
  have hbodies := h.bodies
  have htally := h.tally
  rw [hhand] at hserves hbodies htally
  refine ⟨hserves, hbodies, ?_, h.ticks, h.announced⟩
  show p.tally.read d.body = _
  rw [htally, Sender.Tally.read_after, List.append_assoc]
  rfl

/-- The acknowledgement succeeds, and settles what the sender has in its hand. -/
theorem settle (h : p.Delivers name c waiting) {d : Delivery Bytes} (hhand : p.hand = .counted d)
    {answer : Except Broker.Error Unit} {site : Site τ}
    (hcall : (Site.client.ack d.tag false).perform p.site = (.ok answer, site)) :
    answer = .ok () ∧
      ({ p with
        site
        tally := p.tally.settled answer
        hand := .free
        handled := p.handled ++ [d.body] } : Pipeline τ).Delivers name c waiting := by
  have hserves := h.serves
  have hbodies := h.bodies
  have htally := h.tally
  rw [hhand] at hserves hbodies htally
  obtain ⟨hanswer, hafter⟩ := hserves.ack
  rw [Site.ack_ok hcall] at hanswer hafter
  obtain rfl : answer = .ok () := hanswer
  refine ⟨rfl, hafter, ?_, ?_, h.ticks, h.announced⟩
  · rw [hbodies, List.append_assoc]
    rfl
  · show p.tally.settled (.ok ()) = _
    rw [htally, Sender.Tally.settled_after, List.length_append]
    simp only [Hand.countedBodies, List.append_nil]
    rfl

/-! ## Runs -/

/-- Every call keeps the books in agreement with the broker. -/
theorem step (h : p.Delivers name c waiting) (hstep : Step storage name c p p') :
    ∃ waiting', p'.Delivers name c waiting' := by
  cases hstep with
  | interfere m => exact ⟨waiting, h.serves, h.bodies, h.tally, h.ticks, h.announced⟩
  | @publish settings body answer site hreaches hcall =>
      have hbroker : site.broker = (p.site.broker.publish settings body).2 := by
        rw [Site.publish_ok hcall]
      obtain ⟨waiting', hserves, hbodies⟩ :=
        h.extend (Or.inr ⟨settings, body, none, hreaches, rfl, hbroker⟩)
      refine ⟨waiting', hserves, hbodies, h.tally, h.ticks, fun b e he => ?_⟩
      rcases List.mem_append.mp he with hold | hnew
      · exact h.announced b e hold
      · rw [List.mem_singleton] at hnew
        cases hnew
  | @begin settings tally clock hreaches =>
      refine ⟨waiting, h.serves, h.bodies, h.tally, fun y hy => ?_, h.announced⟩
      rcases List.mem_append.mp hy with hold | hnew
      · exact h.ticks y hold
      · rw [List.mem_singleton] at hnew
        subst hnew
        exact ⟨hreaches, fun e he => by cases he⟩
  | work hx hcall => exact h.work hx hcall
  | receive hhand hcall =>
      obtain ⟨rest, -, hafter⟩ := h.receive hhand hcall
      exact ⟨rest, hafter⟩
  | read hhand => exact ⟨waiting, h.read hhand⟩
  | settle hhand hcall => exact ⟨waiting, (h.settle hhand hcall).2⟩

theorem run (h : p.Delivers name c waiting) (hrun : Run storage name c p p') :
    ∃ waiting', p'.Delivers name c waiting' := by
  induction hrun with
  | refl => exact ⟨waiting, h⟩
  | tail _ hstep ih =>
      obtain ⟨_, hmiddle⟩ := ih
      exact hmiddle.step hstep

/-! ## Nothing gets stuck -/

/-- The sender can finish what it has in its hand. -/
theorem rest (storage : Storage τ) (h : p.Delivers name c waiting) :
    ∃ p', Run storage name c p p' ∧ p'.Delivers name c waiting ∧ p'.hand = .free ∧
      p'.published = p.published := by
  -- Once the delivery is counted only its acknowledgement is left.
  have hsettle : ∀ q : Pipeline τ, q.Delivers name c waiting → ∀ d, q.hand = .counted d →
      ∃ p', Step storage name c q p' ∧ p'.Delivers name c waiting ∧ p'.hand = .free ∧
        p'.published = q.published := fun q hq d hhand =>
    ⟨_, .settle hhand rfl, (hq.settle hhand rfl).2, rfl, rfl⟩
  cases hhand : p.hand with
  | free => exact ⟨p, .refl, h, hhand, rfl⟩
  | received d =>
      obtain ⟨p', hstep, hafter⟩ := hsettle _ (h.read hhand) d rfl
      exact ⟨p', .head (.read hhand) (.single hstep), hafter⟩
  | counted d =>
      obtain ⟨p', hstep, hafter⟩ := hsettle p h d hhand
      exact ⟨p', .single hstep, hafter⟩

/-- From every point of a run the sender can be done with all that was published. -/
theorem drain (storage : Storage τ) (h : p.Delivers name c waiting) :
    ∃ p', Run storage name c p p' ∧ p'.hand = .free ∧ p'.published = p.published ∧
      p'.handled = p.published.map Prod.fst := by
  induction waiting generalizing p with
  | nil =>
      obtain ⟨p', hrun, hafter, hfree, hpublished⟩ := h.rest storage
      have hbodies := hafter.bodies
      rw [hfree, hpublished] at hbodies
      refine ⟨p', hrun, hfree, hpublished, ?_⟩
      rw [hbodies]
      exact (List.append_nil _).symm
  | cons d waiting ih =>
      obtain ⟨q, hrun, hafter, hfree, hpublished⟩ := h.rest storage
      have hserves := hafter.serves
      rw [hfree] at hserves
      -- The sender takes the next delivery, and the rest follows.
      have hcall : (Site.client.receive c).perform q.site =
          (.ok (.delivery d), { q.site with broker := (q.site.broker.receive c).2 }) := by
        rw [← hserves.receive_cons.1]
        rfl
      obtain ⟨_, hrest, htaken⟩ := hafter.receive hfree hcall
      obtain ⟨-, rfl⟩ := List.cons.inj hrest
      obtain ⟨p', hrun', hfree', hpublished', hhandled⟩ := ih htaken
      refine ⟨p', hrun.trans (.head (.receive hfree hcall) hrun'), hfree', ?_, ?_⟩
      · exact hpublished'.trans hpublished
      · rw [hhandled]
        exact congrArg _ hpublished

/-! ## What it comes to -/

/-- What has not been handled is unsettled, in the order of the tags, and nothing else waits. -/
theorem queue (h : p.Delivers name c waiting) :
    ∃ q, p.site.broker.queue? name = some q ∧ q.ready = [] ∧ q.tags.Pairwise (· < ·) ∧
      p.published.map Prod.fst = p.handled ++ q.unacked.map fun e => e.2.message.body := by
  obtain ⟨q, r, hq, hready, -, -, -, hunacked⟩ := h.serves.queue
  refine ⟨q, hq, hready, (h.serves.sound.queue name q hq).ascending, ?_⟩
  rw [h.bodies, hunacked, List.map_map]
  rfl

/-- The stream never ends, and when nothing waits in it the sender is done with everything but
    what it has in its hand. -/
theorem receive_eq (h : p.Delivers name c waiting) :
    (∃ d, (p.site.broker.receive c).1 = .delivery d) ∨
      (p.site.broker.receive c).1 = .empty ∧
        p.published.map Prod.fst = p.handled ++ p.hand.taken.map fun d => d.body := by
  have hserves := h.serves
  have hbodies := h.bodies
  cases waiting with
  | nil =>
      refine Or.inr ⟨?_, ?_⟩
      · rw [hserves.receive_nil]
      · rwa [List.append_nil] at hbodies
  | cons d waiting => exact Or.inl ⟨d, hserves.receive_cons.1⟩

/-- The sender of the service waits when it is done with everything, and its step is a run
    otherwise. -/
theorem sender (h : p.Delivers name c waiting) (hfree : p.hand = .free)
    {settings : ConsumeSettings} (hmanual : settings.autoAck = false) (storage : Storage τ) :
    ∃ progress site,
      ((Site.sender settings).step p.tally (.consuming c)).perform p.site = (.ok progress, site) ∧
      ((progress = .waits ∧ p.published.map Prod.fst = p.handled) ∨
        ∃ p', Run storage name c p p' ∧ p'.site = site ∧ p'.hand = .free ∧
          progress = .moved p'.tally (.consuming c)) := by
  obtain ⟨progress, site, hstep⟩ := Site.sender_answers settings p.tally (.consuming c) p.site
  refine ⟨progress, site, hstep, ?_⟩
  have hopen : (p.site.broker.receive c).1 ≠ .ended := by
    rcases h.receive_eq with ⟨d, hfound⟩ | ⟨hfound, -⟩ <;> rw [hfound] <;> simp
  have hruns : (progress = .waits ∧ (p.site.broker.receive c).1 = .empty) ∨
      ∃ p', Run storage name c p p' ∧ p'.site = site ∧ p'.hand = .free ∧
        progress = .moved p'.tally (.consuming c) := run_of_sender_step hmanual hfree hopen hstep
  rcases hruns with ⟨hwaits, hempty⟩ | hmoved
  · -- Nothing waits in the stream, and nothing is in the hand.
    rcases h.receive_eq with ⟨d, hfound⟩ | ⟨-, hall⟩
    · rw [hfound] at hempty
      cases hempty
    · rw [hfree] at hall
      exact Or.inl ⟨hwaits, hall.trans (List.append_nil _)⟩
  · exact Or.inr hmoved

end Delivers

/-- The pipeline when a sender has registered on a queue: what was ready there counts as
    published. -/
def start (q : Queue Bytes) (site : Site τ) : Pipeline τ where
  site
  published := q.ready.map fun m => (m.body, none)

/-- A sender that registers on a queue without consumers finds what was ready there. -/
theorem delivers_start {calls : List (Call Bytes)} {settings : ConsumeSettings} {q : Queue Bytes}
    (hconnected : (State.run calls).connected = true)
    (hq : (State.run calls).queue? settings.queue = some q) (hnobody : q.consumers = [])
    (hmanual : settings.autoAck = false) (m : τ) :
    ∃ c broker waiting,
      ((Site.sender settings).step {} .registering).perform ⟨State.run calls, m⟩ =
        (.ok (.moved {} (.consuming c)), ⟨broker, m⟩) ∧
      (start q ⟨broker, m⟩).Delivers settings.queue c waiting := by
  -- Nobody was there, so nothing is unsettled.
  have hunacked := (State.run_owned calls _ q hq).unacked_eq_nil hnobody
  obtain ⟨c, waiting, hanswer, hwaiting, hserves⟩ :=
    State.serves_of_consume (State.run_sound calls) hconnected hq hnobody hunacked hmanual
  refine ⟨c, ((State.run calls).consume settings).2, waiting, ?_, hserves, ?_, rfl, ?_, ?_⟩
  · have hcall : (Site.client.consume settings).perform ⟨State.run calls, m⟩ =
        (.ok (.ok c), ⟨((State.run calls).consume settings).2, m⟩) := by
      rw [← hanswer]
      rfl
    exact Action.perform_bind_of_ok hcall _
  · show (q.ready.map _).map Prod.fst = [] ++ ([] ++ waiting).map _
    rw [← hwaiting]
    simp only [List.map_map, List.nil_append]
    rfl
  · exact fun x hx => by cases hx
  · intro body e he
    obtain ⟨_, _, heq⟩ := List.mem_map.mp he
    cases heq

/-- Whatever happens after a sender has registered alone on a queue, what was published there is
    handled in order and once: the rest is unsettled, every acknowledgement succeeds, and the
    announcements of a tick read as those of the events that it selected. The step of the sender
    itself and a tick as a whole are among what can happen. -/
theorem published_in_order {calls : List (Call Bytes)} {settings : ConsumeSettings}
    {q : Queue Bytes} (hconnected : (State.run calls).connected = true)
    (hq : (State.run calls).queue? settings.queue = some q) (hnobody : q.consumers = [])
    (hmanual : settings.autoAck = false) (storage : Storage τ) (m : τ) :
    ∃ c broker,
      ((Site.sender settings).step {} .registering).perform ⟨State.run calls, m⟩ =
        (.ok (.moved {} (.consuming c)), ⟨broker, m⟩) ∧
      ∀ p, Run storage settings.queue c (start q ⟨broker, m⟩) p →
        (∃ q', p.site.broker.queue? settings.queue = some q' ∧ q'.ready = [] ∧
          q'.tags.Pairwise (· < ·) ∧
          p.published.map Prod.fst = p.handled ++ q'.unacked.map fun e => e.2.message.body) ∧
        p.tally.ackFailures = 0 ∧ p.tally.acked = p.handled.length ∧
        (p.hand = .free → p.tally.acked = p.tally.received) ∧
        p.tally.malformed =
          (p.handled ++ p.hand.countedBodies).countP Notification.malformed ∧
        ((∃ d, (p.site.broker.receive c).1 = .delivery d) ∨
          (p.site.broker.receive c).1 = .empty ∧
            p.published.map Prod.fst = p.handled ++ p.hand.taken.map fun d => d.body) ∧
        (∃ p', Run storage settings.queue c p p' ∧ p'.hand = .free ∧
          p'.published = p.published ∧ p'.handled = p.published.map Prod.fst) ∧
        (∀ body e, (body, some e) ∈ p.published →
          e ∈ p.selected ∧ Notification.decode body = .ok e.announcement) ∧
        (p.hand = .free → ∃ progress site,
          ((Site.sender settings).step p.tally (.consuming c)).perform p.site =
            (.ok progress, site) ∧
          ((progress = .waits ∧ p.published.map Prod.fst = p.handled) ∨
            ∃ p', Run storage settings.queue c p p' ∧ p'.site = site ∧ p'.hand = .free ∧
              progress = .moved p'.tally (.consuming c))) ∧
        ∀ (scheduling : Scheduler.Settings) tally clock report tally' site,
          Reaches scheduling.publish settings.queue →
          ((Site.scheduler storage scheduling).tick tally clock).perform p.site =
            (.ok (report, tally'), site) →
          ∃ p', Run storage settings.queue c p p' ∧ p'.site = site ∧ p'.ticks = p.ticks := by
  obtain ⟨c, broker, _, hregister, hstart⟩ :=
    delivers_start hconnected hq hnobody hmanual m
  refine ⟨c, broker, hregister, fun p hrun => ?_⟩
  obtain ⟨waiting, h⟩ := hstart.run hrun
  have htally := h.tally
  refine ⟨h.queue, by rw [htally]; rfl, by rw [htally]; rfl, fun hfree => ?_, by rw [htally]; rfl,
    h.receive_eq, h.drain storage, fun body e he => ?_, fun hfree => h.sender hfree hmanual storage,
    fun _ _ _ _ _ _ hreaches htick => run_of_tick hreaches htick⟩
  · rw [htally, hfree]
    simp only [Sender.Tally.after, Hand.countedBodies, List.append_nil]
  · obtain ⟨hselected, hencode⟩ := h.announced body e he
    exact ⟨hselected, Notification.decode_of_encode hencode⟩

/-! ## A run -/

/-- The calls after which a broker has the queue that is used unless another is chosen. -/
def declared : List (Call Bytes) := [.start, .declare {}]

/-- The tick that finds the due event of a storage. -/
theorem selects_due (broker : State Bytes) :
    ((Site.scheduler Storage.memory {}).step dueTick .selectingDue).perform
        ⟨broker, dueWorld.memory⟩ =
      (.ok (dueTick.note (.selectedDue (.ok [dueEvent])), some (.publishing [dueEvent])),
        ⟨broker, dueWorld.memory⟩) := by
  have hanswer : ((Site.calendar Storage.memory).eventsDueBetween dueTick.after
      dueTick.now).perform ⟨broker, dueWorld.memory⟩ =
        (.ok (.ok [dueEvent]), ⟨broker, dueWorld.memory⟩) := by
    rw [← dueWorld_selection]
    rfl
  have hwindow : dueTick.hasWindow = true := by decide
  exact (Scheduler.step_of_call _ (Scheduler.call?_selectingDue _ hwindow) hanswer).1

/-- The tick announces the event. -/
theorem announces_due (broker : State Bytes) {body : Bytes}
    (hencode : dueEvent.announcement.encode = .ok body) (t : Tick) :
    ∃ t', ((Site.scheduler Storage.memory {}).step t (.publishing [dueEvent])).perform
        ⟨broker, dueWorld.memory⟩ =
      (.ok (t', some (.publishing [])), ⟨(broker.publish {} body).2, dueWorld.memory⟩) := by
  have hcall : (Site.client.publish {} body).perform ⟨broker, dueWorld.memory⟩ =
      (.ok (broker.publish {} body).1, ⟨(broker.publish {} body).2, dueWorld.memory⟩) := rfl
  have hannounce := Scheduler.announce_of_publish (Site.scheduler Storage.memory {}) hencode hcall
  exact ⟨_, (Scheduler.step_of_call _ rfl hannounce).1⟩

/-- A body that holds no notification and the announcement of a due event are handled, in this
    order. -/
theorem malformed_and_due_in_order :
    ∃ c broker p body,
      Run Storage.memory Broker.defaultQueue c
        (start { settings := {} } ⟨broker, dueWorld.memory⟩) p ∧
      p.published = [([33], none), (body, some dueEvent)] ∧ p.handled = [[33], body] ∧
      Notification.decode body = .ok dueEvent.announcement ∧
      p.tally.received = 2 ∧ p.tally.acked = 2 ∧ p.tally.ackFailures = 0 ∧
      p.tally.malformed = 1 := by
  obtain ⟨body, hencode⟩ := dueEvent_encodes
  have hq : (State.run declared).queue? ({} : ConsumeSettings).queue =
      some { settings := {} } := rfl
  obtain ⟨c, broker, -, hall⟩ :=
    published_in_order rfl hq rfl rfl Storage.memory dueWorld.memory
  obtain ⟨t', hannounce⟩ := announces_due (broker.publish {} [33]).2 hencode
    (dueTick.note (.selectedDue (.ok [dueEvent])))
  let p : Pipeline Storage.MemoryState :=
    { site := ⟨(broker.publish {} [33]).2, dueWorld.memory⟩
      ticks := [⟨{}, dueTick, .selectingDue⟩]
      published := [([33], none)] }
  have hbegun : Run Storage.memory Broker.defaultQueue c
      (start { settings := {} } ⟨broker, dueWorld.memory⟩) p := by
    have hreaches : Reaches {} Broker.defaultQueue := ⟨rfl, rfl⟩
    exact .head (.publish hreaches rfl) (.single (.begin {} dueEvent.notification hreaches))
  -- The tick selects the event and announces it behind the other body.
  have hsent := (hbegun.tail (.work (i := 0) rfl (selects_due _))).tail
    (.work (i := 0) rfl hannounce)
  obtain ⟨p', hrun, hfree, hpublished, hhandled⟩ := (hall _ hsent).2.2.2.2.2.2.1
  obtain ⟨-, hfailures, hacked, hreceived, hmalformed, -, -, hannounced, -⟩ :=
    hall p' (hsent.trans hrun)
  have hpublished' : p'.published = [([33], none), (body, some dueEvent)] := by
    rw [hpublished]
    show [([33], none)] ++ [] ++ Stage.bodies (.publishing [dueEvent]) = _
    simp only [Stage.bodies, hencode]
    rfl
  have hboth : p'.handled = [[33], body] := by
    rw [hhandled, ← hpublished, hpublished']
    rfl
  have hdecode := (hannounced body dueEvent (by rw [hpublished']; simp)).2
  have hgood : Notification.malformed body = false := by
    rw [Notification.malformed, hdecode]
    rfl
  have hbad : Notification.malformed [33] = true := by decide
  -- Both bodies count as received, and the first one as malformed.
  rw [hboth] at hacked hmalformed
  rw [hfree] at hmalformed
  refine ⟨c, broker, p', body, hsent.trans hrun, hpublished', hboth, hdecode, ?_, hacked, hfailures,
    ?_⟩
  · rw [← hreceived hfree, hacked]
    rfl
  · rw [hmalformed]
    simp [Hand.countedBodies, hgood, hbad]

end Pipeline

end Almanac
