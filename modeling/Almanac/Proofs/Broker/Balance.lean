/-
  Almanac.Proofs.Broker.Balance

  The books of every run are even. `State.weight` counts what the queues hold and what
  waits for automatic consumers; `weight_perform` says how each call changes it, and
  `run_even` follows by induction over the run.
-/
import Almanac.Proofs.Broker.Ledger
import Almanac.Proofs.Broker.Removal

namespace Almanac.Broker

variable {β : Type}

namespace State

/-- Consumers that take deliveries as acknowledged are the ones with a chosen stream. -/
def Marked (chosen : Nat → Bool) (s : State β) : Prop :=
  ∀ name q, s.queue? name = some q → q.Marked chosen

/-- How many messages with a property the queues hold or wait in the chosen streams. -/
def weight (chosen : Nat → Bool) (p : String × β → Bool) (s : State β) : Nat :=
  s.count p + (s.streams.labelsIn chosen).countP p

variable {s : State β} {chosen : Nat → Bool} {p : String × β → Bool}

theorem count_setQueue {name : String} {q r : Queue β} (hq : s.queue? name = some q) :
    (s.setQueue name r).count p + q.labels.countP p = s.count p + r.labels.countP p :=
  Table.total_insert_of_some _ r hq

/-- Delivering a queue changes the weight by what the queue held more or less before. -/
theorem weight_deliver {name : String} {q r : Queue β} (hq : s.queue? name = some q)
    (hr : r.Marked chosen) :
    (s.deliver name r).weight chosen p + q.labels.countP p =
      s.weight chosen p + r.labels.countP p := by
  have hrun := Dispatching.run_count (d := s.dispatching r) hr p
  have hcount := count_setQueue (p := p) (r := (s.dispatching r).run.queue) hq
  -- A dispatch changes the tables of queues and of streams only.
  have hqueues : (s.deliver name r).count p =
      (s.setQueue name (s.dispatching r).run.queue).count p := rfl
  have hstreams : (s.deliver name r).streams = (s.dispatching r).run.streams := rfl
  simp only [weight, hqueues, hstreams]
  simp only [dispatching] at hrun hcount ⊢
  omega

theorem Marked.deliver (hs : s.Marked chosen) {name : String} {r : Queue β}
    (hr : r.Marked chosen) : (s.deliver name r).Marked chosen := by
  intro other q hq
  rw [queue?_deliver] at hq
  split at hq
  · obtain rfl := Option.some.inj hq
    exact fun c hc => hr c ((s.dispatching r).run_consumers_sublist.mem hc)
  · exact hs other q hq

/-- A queue that changes inside keeps the weight when it holds the same messages. -/
theorem weight_deliver_perm {name : String} {q r : Queue β} (hq : s.queue? name = some q)
    (hr : r.Marked chosen) (hperm : r.labels.Perm q.labels) :
    (s.deliver name r).weight chosen p = s.weight chosen p := by
  have := weight_deliver (p := p) hq hr
  rw [hperm.countP_eq] at this
  omega

/-! ## Queues that go -/

theorem lostBy_eq_nil {c : Call β}
    (h : ∀ name q, s.queue? name = some q → ((s.perform c).queue? name).isSome = true)
    (hs : s.Sound) : s.lostBy c = [] := by
  have hnone : (s.queues.filter fun e => ((s.perform c).queue? e.1).isNone) = [] := by
    rw [List.filter_eq_nil_iff]
    rintro ⟨name, q⟩ hmem hnone
    -- The queue is there after the call, so it is not among those that go.
    have := h name q (Table.get?_of_mem hs.names hmem)
    rw [Option.isSome_iff_ne_none] at this
    exact this (Option.isNone_iff_eq_none.mp hnone)
  rw [lostBy, hnone]
  rfl

/-- Removing queues by a test takes away what they hold. -/
theorem countP_lostBy {c : Call β} (gone : String × Queue β → Bool)
    (h : ∀ name q, (name, q) ∈ s.queues →
      ((s.perform c).queue? name).isNone = gone (name, q)) :
    (s.lostBy c).countP p = Table.total (fun q => q.labels.countP p) (s.queues.filter gone) := by
  have hfilter : (s.queues.filter fun e => ((s.perform c).queue? e.1).isNone) =
      s.queues.filter gone :=
    List.filter_congr fun e he => h e.1 e.2 he
  rw [lostBy, hfilter, List.countP_flatMap]
  rfl

/-! ## Settling -/

/-- Discarding deliveries takes what an acknowledgement covers. -/
theorem countP_discard (q : Queue β) {tag : Nat} (multiple : Bool) {u : Unacked β}
    (hu : q.unacked.lookup tag = some u) :
    (q.discardIf (covers tag multiple u.owner)).labels.countP p +
        (q.settledBy tag multiple).countP p = q.labels.countP p := by
  -- What is covered and what is not make up the unsettled deliveries.
  have hsplit : ((q.unacked.filter fun e => !covers tag multiple u.owner e.1 e.2) ++
      q.unacked.filter fun e => covers tag multiple u.owner e.1 e.2).Perm q.unacked :=
    (List.perm_append_comm).trans (List.filter_append_perm _ _)
  have hlabels := (hsplit.map fun e : Nat × Unacked β => e.2.message.label).countP_eq p
  rw [List.map_append, List.countP_append] at hlabels
  simp only [Queue.settledBy, hu, Queue.labels, Queue.readyLabels, Queue.unackedLabels,
    Queue.discardIf, List.countP_append]
  omega

/-- What an acknowledgement settles is all in the queue that has its tag. -/
theorem countP_settledBy (hs : s.Sound) {tag : Nat} (multiple : Bool) {name : String}
    {q : Queue β} {u : Unacked β} (hq : s.queue? name = some q)
    (hu : q.unacked.lookup tag = some u) :
    (s.queues.flatMap fun (_, q) => q.settledBy tag multiple).countP p =
      (q.settledBy tag multiple).countP p := by
  have hother : ∀ other r, s.queue? other = some r → name ≠ other →
      r.settledBy tag multiple = [] := by
    intro other r hr hne
    cases hlookup : r.unacked.lookup tag with
    | none => simp [Queue.settledBy, hlookup]
    | some v =>
        -- A tag is in one queue only.
        exact (hne (hs.apart _ _ _ _ hq hr tag (mem_tags_of_lookup hu)
          (mem_tags_of_lookup hlookup))).elim
  rw [List.countP_flatMap]
  exact Table.total_eq_of_forall_ne (fun r => (r.settledBy tag multiple).countP p) hs.names hq
    fun other r hr hne => by rw [hother other r hr hne, List.countP_nil]

theorem settledBy_ack_eq_nil {tag : Nat} {multiple : Bool} (h : s.holder? tag = none) :
    (s.queues.flatMap fun (_, q) => q.settledBy tag multiple) = [] := by
  rw [List.flatMap_eq_nil_iff]
  rintro ⟨name, q⟩ hmem
  have := List.findSome?_eq_none_iff.mp h (name, q) hmem
  rw [Option.map_eq_none_iff] at this
  simp only [Queue.settledBy, this]

/-- A settlement that discards keeps the weight but for what it settles. -/
theorem weight_discard (hs : s.Sound) (tag : Nat) (multiple : Bool) :
    (s.settle tag multiple .discard).2.weight chosen p +
        (if s.connected then s.queues.flatMap fun (_, q) => q.settledBy tag multiple
          else []).countP p =
      s.weight chosen p := by
  rcases settle_cases s tag multiple .discard with
    ⟨heq, hclosed | hnone⟩ | ⟨name, q, owner, hconnected, hholder, heq⟩
  · rw [heq, if_neg (by simp [hclosed]), List.countP_nil, Nat.add_zero]
  · rw [heq, settledBy_ack_eq_nil hnone, ite_self, List.countP_nil, Nat.add_zero]
  · obtain ⟨hq, u, hu, rfl⟩ := holder?_eq_some hs.names hholder
    -- Of all queues only the holder changes, and it loses what is settled.
    have hcount := count_setQueue (p := p) (r := q.discardIf (covers tag multiple u.owner)) hq
    have hdiscard := countP_discard (p := p) q multiple hu
    rw [heq, if_pos hconnected, countP_settledBy hs multiple hq hu]
    simp only [weight]
    have hstreams : ∀ r, (s.setQueue name r).streams = s.streams := fun _ => rfl
    rw [hstreams]
    omega

theorem Marked.settle (hm : s.Marked chosen) (hs : s.Sound) (tag : Nat) (multiple : Bool)
    (how : Settlement) : (s.settle tag multiple how).2.Marked chosen := by
  rcases settle_cases s tag multiple how with ⟨heq, -⟩ | ⟨name, q, owner, -, hholder, heq⟩
  · rwa [heq]
  · obtain ⟨hq, -⟩ := holder?_eq_some hs.names hholder
    rw [heq]
    cases how with
    | requeue => exact hm.deliver (r := q.requeueIf _) (hm name q hq)
    | discard =>
        intro other r hr
        rw [queue?_setQueue] at hr
        split at hr
        · obtain rfl := Option.some.inj hr
          exact hm name q hq
        · exact hm other r hr

/-! ## Returning -/

theorem weight_requeue (hs : s.Sound) (hm : s.Marked chosen) (tag : Nat) (multiple : Bool) :
    (s.settle tag multiple .requeue).2.weight chosen p = s.weight chosen p := by
  rcases settle_cases s tag multiple .requeue with ⟨heq, -⟩ | ⟨name, q, owner, -, hholder, heq⟩
  · rw [heq]
  · obtain ⟨hq, -⟩ := holder?_eq_some hs.names hholder
    rw [heq]
    exact weight_deliver_perm hq (r := q.requeueIf _) (hm name q hq) (q.requeueIf_labels_perm _)

theorem weight_recoverIn (hm : s.Marked chosen) (order : List String) :
    (s.recoverIn order).weight chosen p = s.weight chosen p ∧
      (s.recoverIn order).Marked chosen := by
  refine recoverIn_induction
    (P := fun e => e.weight chosen p = s.weight chosen p ∧ e.Marked chosen) ?_ order ⟨rfl, hm⟩
  rintro e name q hq ⟨hweight, hmarked⟩
  have hr : (q.requeueIf fun _ _ => true).Marked chosen := hmarked name q hq
  rw [weight_deliver_perm hq hr (q.requeueIf_labels_perm _)]
  exact ⟨hweight, hmarked.deliver hr⟩

/-! ## Ending -/

/-- A stop takes away what the queues that are not durable hold. -/
theorem weight_stop (hs : s.Sound) :
    s.stop.weight chosen p + (s.lostBy .stop).countP p = s.weight chosen p := by
  by_cases hconnected : s.connected = true
  · have hlost : (s.lostBy .stop).countP p = Table.total (fun q => q.labels.countP p)
        (s.queues.filter fun e => !e.2.settings.durable) := by
      refine countP_lostBy (fun e => !e.2.settings.durable) fun name q hmem => ?_
      rw [perform, queue?_stop hs hconnected (Table.get?_of_mem hs.names hmem)]
      cases q.settings.durable <;> rfl
    have hkept : s.stop.count p = Table.total (fun q => q.labels.countP p)
        (s.queues.filter fun e => e.2.settings.durable) := by
      -- An abandoned queue holds what it held, all of it ready.
      have hmeasure : (fun q : Queue β => q.abandoned.labels.countP p) =
          fun q => q.labels.countP p :=
        funext fun q => (Queue.requeueIf_labels_perm _ _).countP_eq p
      -- Abandoning changes no settings, so the test may be made first.
      have hqueues : s.stop.queues =
          (s.queues.filter fun e => e.2.settings.durable).map fun e => (e.1, e.2.abandoned) := by
        unfold stop
        rw [if_pos hconnected]
        exact List.filter_map
      rw [count, hqueues, Table.total_map, hmeasure]
    have hstreams : s.stop.streams = s.streams := by
      unfold stop
      rw [if_pos hconnected]
    have htotal := Table.total_filter (fun q : Queue β => q.labels.countP p) s.queues
      fun e => e.2.settings.durable
    rw [weight, hkept, hlost, hstreams, weight, count]
    omega
  · -- A broker that is not connected does not stop again.
    have hsame : s.perform .stop = s := by rw [perform, stop, if_neg hconnected]
    have hnil : s.lostBy .stop = [] := by
      refine lostBy_eq_nil (fun name q hq => ?_) hs
      rw [hsame, hq]
      rfl
    rw [hnil, ← perform, hsame, List.countP_nil, Nat.add_zero]

theorem Marked.stop (hm : s.Marked chosen) : s.stop.Marked chosen := by
  by_cases hconnected : s.connected = true
  · intro name r hr c hc
    have hqueues : s.stop.queues =
        (s.queues.map fun (k, q) => (k, q.abandoned)).filter fun (_, q) => q.settings.durable := by
      unfold State.stop
      rw [if_pos hconnected]
    rw [queue?, hqueues] at hr
    obtain ⟨⟨name', q⟩, -, heq⟩ := List.mem_map.mp (List.mem_filter.mp (Table.mem_of_get? hr)).1
    obtain ⟨-, rfl⟩ := Prod.mk.inj heq
    simp [Queue.abandoned] at hc
  · rwa [State.stop, if_neg hconnected]

/-- A cancellation takes away what its queue holds, if the queue goes, and nothing else. -/
theorem weight_cancel (hs : s.Sound) (hm : s.Marked chosen) (name tag : String) :
    (s.cancel name tag).weight chosen p + (s.lostBy (.cancel name tag)).countP p =
        s.weight chosen p ∧
      (s.cancel name tag).Marked chosen := by
  have hkeeps : (∀ other q, s.queue? other = some q →
      ((s.cancel name tag).queue? other).isSome = true) → s.lostBy (.cancel name tag) = [] :=
    fun h => lostBy_eq_nil h hs
  rcases cancel_cases s name tag with heq | ⟨q, hq, ⟨-, -, heq⟩ | heq⟩
  · rw [hkeeps fun other q hq => by rw [heq, hq]; rfl, heq, List.countP_nil]
    exact ⟨rfl, hm⟩
  · -- The queue goes, and it is the only one that does.
    have hlost : (s.lostBy (.cancel name tag)).countP p =
        Table.total (fun q => q.labels.countP p) (s.queues.filter fun e => !(e.1 != name)) := by
      refine countP_lostBy (fun e => !(e.1 != name)) fun other r hmem => ?_
      have hget : s.queues.get? other = some r := Table.get?_of_mem hs.names hmem
      rw [perform, heq, queue?, Table.get?_erase, hget]
      by_cases hother : name = other
      · subst hother
        simp
      · simp [hother, Ne.symm hother]
    have htotal := Table.total_filter (fun q : Queue β => q.labels.countP p) s.queues
      fun e => e.1 != name
    refine ⟨?_, fun other r hr => ?_⟩
    · rw [hlost, heq]
      simp only [weight, count, Table.erase]
      omega
    · rw [heq, queue?, Table.get?_erase] at hr
      split at hr
      · simp at hr
      · exact hm other r hr
  · have hr : (q.without tag).Marked chosen := fun c hc => hm name q hq c (List.mem_filter.mp hc).1
    rw [hkeeps fun other r hr => by
      rw [heq]; exact isSome_queue?_deliver _ (by rw [hr]; rfl), heq, List.countP_nil]
    exact ⟨weight_deliver_perm hq hr (Queue.requeueIf_labels_perm _ _), hm.deliver hr⟩

/-! ## Receiving and leaving -/

theorem weight_receive (automatic : List Nat) (c : Consumer) :
    (s.receive c).2.weight (automatic.contains ·) p +
        (s.takenBy automatic (.receive c)).countP p =
      s.weight (automatic.contains ·) p := by
  rcases receive_cases s c with ⟨heq, hnone⟩ | ⟨stream, d, waiting, hstream, hwaiting, heq⟩
  · have htaken : s.takenBy automatic (.receive c) = [] := by
      cases hd : (s.receive c).1 with
      | delivery d => exact (hnone d hd).elim
      | empty => simp only [takenBy, hd]
      | ended => simp only [takenBy, hd]
    rw [htaken, heq, List.countP_nil, Nat.add_zero]
  · -- The stream loses its first delivery, which counts if the stream is chosen.
    have hset := Streams.countP_labelsIn_set p (automatic.contains ·) hstream
      { stream with waiting }
    simp only [Streams.share, Stream.labels, hwaiting, List.map_cons] at hset
    simp only [takenBy, heq, weight]
    have hcount : count p { s with streams := s.streams.set c.stream { stream with waiting } } =
        count p s := rfl
    rw [hcount]
    cases hcontains : automatic.contains c.stream
    · simp only [hcontains, Bool.false_eq_true, if_false] at hset
      simp only [Bool.false_eq_true, if_false, List.countP_nil]
      omega
    · simp only [hcontains, if_true, List.countP_cons] at hset
      simp only [if_true, List.countP_cons, List.countP_nil]
      omega

theorem weight_closeStream (c : Consumer) :
    (s.closeStream c).weight chosen p = s.weight chosen p := by
  unfold closeStream
  split
  · rfl
  · next stream hstream =>
    -- Closing a stream takes nothing out of it.
    have hset := Streams.countP_labelsIn_set p chosen hstream
      { stream with closed := true }
    simp only [Streams.share, Stream.labels] at hset
    simp only [weight, count]
    omega

theorem Marked.receive (hm : s.Marked chosen) (c : Consumer) : (s.receive c).2.Marked chosen := by
  rcases receive_cases s c with ⟨heq, -⟩ | ⟨stream, d, waiting, -, -, heq⟩
  · rwa [heq]
  · rw [heq]
    exact hm

theorem Marked.closeStream (hm : s.Marked chosen) (c : Consumer) :
    (s.closeStream c).Marked chosen := by
  unfold State.closeStream
  split
  · exact hm
  · exact hm

/-! ## Coming -/

theorem weight_declare (hm : s.Marked chosen) (settings : QueueSettings) :
    (s.declare settings).2.weight chosen p = s.weight chosen p ∧
      (s.declare settings).2.Marked chosen := by
  unfold declare
  split
  · exact ⟨rfl, hm⟩
  · cases hq : s.queue? settings.name with
    | some q => exact ⟨rfl, hm⟩
    | none =>
        have htotal := Table.total_insert_of_none (fun q : Queue β => q.labels.countP p)
          ({ settings } : Queue β) hq
        refine ⟨?_, fun name r hr c hc => ?_⟩
        · have hcount : (s.setQueue settings.name { settings }).count p = s.count p := htotal
          simp only [weight, hcount]
          rfl
        · simp only [queue?_setQueue] at hr
          split at hr
          · obtain rfl := Option.some.inj hr
            simp at hc
          · exact hm name r hr c hc

theorem weight_publish (hm : s.Marked chosen) (settings : PublishSettings) (body : β) :
    (s.publish settings body).2.weight chosen p =
        s.weight chosen p + (s.publishedBy (.publish settings body)).countP p ∧
      (s.publish settings body).2.Marked chosen := by
  by_cases hroutes : s.routes settings = true
  · obtain ⟨hconnected, hexchange, q, hq⟩ := routes_iff.mp hroutes
    have hr : ({ q with ready := q.ready ++ [message settings body] } : Queue β).Marked chosen :=
      hm _ q hq
    have hweight := weight_deliver (p := p) hq hr
    -- The queue holds one message more, at its end.
    have hlabels : ({ q with ready := q.ready ++ [message settings body] } :
        Queue β).labels.countP p =
          q.labels.countP p + [(settings.routingKey, body)].countP p := by
      simp only [Queue.labels, Queue.readyLabels, Queue.unackedLabels, List.map_append,
        List.map_cons, List.map_nil, List.countP_append, Message.label, message]
      omega
    rw [publish_routed body hconnected hexchange hq]
    simp only [publishedBy, hroutes, if_true]
    exact ⟨by omega, hm.deliver hr⟩
  · rw [publish_unrouted body (by simpa using hroutes)]
    have hnone : s.publishedBy (.publish settings body) = [] := if_neg hroutes
    rw [hnone, List.countP_nil, Nat.add_zero]
    exact ⟨rfl, hm⟩

/-- With its new stream a consumer is marked like the others. -/
theorem weight_consume {automatic : List Nat} (hs : s.Sound)
    (hm : s.Marked (automatic.contains ·)) (hopen : ∀ i ∈ automatic, i < s.streams.length)
    (settings : ConsumeSettings) :
    (s.consume settings).2.weight
          ((automatic ++ s.automaticBy (.consume settings)).contains ·) p =
        s.weight (automatic.contains ·) p ∧
      (s.consume settings).2.Marked
        ((automatic ++ s.automaticBy (.consume settings)).contains ·) := by
  rcases consume_cases s settings with ⟨e, n, heq⟩ | ⟨q, hconnected, hq, hadmits⟩
  · have hnone : s.automaticBy (.consume settings) = [] := by simp only [automaticBy, heq]
    rw [hnone, heq, List.append_nil]
    exact ⟨rfl, hm⟩
  · have heq := consume_admitted hconnected hq hadmits
    simp only [automaticBy, heq]
    generalize hadded : (if settings.autoAck = true then [s.streams.length] else []) = added
    -- The choice of old streams is as before, and the new one is chosen if it is automatic.
    have hold : ∀ i < s.streams.length,
        automatic.contains i = (automatic ++ added).contains i := by
      intro i hi
      have hnot : i ∉ added := by
        rw [← hadded]
        split
        · simpa using Nat.ne_of_lt hi
        · simp
      simp [hnot]
    have hnew : (automatic ++ added).contains s.streams.length = settings.autoAck := by
      -- No chosen stream has the place of the new one.
      have hnot : s.streams.length ∉ automatic := fun h => Nat.lt_irrefl _ (hopen _ h)
      rw [← hadded]
      cases settings.autoAck <;> simp [hnot]
    have hmarked : s.withStream.Marked ((automatic ++ added).contains ·) :=
      fun name r hr c hc =>
        (hm name r hr c hc).trans (hold c.stream ((hs.queue name r hr).fed c hc))
    have hr : ({ q with consumers := q.consumers ++ [s.registration q settings] } :
        Queue β).Marked ((automatic ++ added).contains ·) := by
      intro c hc
      rcases List.mem_append.mp hc with hc | hc
      · exact hmarked _ q hq c hc
      · rw [List.mem_singleton] at hc
        subst hc
        exact hnew.symm
    refine ⟨?_, hmarked.deliver hr⟩
    rw [weight_deliver_perm (s := s.withStream) hq hr (List.Perm.refl _)]
    simp only [weight, withStream, Streams.countP_labelsIn_fresh]
    rw [Streams.labelsIn_congr fun i hi => (hold i hi).symm]
    rfl

theorem deliver_streams_length (name : String) (q : Queue β) :
    (s.deliver name q).streams.length = s.streams.length :=
  (s.dispatching q).run_streams_length

/-- No call takes a stream away. -/
theorem streams_length_le (hs : s.Sound) (c : Call β) :
    s.streams.length ≤ (s.perform c).streams.length := by
  have heffect := effect_perform hs.names c
  generalize s.perform c = s' at heffect ⊢
  cases heffect with
  | published => exact Nat.le_of_eq (deliver_streams_length _ _).symm
  | @consumed settings q =>
      have hlength := deliver_streams_length (s := s.withStream) settings.queue
        { q with consumers := q.consumers ++ [s.registration q settings] }
      have hmore : s.withStream.streams.length = s.streams.length + 1 := by simp [withStream]
      omega
  | returned => exact Nat.le_of_eq (deliver_streams_length _ _).symm
  | recovered =>
      refine Nat.le_of_eq (recoverIn_induction
        (P := fun e => e.streams.length = s.streams.length) ?_ _ rfl).symm
      exact fun e name q _ h => (deliver_streams_length _ _).trans h
  | received => exact Nat.le_of_eq List.length_set.symm
  | closed => exact Nat.le_of_eq List.length_set.symm
  | cancelled => exact Nat.le_of_eq (deliver_streams_length _ _).symm
  | _ => exact Nat.le_refl _

/-! ## A call -/

theorem lostBy_eq_nil_of_ne (hs : s.Sound) {c : Call β} (hstop : c ≠ .stop)
    (hcancel : ∀ name tag, c ≠ .cancel name tag) : s.lostBy c = [] := by
  refine lostBy_eq_nil (fun name q hq => ?_) hs
  cases hafter : (s.perform c).queue? name with
  | some r => rfl
  | none =>
      rcases perform_removes hs hq hafter with ⟨rfl, -⟩ | ⟨tag, rfl, -⟩
      · exact (hstop rfl).elim
      · exact (hcancel name tag rfl).elim

theorem automaticBy_eq_nil {c : Call β} (h : ∀ settings, c ≠ .consume settings) :
    s.automaticBy c = [] := by
  cases c with
  | consume settings => exact (h settings rfl).elim
  | _ => rfl

/-- What a call puts in, and what was there, is there after it, was settled, was taken, or went
    with its queue. -/
theorem weight_perform {automatic : List Nat} (hs : s.Sound)
    (hm : s.Marked (automatic.contains ·)) (hopen : ∀ i ∈ automatic, i < s.streams.length)
    (c : Call β) :
    (s.perform c).weight ((automatic ++ s.automaticBy c).contains ·) p +
          (s.settledBy c).countP p + (s.takenBy automatic c).countP p + (s.lostBy c).countP p =
        s.weight (automatic.contains ·) p + (s.publishedBy c).countP p ∧
      (s.perform c).Marked ((automatic ++ s.automaticBy c).contains ·) := by
  -- Only a consumer that joins changes which streams are chosen.
  by_cases hconsume : ∃ settings, c = .consume settings
  · obtain ⟨settings, rfl⟩ := hconsume
    obtain ⟨hweight, hmarked⟩ := weight_consume (p := p) hs hm hopen settings
    rw [lostBy_eq_nil_of_ne hs (by simp) (by simp)]
    exact ⟨hweight, hmarked⟩
  · rw [automaticBy_eq_nil fun settings h => hconsume ⟨settings, h⟩, List.append_nil]
    cases c with
    | consume settings => exact (hconsume ⟨settings, rfl⟩).elim
    | start =>
        rw [lostBy_eq_nil_of_ne hs (by simp) (by simp)]
        exact ⟨rfl, hm⟩
    | stop => exact ⟨weight_stop hs, hm.stop⟩
    | declare settings =>
        rw [lostBy_eq_nil_of_ne hs (by simp) (by simp)]
        exact weight_declare hm settings
    | publish settings body =>
        rw [lostBy_eq_nil_of_ne hs (by simp) (by simp)]
        exact weight_publish hm settings body
    | ack tag multiple =>
        rw [lostBy_eq_nil_of_ne hs (by simp) (by simp)]
        exact ⟨weight_discard hs tag multiple, hm.settle hs tag multiple _⟩
    | nack tag multiple requeue =>
        rw [lostBy_eq_nil_of_ne hs (by simp) (by simp)]
        cases requeue with
        | false => exact ⟨weight_discard hs tag multiple, hm.settle hs tag multiple _⟩
        | true => exact ⟨weight_requeue hs hm tag multiple, hm.settle hs tag multiple _⟩
    | recover order =>
        rw [lostBy_eq_nil_of_ne hs (by simp) (by simp)]
        exact weight_recoverIn hm order
    | receive consumer =>
        rw [lostBy_eq_nil_of_ne hs (by simp) (by simp)]
        exact ⟨weight_receive automatic consumer, hm.receive consumer⟩
    | close consumer =>
        rw [lostBy_eq_nil_of_ne hs (by simp) (by simp)]
        exact ⟨weight_closeStream consumer, hm.closeStream consumer⟩
    | cancel name tag => exact weight_cancel hs hm name tag

end State

/-! ## A run -/

/-- The books are even when every message that was published is somewhere, once for each time it
    was published. -/
structure Ledger.Even (r : Ledger β) : Prop where
  sound : r.state.Sound
  marked : r.state.Marked (r.automatic.contains ·)
  opened : ∀ i ∈ r.automatic, i < r.state.streams.length
  balance : ∀ p : String × β → Bool, r.published.countP p =
    r.state.count p + r.settled.countP p + r.handed.countP p + r.lost.countP p

namespace Ledger

/-- A call that opens a stream for an automatic consumer opens one that exists afterwards. -/
theorem automaticBy_lt {s : State β} {c : Call β} {i : Nat} (h : i ∈ s.automaticBy c) :
    i < (s.perform c).streams.length := by
  cases c with
  | consume settings =>
      rw [State.perform]
      rcases State.consume_cases s settings with ⟨e, n, heq⟩ | ⟨q, hconnected, hq, hadmits⟩
      · simp [State.automaticBy, heq] at h
      · have heq := State.consume_admitted hconnected hq hadmits
        simp only [State.automaticBy, heq] at h
        split at h
        · rw [List.mem_singleton] at h
          rw [h, heq]
          dsimp only
          rw [State.deliver_streams_length]
          simp [State.withStream]
        · simp at h
  | _ => simp [State.automaticBy] at h

/-- A call keeps the books even. -/
theorem Even.enter {r : Ledger β} (hr : r.Even) (c : Call β) : (r.enter c).Even where
  sound := hr.sound.perform c
  marked := (State.weight_perform (p := fun _ => true) hr.sound hr.marked hr.opened c).2
  opened i hi := by
    rcases List.mem_append.mp hi with hold | hnew
    · exact Nat.lt_of_lt_of_le (hr.opened i hold) (State.streams_length_le hr.sound c)
    · exact automaticBy_lt hnew
  balance p := by
    -- The entries of a call balance what it changes, whatever is counted.
    have hstep := (State.weight_perform (p := p) hr.sound hr.marked hr.opened c).1
    have hbefore := hr.balance p
    simp only [handed, Ledger.enter, State.weight, List.countP_append] at hstep hbefore ⊢
    omega

/-- The books of every run are even. -/
theorem run_even (calls : List (Call β)) : (run calls).Even := by
  induction calls using List.reverseRecOn with
  | nil =>
      exact ⟨State.Sound.fresh, fun _ _ h => by simp [State.queue?] at h,
        fun _ h => by simp at h, fun _ => rfl⟩
  | append_singleton calls c ih =>
      rw [run_concat]
      exact ih.enter c

end Ledger

end Almanac.Broker
