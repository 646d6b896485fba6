/-
  Almanac.Proofs.Broker.Sound

  What holds of the broker at every point of every run. In each queue the messages carry
  the name of the queue as their routing key, the tags of the unsettled deliveries ascend
  and have all been issued, and every consumer has a stream (`Queue.Sound`). Queues have
  different names, and no tag is in two of them (`State.Sound`).

  `Sound.perform` is the step and `run_sound` the run.
-/
import Almanac.Proofs.Broker.Effect
import Mathlib.Data.List.Induction

namespace Almanac.Broker

variable {β : Type}

/-! ## One queue -/

/-- A queue of a name is sound, given the latest delivery tag and the number of streams. -/
structure Queue.Sound (name : String) (lastTag streams : Nat) (q : Queue β) : Prop where
  /-- Messages carry the name of their queue. -/
  keyed : ∀ l ∈ q.labels, l.1 = name
  ascending : q.tags.Pairwise (· < ·)
  issued : ∀ t ∈ q.tags, t ≤ lastTag
  /-- Every consumer has a stream. -/
  fed : ∀ c ∈ q.consumers, c.stream < streams

namespace Queue.Sound

variable {name : String} {lastTag streams : Nat} {q : Queue β}

theorem mono (h : q.Sound name lastTag streams) {lastTag' streams' : Nat}
    (htag : lastTag ≤ lastTag') (hstreams : streams ≤ streams') :
    q.Sound name lastTag' streams' where
  keyed := h.keyed
  ascending := h.ascending
  issued t ht := Nat.le_trans (h.issued t ht) htag
  fed c hc := Nat.lt_of_lt_of_le (h.fed c hc) hstreams

/-- A queue that holds no other messages and no other tags and consumers stays sound. -/
theorem shrink (h : q.Sound name lastTag streams) {r : Queue β} (hlabels : r.labels ⊆ q.labels)
    (htags : r.tags.Sublist q.tags) (hconsumers : r.consumers ⊆ q.consumers) :
    r.Sound name lastTag streams where
  keyed l hl := h.keyed l (hlabels hl)
  ascending := h.ascending.sublist htags
  issued t ht := h.issued t (htags.mem ht)
  fed c hc := h.fed c (hconsumers hc)

theorem requeueIf (h : q.Sound name lastTag streams) (p : Nat → Unacked β → Bool) :
    (q.requeueIf p).Sound name lastTag streams :=
  h.shrink (q.requeueIf_labels_perm p).subset (q.requeueIf_tags_sublist p) (List.Subset.refl _)

theorem without (h : q.Sound name lastTag streams) (tag : String) :
    (q.without tag).Sound name lastTag streams :=
  h.shrink (Queue.requeueIf_labels_perm _ _).subset (Queue.requeueIf_tags_sublist _ _)
    List.filter_sublist.subset

theorem discardIf (h : q.Sound name lastTag streams) (p : Nat → Unacked β → Bool) :
    (q.discardIf p).Sound name lastTag streams := by
  have htags : (q.discardIf p).tags.Sublist q.tags := List.Sublist.map _ List.filter_sublist
  refine h.shrink (List.append_subset.mpr ⟨?_, ?_⟩) htags (List.Subset.refl _)
  · exact List.subset_append_left _ _
  · have hlabels : (q.discardIf p).unackedLabels ⊆ q.unackedLabels :=
      (List.Sublist.map _ List.filter_sublist).subset
    exact List.Subset.trans hlabels (List.subset_append_right _ _)

/-- A message for the queue waits in it. -/
theorem push (h : q.Sound name lastTag streams) {m : Message β} (hkey : m.routingKey = name) :
    ({ q with ready := q.ready ++ [m] } : Queue β).Sound name lastTag streams := by
  refine ⟨fun l hl => ?_, h.ascending, h.issued, h.fed⟩
  simp only [Queue.labels, Queue.readyLabels, List.map_append, List.map_cons, List.map_nil,
    List.mem_append, List.mem_singleton] at hl
  rcases hl with (hready | rfl) | hunacked
  · exact h.keyed l (List.mem_append_left _ hready)
  · exact hkey
  · exact h.keyed l (List.mem_append_right _ hunacked)

/-- A consumer with a stream of its own joins. -/
theorem join (h : q.Sound name lastTag streams) {c : Registration} (hc : c.stream < streams) :
    ({ q with consumers := q.consumers ++ [c] } : Queue β).Sound name lastTag streams := by
  refine ⟨h.keyed, h.ascending, h.issued, fun c' hc' => ?_⟩
  rcases List.mem_append.mp hc' with hold | hnew
  · exact h.fed c' hold
  · rw [List.mem_singleton.mp hnew]
    exact hc

/-- A new queue is empty. -/
theorem fresh (settings : QueueSettings) (name : String) (lastTag streams : Nat) :
    ({ settings } : Queue β).Sound name lastTag streams where
  keyed l hl := by simp [Queue.labels, Queue.readyLabels, Queue.unackedLabels] at hl
  ascending := List.Pairwise.nil
  issued t ht := by simp [Queue.tags] at ht
  fed c hc := by simp at hc

end Queue.Sound

/-- One round of a dispatch keeps its queue sound. -/
theorem Dispatching.Round.sound {d e : Dispatching β} (hround : Round d e) {name : String}
    (h : d.queue.Sound name d.lastTag d.streams.length) :
    e.queue.Sound name e.lastTag e.streams.length := by
  cases hround with
  | @lost message ready index consumer hready hindex hconsumer hclosed =>
      have hleft : (d.afterLoss index consumer).Sound name d.lastTag d.streams.length :=
        h.shrink (d.afterLoss_labels_perm index consumer).subset
          (d.afterLoss_tags_sublist index consumer) (List.eraseIdx_sublist _ _).subset
      exact hleft.mono (Nat.le_succ _) (Nat.le_refl _)
  | @handed message ready index consumer streams hready hindex hconsumer hoffer =>
      have hlength := Streams.offer_length hoffer
      refine ⟨fun l hl => ?_, ?_, fun t ht => ?_, fun c hc => ?_⟩
      · have hperm := d.afterHandOut_labels_perm index consumer hready
        exact h.keyed l (hperm.subset (List.mem_append_left _ hl))
      · rw [afterHandOut_tags]
        split
        · exact h.ascending
        · -- The new tag comes after every tag that was issued before.
          rw [List.pairwise_append]
          refine ⟨h.ascending, List.pairwise_singleton _ _, fun t ht t' ht' => ?_⟩
          rw [List.mem_singleton] at ht'
          have := h.issued t ht
          omega
      · rw [afterHandOut_tags] at ht
        split at ht
        · exact Nat.le_succ_of_le (h.issued t ht)
        · rcases List.mem_append.mp ht with hold | hnew
          · exact Nat.le_succ_of_le (h.issued t hold)
          · rw [List.mem_singleton] at hnew
            exact Nat.le_of_eq hnew
      · rw [hlength]
        exact h.fed c hc

theorem Dispatching.run_sound {d : Dispatching β} {name : String}
    (h : d.queue.Sound name d.lastTag d.streams.length) :
    d.run.queue.Sound name d.run.lastTag d.run.streams.length :=
  run_preserves (P := fun e => e.queue.Sound name e.lastTag e.streams.length)
    (fun _ _ hround => hround.sound) d h

/-! ## All queues -/

/-- A broker is sound when its queues are, under different names and with different tags. -/
structure State.Sound (s : State β) : Prop where
  names : s.queues.keys.Nodup
  queue : ∀ name q, s.queue? name = some q → q.Sound name s.lastTag s.streams.length
  apart : ∀ name q name' q', s.queue? name = some q → s.queue? name' = some q' →
    ∀ t, t ∈ q.tags → t ∈ q'.tags → name = name'

namespace State.Sound

variable {s : State β}

/-- A fresh broker is sound. -/
theorem fresh : ({} : State β).Sound where
  names := List.nodup_nil
  queue _ _ h := by simp [queue?] at h
  apart _ _ _ _ h := by simp [queue?] at h

/-- A change of one queue to a sound one, whose tags it had before or are new. -/
theorem replace (hs : s.Sound) {s' : State β} {name : String} {r : Queue β}
    (hqueues : s'.queues = s.queues.insert name r) (htag : s.lastTag ≤ s'.lastTag)
    (hstreams : s.streams.length ≤ s'.streams.length)
    (hr : r.Sound name s'.lastTag s'.streams.length)
    (htags : ∀ t ∈ r.tags, (∃ q, s.queue? name = some q ∧ t ∈ q.tags) ∨ s.lastTag < t) :
    s'.Sound := by
  have hlookup : ∀ other, s'.queue? other = if name = other then some r else s.queue? other :=
    fun other => by rw [queue?, hqueues]; exact Table.get?_insert _ _ _ _
  -- A tag of the changed queue is in no other queue.
  have hnew : ∀ other q, s.queue? other = some q → ∀ t, t ∈ r.tags → t ∈ q.tags →
      name = other := by
    intro other q hq t ht htq
    rcases htags t ht with ⟨old, hold, htold⟩ | hlt
    · exact hs.apart _ _ _ _ hold hq t htold htq
    · have := (hs.queue other q hq).issued t htq
      omega
  refine ⟨?_, fun other q hq => ?_, fun other q other' q' hq hq' t ht ht' => ?_⟩
  · rw [hqueues]
    exact Table.nodup_keys_insert hs.names _ _
  · rw [hlookup] at hq
    split at hq
    · next heq =>
      obtain rfl := Option.some.inj hq
      exact heq ▸ hr
    · exact (hs.queue other q hq).mono htag hstreams
  · rw [hlookup] at hq hq'
    split at hq <;> split at hq'
    · next heq heq' => exact heq.symm.trans heq'
    · next heq _ =>
      obtain rfl := Option.some.inj hq
      exact heq ▸ hnew other' q' hq' t ht ht'
    · next _ heq' =>
      obtain rfl := Option.some.inj hq'
      exact heq' ▸ (hnew other q hq t ht' ht).symm
    · exact hs.apart _ _ _ _ hq hq' t ht ht'

/-- Delivering a sound queue, whose tags were in that queue before. -/
theorem deliver (hs : s.Sound) {name : String} {r : Queue β}
    (hr : r.Sound name s.lastTag s.streams.length)
    (htags : ∀ t ∈ r.tags, ∃ q, s.queue? name = some q ∧ t ∈ q.tags) :
    (s.deliver name r).Sound := by
  refine hs.replace (deliver_queues s name r) ?_ ?_ ?_ ?_
  · exact (s.dispatching r).run_lastTag_le
  · exact Nat.le_of_eq (s.dispatching r).run_streams_length.symm
  · exact Dispatching.run_sound (d := s.dispatching r) hr
  · intro t ht
    rcases (s.dispatching r).run_tags ht with hold | hnew
    · exact Or.inl (htags t hold)
    · exact Or.inr hnew

/-- Returning deliveries and handing them out again. -/
theorem deliver_requeued (hs : s.Sound) {name : String} {q : Queue β}
    (hq : s.queue? name = some q) (p : Nat → Unacked β → Bool) :
    (s.deliver name (q.requeueIf p)).Sound :=
  hs.deliver ((hs.queue name q hq).requeueIf p)
    fun _ ht => ⟨q, hq, (q.requeueIf_tags_sublist p).mem ht⟩

/-- Changes that concern no queue keep a broker sound. -/
theorem congr (hs : s.Sound) {s' : State β} (hqueues : s'.queues = s.queues)
    (htag : s.lastTag ≤ s'.lastTag) (hstreams : s.streams.length ≤ s'.streams.length) :
    s'.Sound where
  names := by rw [hqueues]; exact hs.names
  queue name q hq := by
    rw [queue?, hqueues] at hq
    exact (hs.queue name q hq).mono htag hstreams
  apart := by
    simp only [queue?, hqueues]
    exact hs.apart

/-- Removing queues keeps a broker sound, and so does emptying their consumers' hands. -/
theorem restrict (hs : s.Sound) {s' : State β} (hnames : s'.queues.keys.Nodup)
    (htag : s'.lastTag = s.lastTag) (hstreams : s'.streams = s.streams)
    (hqueue : ∀ name r, s'.queue? name = some r → ∃ q, s.queue? name = some q ∧
      r.labels ⊆ q.labels ∧ r.tags.Sublist q.tags ∧ r.consumers ⊆ q.consumers) :
    s'.Sound where
  names := hnames
  queue name r hr := by
    obtain ⟨q, hq, hlabels, htags, hconsumers⟩ := hqueue name r hr
    rw [htag, hstreams]
    exact (hs.queue name q hq).shrink hlabels htags hconsumers
  apart name r name' r' hr hr' t ht ht' := by
    obtain ⟨q, hq, -, htags, -⟩ := hqueue name r hr
    obtain ⟨q', hq', -, htags', -⟩ := hqueue name' r' hr'
    exact hs.apart _ _ _ _ hq hq' t (htags.mem ht) (htags'.mem ht')

/-- A queue that has a delivery unsettled is the holder of its tag. -/
theorem holder?_of_lookup (hs : s.Sound) {name : String} {q : Queue β}
    {tag : Nat} {u : Unacked β} (hq : s.queue? name = some q)
    (hlookup : q.unacked.lookup tag = some u) : s.holder? tag = some (name, q, u.owner) := by
  cases hholder : s.holder? tag with
  | none =>
      -- The queue itself would have been found.
      have hnone := List.findSome?_eq_none_iff.mp hholder (name, q) (Table.mem_of_get? hq)
      simp [hlookup] at hnone
  | some found =>
      obtain ⟨name', q', owner⟩ := found
      obtain ⟨hq', u', hlookup', rfl⟩ := holder?_eq_some hs.names hholder
      -- The tag is in one queue only.
      obtain rfl : name = name' :=
        hs.apart name q name' q' hq hq' tag (mem_tags_of_lookup hlookup)
          (mem_tags_of_lookup hlookup')
      obtain rfl := Option.some.inj (hq.symm.trans hq')
      obtain rfl := Option.some.inj (hlookup.symm.trans hlookup')
      rfl

/-! ## The calls -/

/-- A stop keeps a broker sound. -/
theorem abandon (hs : s.Sound) {s' : State β}
    (hqueues : s'.queues = (s.queues.map fun e => (e.1, e.2.abandoned)).filter
      fun e => e.2.settings.durable)
    (htag : s'.lastTag = s.lastTag) (hstreams : s'.streams = s.streams) : s'.Sound := by
  refine hs.restrict ?_ htag hstreams fun name r hr => ?_
  · have hkeys : Table.keys (s.queues.map fun e => (e.1, e.2.abandoned)) = s.queues.keys :=
      Table.keys_map Queue.abandoned s.queues
    rw [hqueues]
    apply Table.nodup_keys_filter
    rw [hkeys]
    exact hs.names
  · rw [queue?, hqueues] at hr
    have hmem := (List.mem_filter.mp (Table.mem_of_get? hr)).1
    obtain ⟨⟨name', q⟩, hq, heq⟩ := List.mem_map.mp hmem
    obtain ⟨rfl, rfl⟩ := Prod.mk.inj heq
    exact ⟨q, Table.get?_of_mem hs.names hq, (Queue.requeueIf_labels_perm _ _).subset,
      Queue.requeueIf_tags_sublist _ _, List.nil_subset _⟩

theorem erase (hs : s.Sound) (name : String) :
    ({ s with queues := s.queues.erase name } : State β).Sound := by
  -- What a look-up still finds was there before.
  refine hs.restrict (Table.nodup_keys_filter hs.names _) rfl rfl fun other r hr => ?_
  rw [queue?, Table.get?_erase] at hr
  split at hr
  · simp at hr
  · exact ⟨r, hr, List.Subset.refl _, List.Sublist.refl _, List.Subset.refl _⟩

/-- A new stream concerns no queue. -/
theorem withStream (hs : s.Sound) : s.withStream.Sound :=
  hs.congr rfl (Nat.le_refl _) (by simp [State.withStream])

/-- A consumer joins its queue when its stream exists already. -/
theorem joined (hs : s.Sound) {settings : ConsumeSettings} {q : Queue β}
    (hq : s.queue? settings.queue = some q) :
    ({ q with consumers := q.consumers ++ [s.registration q settings] } : Queue β).Sound
      settings.queue s.withStream.lastTag s.withStream.streams.length := by
  have hlength : s.withStream.streams.length = s.streams.length + 1 := by simp [State.withStream]
  have hnew : (s.registration q settings).stream < s.withStream.streams.length := by
    show s.streams.length < s.withStream.streams.length
    omega
  exact (hs.withStream.queue _ _ hq).join hnew

/-- Every call keeps a broker sound. -/
theorem perform (hs : s.Sound) (c : Call β) : (s.perform c).Sound := by
  have heffect := effect_perform hs.names c
  generalize s.perform c = s' at heffect ⊢
  cases heffect with
  | idle => exact hs
  | started => exact hs.congr rfl (Nat.le_refl _) (Nat.le_refl _)
  | stopped => exact hs.abandon rfl rfl rfl
  | @declared settings =>
      refine hs.replace rfl (Nat.le_refl _) (Nat.le_refl _) (.fresh settings _ _ _) fun t ht => ?_
      simp [Queue.tags] at ht
  | published hconnected hexchange hq =>
      exact hs.deliver ((hs.queue _ _ hq).push rfl) fun t ht => ⟨_, hq, ht⟩
  | refused => exact hs.congr rfl (Nat.le_refl _) (Nat.le_refl _)
  | @consumed settings q hconnected hq =>
      exact hs.withStream.deliver (hs.joined hq) fun t ht => ⟨q, hq, ht⟩
  | @discarded _ tag multiple name q u hcall hconnected hq =>
      refine hs.replace rfl (Nat.le_refl _) (Nat.le_refl _) ((hs.queue _ _ hq).discardIf _)
        fun t ht => Or.inl ⟨q, hq, ?_⟩
      exact (List.Sublist.map _ List.filter_sublist).mem ht
  | returned hconnected hq => exact hs.deliver_requeued hq _
  | recovered => exact recoverIn_induction (fun s name q hq h => h.deliver_requeued hq _) _ hs
  | received => exact hs.congr rfl (Nat.le_refl _) (by simp)
  | closed => exact hs.congr rfl (Nat.le_refl _) (by simp)
  | removed => exact hs.erase _
  | @cancelled name tag q hq =>
      exact hs.deliver ((hs.queue _ _ hq).without tag)
        fun t ht => ⟨q, hq, (Queue.requeueIf_tags_sublist _ _).mem ht⟩

end State.Sound

/-- A broker is sound at every point of every run. -/
theorem State.run_sound (calls : List (Call β)) : (State.run calls).Sound := by
  induction calls using List.reverseRecOn with
  | nil => exact State.Sound.fresh
  | append_singleton calls c ih =>
      rw [State.run_concat]
      exact ih.perform c

end Almanac.Broker
