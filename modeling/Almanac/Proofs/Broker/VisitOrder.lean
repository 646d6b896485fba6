/-
  Almanac.Proofs.Broker.VisitOrder

  A `recover` goes through the queues in an order that nothing fixes. It does not matter: in every
  order it answers the number of all unsettled deliveries, and the brokers that it leaves differ in
  the numbers of the tags that it gave out itself, and in nothing else (`recover_in_any_order`).

  Two queues share the counter of tags and no stream, so what returning one of them does to it is
  the same before and after the other has been returned, but for tags that lie further on. Returning
  them in the other order lets two blocks of tags change places (`deliver_comm`). Tags that have been
  given out are never looked at again, so the returns that follow do not notice
  (`recoverQueue_retag`), and every order is reached by exchanging neighbours
  (`foldl_recoverQueue_perm`).
-/
import Almanac.Proofs.Broker.Registered
import Almanac.Proofs.Broker.Retagged
import Almanac.Proofs.Broker.Settling
import Mathlib

namespace Almanac.Broker

variable {β : Type}

/-! ## Visiting the queues -/

namespace State

variable {s : State β} {name other : String}

/-- How many deliveries of a queue are unsettled, if there is a queue of that name. -/
def unsettledOf (s : State β) (name : String) : Nat :=
  match s.queue? name with
  | some q => q.unacked.length
  | none => 0

/-- Counts the unsettled deliveries of a queue on top of others, and returns them. -/
def visit (counted : Nat × State β) (name : String) : Nat × State β :=
  (counted.1 + counted.2.unsettledOf name, counted.2.recoverQueue name)

/-- Returns the unsettled deliveries of the named queues, one queue after the other, and answers how
    many it has come across. -/
def recoverVisiting (s : State β) (order : List String) : Outcome β Nat :=
  if !s.connected then (.error .notConnected, s)
  else
    let (count, s) := order.foldl visit (0, s)
    (.ok count, s)

theorem queue?_recoverQueue (h : name ≠ other) :
    (s.recoverQueue name).queue? other = s.queue? other := by
  rw [recoverQueue_eq]
  cases s.queue? name with
  | none => rfl
  | some q => rw [queue?_deliver, if_neg h]

/-- Returning a queue does not change what there is to count in the others, so it does not matter
    that the deliveries are counted on the way. -/
theorem foldl_visit (count : Nat) {order : List String} (hnodup : order.Nodup) :
    order.foldl visit (count, s) =
      (count + (order.map s.unsettledOf).sum, order.foldl recoverQueue s) := by
  induction order generalizing count s with
  | nil => rfl
  | cons name order ih =>
      rw [List.nodup_cons] at hnodup
      have hothers : order.map (s.recoverQueue name).unsettledOf = order.map s.unsettledOf := by
        refine List.map_congr_left fun other hother => ?_
        have hne : name ≠ other := fun heq => hnodup.1 (heq ▸ hother)
        rw [unsettledOf, queue?_recoverQueue hne, unsettledOf]
      rw [List.foldl_cons, visit, ih _ hnodup.2, hothers]
      simp [Nat.add_assoc]

/-- Every queue is counted once, whatever the order. -/
theorem sum_unsettledOf (hnames : s.queues.keys.Nodup) {order : List String}
    (h : order.Perm s.queues.keys) :
    (order.map s.unsettledOf).sum = s.queues.total fun q => q.unacked.length := by
  rw [(h.map _).sum_eq, Table.keys, List.map_map, Table.total]
  refine congrArg List.sum (List.map_congr_left fun e he => ?_)
  have hq : s.queue? e.1 = some e.2 := Table.get?_of_mem hnames he
  simp only [Function.comp_apply, unsettledOf, hq]

theorem outstanding_eq (s : State β) :
    s.outstanding = s.queues.total fun q => q.unacked.length := by
  rw [outstanding, List.length_flatMap]
  rfl

theorem recoverVisiting_eq (hconnected : s.connected = true) (hnames : s.queues.keys.Nodup)
    {order : List String} (h : order.Perm s.queues.keys) :
    s.recoverVisiting order =
      (.ok (s.queues.total fun q => q.unacked.length), order.foldl recoverQueue s) := by
  have hnodup : order.Nodup := h.nodup_iff.mpr hnames
  rw [recoverVisiting, if_neg (by simp [hconnected]), foldl_visit 0 hnodup]
  simp only [sum_unsettledOf hnames h, Nat.zero_add]

/-- The broker visits the queues as they stand in its table. -/
theorem recover_eq (hnames : s.queues.keys.Nodup) :
    s.recover = s.recoverVisiting s.queues.keys := by
  by_cases hconnected : s.connected = true
  · rw [recoverVisiting_eq hconnected hnames (List.Perm.refl _), ← outstanding_eq, recover,
      if_neg (by simp [hconnected])]
    rfl
  · have hclosed : (!s.connected) = true := by simpa using hconnected
    rw [recover, recoverVisiting, if_pos hclosed, if_pos hclosed]

/-- Two states are the same when a look-up finds the same queues, in the same order, and the streams
    and counters are the same. -/
theorem eq_of_queue? {t : State β} (hnodup : s.queues.keys.Nodup)
    (hconnected : s.connected = t.connected) (hlast : s.lastTag = t.lastTag)
    (hasked : s.asked = t.asked) (hkeys : s.queues.keys = t.queues.keys)
    (hqueue : ∀ name, s.queue? name = t.queue? name)
    (hstreams : ∀ id : Nat, s.streams[id]? = t.streams[id]?) : s = t := by
  have hqueues : s.queues = t.queues := Table.eq_of_get? hkeys hnodup hqueue
  have hsame : s.streams = t.streams := List.ext_getElem? hstreams
  cases s
  cases t
  simp only at hconnected hlast hasked hqueues hsame
  subst hconnected hlast hasked hqueues hsame
  rfl

end State

/-! ## Tags that have been given out -/

theorem mem_issuedIn_of_handedTo {l : List (Entry β)} {id : Nat} {d : Delivery β}
    (h : d ∈ handedTo id l) : d.tag ∈ issuedIn l := by
  obtain ⟨e, he, hhanded⟩ := List.mem_filterMap.mp h
  refine List.mem_filterMap.mpr ⟨e, he, ?_⟩
  cases e with
  | handed consumer x =>
      simp only [Entry.handedTo?] at hhanded
      split at hhanded
      · rw [Option.some.inj hhanded]
        rfl
      · cases hhanded
  | returned tag => cases hhanded
  | settled tag => cases hhanded

namespace State

variable {s s' : State β} {name : String}

/-- All deliveries in the streams have tags that were given out. -/
def Stamped (s : State β) : Prop := ∀ id, ∀ d ∈ s.streams.waitingIn id, d.tag ≤ s.lastTag

theorem Stamped.mono {l : List (Entry β)} {taken : Nat → List (Delivery β)} (h : s.Stamped)
    (htells : s.Tells l taken s') : s'.Stamped := by
  intro id d hd
  have hmem : d ∈ s.streams.waitingIn id ++ handedTo id l := by
    rw [← htells.streams id]
    exact List.mem_append_right _ hd
  rcases List.mem_append.mp hmem with hold | hnew
  · exact Nat.le_trans (h id d hold) htells.tags.le
  · exact (htells.tags.new _ (mem_issuedIn_of_handedTo hnew)).2

/-- What is needed of a broker to return its queues in any order. -/
structure Tidy (s : State β) : Prop where
  sound : s.Sound
  apart : s.StreamsApart
  stamped : s.Stamped

theorem run_tidy (calls : List (Call β)) : (run calls).Tidy where
  sound := run_sound calls
  apart := run_streamsApart calls
  stamped := by
    have hfresh : ({} : State β).Stamped := by
      intro id d hd
      simp [Streams.waitingIn] at hd
    exact hfresh.mono (tells_run calls)

namespace Tidy

theorem recoverQueue (h : s.Tidy) (name : String) : (s.recoverQueue name).Tidy where
  sound := h.sound.recoverQueue name
  apart := by
    have hback : ∀ other r, (s.recoverQueue name).Registered other r → s.Registered other r := by
      intro other r hr
      rw [recoverQueue_eq] at hr
      cases hq : s.queue? name with
      | none => rwa [hq] at hr
      | some q =>
          rw [hq] at hr
          exact registered_of_deliver hq hr (List.Subset.refl _)
    intro other r other' r' hr hr'
    exact h.apart other r other' r' (hback other r hr) (hback other' r' hr')
  stamped := h.stamped.mono (tells_recoverQueue h.sound name)

/-- The tags in a stream were given out. -/
theorem tag_le (h : s.Tidy) {id : Nat} {stream : Stream β} (hstream : s.streams[id]? = some stream) :
    ∀ d ∈ stream.waiting, d.tag ≤ s.lastTag := by
  intro d hd
  refine h.stamped id d ?_
  rwa [Streams.waitingIn_of_some hstream]

/-- A renaming that leaves the tags alone that were given out does not change the streams. -/
theorem stream_retag (h : s.Tidy) {ρ : Nat → Nat} (hρ : ∀ t ≤ s.lastTag, ρ t = t) (id : Nat) :
    s.streams[id]?.map (Stream.retag ρ) = s.streams[id]? := by
  cases hstream : s.streams[id]? with
  | none => rfl
  | some stream =>
      rw [Option.map_some, Stream.retag_eq_self fun d hd => hρ _ (h.tag_le hstream d hd)]

/-- Renamings that agree on the tags that were given out do the same to the streams. -/
theorem stream_retag_congr (h : s.Tidy) {ρ σ : Nat → Nat} (hρ : ∀ t ≤ s.lastTag, ρ t = σ t)
    (id : Nat) : s.streams[id]?.map (Stream.retag ρ) = s.streams[id]?.map (Stream.retag σ) := by
  cases hstream : s.streams[id]? with
  | none => rfl
  | some stream =>
      rw [Option.map_some, Option.map_some,
        Stream.retag_congr fun d hd => hρ _ (h.tag_le hstream d hd)]

/-- The same for the queues. -/
theorem queue_retag_congr (h : s.Tidy) {q : Queue β} (hq : s.queue? name = some q)
    {ρ σ : Nat → Nat} (hρ : ∀ t ≤ s.lastTag, ρ t = σ t) : q.retag ρ = q.retag σ :=
  Queue.retag_congr fun t ht => hρ t ((h.sound.queue name q hq).issued t ht)

end Tidy

end State

/-! ## Renaming -/

/-- A renaming of tags that lie in a range. -/
def Moves (lo hi : Nat) (ρ : Nat → Nat) : Prop := ∀ t, t ≤ lo ∨ hi < t → ρ t = t

theorem Moves.mono {lo hi lo' hi' : Nat} {ρ : Nat → Nat} (h : Moves lo hi ρ) (hlo : lo' ≤ lo)
    (hhi : hi ≤ hi') : Moves lo' hi' ρ := by
  intro t ht
  exact h t (by omega)

theorem Moves.comp {lo hi : Nat} {ρ σ : Nat → Nat} (hσ : Moves lo hi σ) (hρ : Moves lo hi ρ) :
    Moves lo hi (σ ∘ ρ) := by
  intro t ht
  rw [Function.comp_apply, hρ t ht, hσ t ht]

/-- Beyond the tag `last`, tags lie further on by `k`. -/
def later (last k t : Nat) : Nat := if t ≤ last then t else t + k

/-- Of the tags beyond `last`, the first `m` change places with the next `n`. -/
def exchange (last m n : Nat) : Equiv.Perm Nat where
  toFun t := if t ≤ last then t else if t ≤ last + m then t + n
    else if t ≤ last + m + n then t - m else t
  invFun t := if t ≤ last then t else if t ≤ last + n then t + m
    else if t ≤ last + n + m then t - n else t
  left_inv t := by
    dsimp only
    split_ifs <;> omega
  right_inv t := by
    dsimp only
    split_ifs <;> omega

theorem exchange_apply (last m n t : Nat) :
    exchange last m n t = if t ≤ last then t else if t ≤ last + m then t + n
      else if t ≤ last + m + n then t - m else t := rfl

/-- The first block goes behind the second one. -/
theorem exchange_of_le {last m n t : Nat} (h : t ≤ last + m) :
    exchange last m n t = later last n t := by
  rw [exchange_apply, later]
  split_ifs <;> omega

/-- The second block takes the place of the first one. -/
theorem exchange_later {last m n t : Nat} (h : t ≤ last + n) :
    exchange last m n (later last m t) = t := by
  rw [exchange_apply, later]
  split_ifs <;> omega

theorem moves_exchange (last m n : Nat) : Moves last (last + m + n) (exchange last m n) := by
  intro t ht
  rw [exchange_apply]
  split_ifs <;> omega

namespace State

variable {s : State β} {name : String} {ρ : Nat → Nat}

/-- A dispatch does not notice that tags have been renamed that were given out before. -/
theorem deliver_retag (hρ : ∀ t, s.lastTag < t → ρ t = t) (name : String) (r : Queue β) :
    (s.retag ρ).deliver name (r.retag ρ) = (s.deliver name r).retag ρ := by
  have hstart : (s.dispatching r).Retags ρ (fun _ => True)
      ((s.retag ρ).dispatching (r.retag ρ)) := by
    refine ⟨fun n => hρ _ ?_, rfl, fun _ _ => trivial, fun id _ => s.streams_retag id⟩
    show s.lastTag < s.lastTag + n + 1
    omega
  have hend := hstart.run
  have hle : s.lastTag ≤ (s.dispatching r).run.lastTag := (s.dispatching r).run_lastTag_le
  have hlast : ((s.retag ρ).dispatching (r.retag ρ)).run.lastTag =
      (s.dispatching r).run.lastTag := by
    have hnext := hend.next 0
    rw [hρ _ (by omega)] at hnext
    omega
  have hstreams : ((s.retag ρ).dispatching (r.retag ρ)).run.streams =
      (s.dispatching r).run.streams.map (Stream.retag ρ) := by
    refine List.ext_getElem? fun id => ?_
    rw [hend.streams id trivial, List.getElem?_map]
  have hqueues : (s.retag ρ).queues.insert name ((s.dispatching r).run.queue.retag ρ) =
      (s.queues.insert name (s.dispatching r).run.queue).map fun e => (e.1, e.2.retag ρ) :=
    (Table.map_insert (Queue.retag ρ) s.queues name _).symm
  unfold deliver
  simp only [setQueue, hend.queue, hlast, hstreams, hqueues]
  rfl

theorem recoverQueue_retag (hρ : ∀ t, s.lastTag < t → ρ t = t) (name : String) :
    (s.retag ρ).recoverQueue name = (s.recoverQueue name).retag ρ := by
  rw [recoverQueue_eq, recoverQueue_eq, queue?_retag]
  cases s.queue? name with
  | none => rfl
  | some q =>
      simp only [Option.map_some]
      rw [Queue.requeueIf_retag q fun _ => true]
      exact deliver_retag hρ name _

theorem lastTag_le_recoverQueue (s : State β) (name : String) :
    s.lastTag ≤ (s.recoverQueue name).lastTag := by
  rw [recoverQueue_eq]
  cases s.queue? name with
  | none => exact Nat.le_refl _
  | some q => exact (s.dispatching (q.requeueIf fun _ _ => true)).run_lastTag_le

theorem lastTag_le_foldl (s : State β) (order : List String) :
    s.lastTag ≤ (order.foldl recoverQueue s).lastTag := by
  induction order generalizing s with
  | nil => exact Nat.le_refl _
  | cons name order ih => exact Nat.le_trans (lastTag_le_recoverQueue s name) (ih _)

theorem foldl_recoverQueue_retag (hρ : ∀ t, s.lastTag < t → ρ t = t) (order : List String) :
    order.foldl recoverQueue (s.retag ρ) = (order.foldl recoverQueue s).retag ρ := by
  induction order generalizing s with
  | nil => rfl
  | cons name order ih =>
      rw [List.foldl_cons, List.foldl_cons, recoverQueue_retag hρ]
      refine ih fun t ht => hρ t ?_
      have hle := lastTag_le_recoverQueue s name
      omega

/-! ## Two queues -/

variable {a b : String} {qa qb ra rb : Queue β} {k m n : Nat}

/-- A queue is delivered after another one with which it shares no stream: its dispatch is the same
    as before, but for tags that lie further on. -/
theorem Tidy.retags_behind (h : s.Tidy) (hk : (s.deliver b rb).lastTag = s.lastTag + k)
    (hra : ra.unacked = [])
    (hfar : ∀ c ∈ ra.consumers, ∀ c' ∈ rb.consumers, c'.stream ≠ c.stream) :
    (s.dispatching ra).Retags (later s.lastTag k) (fun id => ∃ c ∈ ra.consumers, c.stream = id)
      ((s.deliver b rb).dispatching ra) where
  next n := by
    show later s.lastTag k (s.lastTag + n + 1) = (s.deliver b rb).lastTag + n + 1
    rw [later, hk]
    split_ifs <;> omega
  queue := (Queue.retag_eq_self fun t ht => by simp [Queue.tags, dispatching, hra] at ht).symm
  reach c hc := ⟨c, hc, rfl⟩
  streams := by
    rintro id ⟨c, hc, rfl⟩
    have hother : (s.deliver b rb).streams[c.stream]? = s.streams[c.stream]? :=
      (s.dispatching rb).run_streams_of_apart (hfar c hc)
    show (s.deliver b rb).streams[c.stream]? = s.streams[c.stream]?.map _
    rw [hother, h.stream_retag fun t ht => by rw [later, if_pos ht]]

/-- Behind another one, a queue uses as many tags as before. -/
theorem Tidy.lastTag_behind (h : s.Tidy) (hk : (s.deliver b rb).lastTag = s.lastTag + k)
    (hra : ra.unacked = [])
    (hfar : ∀ c ∈ ra.consumers, ∀ c' ∈ rb.consumers, c'.stream ≠ c.stream) :
    ((s.deliver b rb).deliver a ra).lastTag = (s.deliver a ra).lastTag + k := by
  have hnext := (h.retags_behind hk hra hfar).run.next 0
  have hle : s.lastTag ≤ (s.dispatching ra).run.lastTag := (s.dispatching ra).run_lastTag_le
  rw [later] at hnext
  show ((s.deliver b rb).dispatching ra).run.lastTag = (s.dispatching ra).run.lastTag + k
  split_ifs at hnext <;> omega

/-- In the other order the queues are the same but for the exchange of two blocks of tags. -/
theorem Tidy.queue?_deliver_comm (h : s.Tidy) (ha : (s.deliver a ra).Tidy)
    (hb : (s.deliver b rb).Tidy) (hne : a ≠ b)
    (hm : (s.deliver a ra).lastTag = s.lastTag + m) (hn : (s.deliver b rb).lastTag = s.lastTag + n)
    (hra : ra.unacked = []) (hrb : rb.unacked = [])
    (hfar : ∀ c ∈ ra.consumers, ∀ c' ∈ rb.consumers, c'.stream ≠ c.stream) (name : String) :
    ((s.deliver b rb).deliver a ra).queue? name =
      (((s.deliver a ra).deliver b rb).retag (exchange s.lastTag m n)).queue? name := by
  have hfar' : ∀ c ∈ rb.consumers, ∀ c' ∈ ra.consumers, c'.stream ≠ c.stream :=
    fun c hc c' hc' => (hfar c' hc' c hc).symm
  have hab := (h.retags_behind hm hrb hfar').run
  have hba := (h.retags_behind hn hra hfar).run
  rw [queue?_retag, queue?_deliver, queue?_deliver, queue?_deliver, queue?_deliver]
  by_cases hnamea : a = name
  · -- The first queue comes later in the other order.
    subst hnamea
    rw [if_pos rfl, if_neg (Ne.symm hne), if_pos rfl, Option.map_some, hba.queue]
    have hq : (s.deliver a ra).queue? a = some (s.dispatching ra).run.queue := by
      rw [queue?_deliver, if_pos rfl]
    rw [ha.queue_retag_congr hq fun t ht => exchange_of_le (hm ▸ ht)]
  · rw [if_neg hnamea, if_neg hnamea]
    by_cases hnameb : b = name
    · -- The second one comes earlier there.
      subst hnameb
      rw [if_pos rfl, if_pos rfl, Option.map_some, hab.queue, Queue.retag_retag]
      have hq : (s.deliver b rb).queue? b = some (s.dispatching rb).run.queue := by
        rw [queue?_deliver, if_pos rfl]
      have hback := hb.queue_retag_congr hq
        (ρ := exchange s.lastTag m n ∘ later s.lastTag m) (σ := id)
        fun t ht => exchange_later (hn ▸ ht)
      rw [hback, Queue.retag_id]
    · rw [if_neg hnameb, if_neg hnameb]
      cases hq : s.queue? name with
      | none => rfl
      | some q =>
          rw [Option.map_some, h.queue_retag_congr hq (σ := id), Queue.retag_id]
          intro t ht
          exact moves_exchange _ _ _ t (Or.inl ht)

/-- So are the streams. -/
theorem Tidy.streams_deliver_comm (h : s.Tidy) (ha : (s.deliver a ra).Tidy)
    (hb : (s.deliver b rb).Tidy)
    (hm : (s.deliver a ra).lastTag = s.lastTag + m) (hn : (s.deliver b rb).lastTag = s.lastTag + n)
    (hra : ra.unacked = []) (hrb : rb.unacked = [])
    (hfar : ∀ c ∈ ra.consumers, ∀ c' ∈ rb.consumers, c'.stream ≠ c.stream) (id : Nat) :
    ((s.deliver b rb).deliver a ra).streams[id]? =
      (((s.deliver a ra).deliver b rb).retag (exchange s.lastTag m n)).streams[id]? := by
  have hfar' : ∀ c ∈ rb.consumers, ∀ c' ∈ ra.consumers, c'.stream ≠ c.stream :=
    fun c hc c' hc' => (hfar c' hc' c hc).symm
  have hab := (h.retags_behind hm hrb hfar').run
  have hba := (h.retags_behind hn hra hfar).run
  rw [streams_retag]
  by_cases hida : ∃ c ∈ ra.consumers, c.stream = id
  · obtain ⟨c, hc, rfl⟩ := hida
    have hafter : ((s.deliver a ra).deliver b rb).streams[c.stream]? =
        (s.deliver a ra).streams[c.stream]? :=
      ((s.deliver a ra).dispatching rb).run_streams_of_apart (hfar c hc)
    rw [hafter, ha.stream_retag_congr fun t ht => exchange_of_le (hm ▸ ht)]
    exact hba.streams c.stream ⟨c, hc, rfl⟩
  · have hnota : ∀ c ∈ ra.consumers, c.stream ≠ id := fun c hc heq => hida ⟨c, hc, heq⟩
    have hbefore : ((s.deliver b rb).deliver a ra).streams[id]? =
        (s.deliver b rb).streams[id]? :=
      ((s.deliver b rb).dispatching ra).run_streams_of_apart hnota
    rw [hbefore]
    by_cases hidb : ∃ c ∈ rb.consumers, c.stream = id
    · have hlater : ((s.deliver a ra).deliver b rb).streams[id]? =
          (s.deliver b rb).streams[id]?.map (Stream.retag (later s.lastTag m)) :=
        hab.streams id hidb
      have hback := hb.stream_retag (ρ := exchange s.lastTag m n ∘ later s.lastTag m)
        (fun t ht => exchange_later (hn ▸ ht)) id
      rw [hlater, Option.map_map]
      have hcomp : Stream.retag (β := β) (exchange s.lastTag m n) ∘
          Stream.retag (later s.lastTag m) =
            Stream.retag (exchange s.lastTag m n ∘ later s.lastTag m) :=
        funext fun stream => stream.retag_retag
      rw [hcomp, hback]
    · -- Nobody is fed through this stream.
      have hnotb : ∀ c ∈ rb.consumers, c.stream ≠ id := fun c hc heq => hidb ⟨c, hc, heq⟩
      have hfirst : (s.deliver a ra).streams[id]? = s.streams[id]? :=
        (s.dispatching ra).run_streams_of_apart hnota
      have hsecond : (s.deliver b rb).streams[id]? = s.streams[id]? :=
        (s.dispatching rb).run_streams_of_apart hnotb
      have hboth : ((s.deliver a ra).deliver b rb).streams[id]? =
          (s.deliver a ra).streams[id]? :=
        ((s.deliver a ra).dispatching rb).run_streams_of_apart hnotb
      rw [hboth, hfirst, hsecond, h.stream_retag fun t ht => moves_exchange _ _ _ t (Or.inl ht)]

/-- Two queues that hold nothing unsettled and share no stream can be delivered in either order. The
    tags that one of them uses and those that the other one uses change places. -/
theorem Tidy.deliver_comm (h : s.Tidy) (ha : (s.deliver a ra).Tidy) (hb : (s.deliver b rb).Tidy)
    (hqa : s.queue? a = some qa) (hqb : s.queue? b = some qb) (hne : a ≠ b) (hra : ra.unacked = [])
    (hrb : rb.unacked = [])
    (hfar : ∀ c ∈ ra.consumers, ∀ c' ∈ rb.consumers, c'.stream ≠ c.stream) :
    ∃ ρ : Equiv.Perm Nat, Moves s.lastTag ((s.deliver a ra).deliver b rb).lastTag ρ ∧
      (s.deliver b rb).deliver a ra = ((s.deliver a ra).deliver b rb).retag ρ := by
  have hfar' : ∀ c ∈ rb.consumers, ∀ c' ∈ ra.consumers, c'.stream ≠ c.stream :=
    fun c hc c' hc' => (hfar c' hc' c hc).symm
  obtain ⟨m, hm⟩ : ∃ m, (s.deliver a ra).lastTag = s.lastTag + m :=
    Nat.exists_eq_add_of_le (s.dispatching ra).run_lastTag_le
  obtain ⟨n, hn⟩ : ∃ n, (s.deliver b rb).lastTag = s.lastTag + n :=
    Nat.exists_eq_add_of_le (s.dispatching rb).run_lastTag_le
  have hlastab : ((s.deliver a ra).deliver b rb).lastTag = s.lastTag + m + n := by
    rw [h.lastTag_behind hm hrb hfar', hn]
    omega
  have hlastba : ((s.deliver b rb).deliver a ra).lastTag = s.lastTag + m + n := by
    rw [h.lastTag_behind hn hra hfar, hm]
  have hqb' : (s.deliver a ra).queue? b = some qb := by rw [queue?_deliver, if_neg hne, hqb]
  have hqa' : (s.deliver b rb).queue? a = some qa := by
    rw [queue?_deliver, if_neg (Ne.symm hne), hqa]
  have hkeysab : ((s.deliver a ra).deliver b rb).queues.keys = s.queues.keys :=
    (sameBut_deliver hqb' rb).names.trans (sameBut_deliver hqa ra).names
  have hkeysba : ((s.deliver b rb).deliver a ra).queues.keys = s.queues.keys :=
    (sameBut_deliver hqa' ra).names.trans (sameBut_deliver hqb rb).names
  refine ⟨exchange s.lastTag m n, ?_, ?_⟩
  · rw [hlastab]
    exact moves_exchange _ _ _
  · refine eq_of_queue? ?_ rfl ?_ rfl ?_ ?_ ?_
    · rw [hkeysba]
      exact h.sound.names
    · rw [retag_lastTag, hlastab, hlastba]
    · rw [keys_retag, hkeysab, hkeysba]
    · exact h.queue?_deliver_comm ha hb hne hm hn hra hrb hfar
    · exact h.streams_deliver_comm ha hb hm hn hra hrb hfar

theorem recoverQueue_of_none (h : s.queue? name = none) : s.recoverQueue name = s := by
  rw [recoverQueue_eq, h]

theorem recoverQueue_of_some {q : Queue β} (h : s.queue? name = some q) :
    s.recoverQueue name = s.deliver name (q.requeueIf fun _ _ => true) := by
  rw [recoverQueue_eq, h]

/-- Two queues can be returned in either order. -/
theorem Tidy.recoverQueue_comm (h : s.Tidy) (hne : a ≠ b) :
    ∃ ρ : Equiv.Perm Nat, Moves s.lastTag ((s.recoverQueue a).recoverQueue b).lastTag ρ ∧
      (s.recoverQueue b).recoverQueue a = ((s.recoverQueue a).recoverQueue b).retag ρ := by
  have hstill : Moves s.lastTag ((s.recoverQueue a).recoverQueue b).lastTag (1 : Equiv.Perm Nat) :=
    fun _ _ => rfl
  have hfroma := queue?_recoverQueue (s := s) hne
  have hfromb := queue?_recoverQueue (s := s) (Ne.symm hne)
  cases hqa : s.queue? a with
  | none =>
      refine ⟨1, hstill, ?_⟩
      rw [Equiv.Perm.coe_one, retag_id, recoverQueue_of_none (hfromb.trans hqa),
        recoverQueue_of_none hqa]
  | some qa =>
      cases hqb : s.queue? b with
      | none =>
          refine ⟨1, hstill, ?_⟩
          rw [Equiv.Perm.coe_one, retag_id, recoverQueue_of_none (hfroma.trans hqb),
            recoverQueue_of_none hqb]
      | some qb =>
          have ha := h.recoverQueue a
          have hb := h.recoverQueue b
          rw [recoverQueue_of_some (hfroma.trans hqb), recoverQueue_of_some (hfromb.trans hqa)]
          rw [recoverQueue_of_some hqa] at ha ⊢
          rw [recoverQueue_of_some hqb] at hb ⊢
          refine h.deliver_comm ha hb hqa hqb hne ?_ ?_ ?_
          · rw [Queue.requeueIf_unacked]
            simp
          · rw [Queue.requeueIf_unacked]
            simp
          · rintro c hc c' hc' hstream
            rw [Queue.requeueIf_consumers] at hc hc'
            exact hne (h.apart a c b c' ⟨qa, hqa, hc⟩ ⟨qb, hqb, hc'⟩ hstream.symm).1

/-! ## All queues -/

/-- Queues can be returned in any order. The orders are exchanges of neighbours away from each
    other, and what comes behind an exchange does not notice it. -/
theorem Tidy.foldl_recoverQueue_perm (h : s.Tidy) {order order' : List String}
    (hperm : order.Perm order') (hnodup : order.Nodup) :
    ∃ ρ : Equiv.Perm Nat, Moves s.lastTag (order.foldl State.recoverQueue s).lastTag ρ ∧
      order'.foldl State.recoverQueue s = (order.foldl State.recoverQueue s).retag ρ := by
  induction hperm generalizing s with
  | nil => exact ⟨1, fun _ _ => rfl, by rw [Equiv.Perm.coe_one, retag_id]⟩
  | cons name _ ih =>
      obtain ⟨ρ, hmoves, heq⟩ := ih (h.recoverQueue name) (List.nodup_cons.mp hnodup).2
      exact ⟨ρ, hmoves.mono (lastTag_le_recoverQueue s name) (Nat.le_refl _), heq⟩
  | swap a b order =>
      have hne : b ≠ a := fun heq => by simp [heq] at hnodup
      obtain ⟨ρ, hmoves, heq⟩ := h.recoverQueue_comm hne
      refine ⟨ρ, hmoves.mono (Nat.le_refl _) (lastTag_le_foldl _ order), ?_⟩
      simp only [List.foldl_cons]
      rw [heq, foldl_recoverQueue_retag fun t ht => hmoves t (Or.inr ht)]
  | trans hfirst _ ih ih' =>
      obtain ⟨ρ, hmoves, heq⟩ := ih h hnodup
      obtain ⟨σ, hmoves', heq'⟩ := ih' h (hfirst.nodup_iff.mp hnodup)
      rw [heq, retag_lastTag] at hmoves'
      refine ⟨σ * ρ, ?_, ?_⟩
      · rw [Equiv.Perm.coe_mul]
        exact hmoves'.comp hmoves
      · rw [heq', heq, retag_retag, Equiv.Perm.coe_mul]

/-! ## What was unsettled before -/

/-- What is unsettled in a queue was handed out after a tag. -/
def NewIn (s : State β) (last : Nat) (name : String) : Prop :=
  ∀ q, s.queue? name = some q → ∀ t ∈ q.tags, last < t

/-- A queue that is returned has nothing unsettled when it is handed out again. -/
theorem Sound.newIn_recoverQueue_self (hs : s.Sound) (name : String) :
    (s.recoverQueue name).NewIn s.lastTag name := by
  intro r hr t ht
  rw [recoverQueue_eq] at hr
  cases hq : s.queue? name with
  | none =>
      rw [hq] at hr
      exact absurd (hq.symm.trans hr) (by simp)
  | some q =>
      rw [hq] at hr
      simp only [queue?_deliver, if_pos, Option.some.injEq] at hr
      subst hr
      have hexplains := Dispatching.explains (d := s.dispatching (q.requeueIf fun _ _ => true))
        ((hs.queue name q hq).requeueIf fun _ _ => true)
      have hnothing : (q.requeueIf fun _ _ => true).tags = [] := by
        rw [Queue.tags, Queue.requeueIf_unacked]
        simp
      rcases ((hexplains.still t).mp ht).1 with hold | hopened
      · simp [dispatching, hnothing] at hold
      · exact (hexplains.new t (mem_issuedIn_of_opened hopened)).1

theorem Sound.newIn_recoverQueue (hs : s.Sound) {last : Nat} (hlast : last ≤ s.lastTag)
    (h : s.NewIn last name) (other : String) : (s.recoverQueue other).NewIn last name := by
  by_cases hname : other = name
  · subst hname
    intro q hq t ht
    exact Nat.lt_of_le_of_lt hlast (hs.newIn_recoverQueue_self other q hq t ht)
  · intro q hq
    rw [queue?_recoverQueue hname] at hq
    exact h q hq

/-- What was visited has no delivery unsettled that was handed out before. -/
theorem Sound.newIn_foldl (hs : s.Sound) {last : Nat} (hlast : last ≤ s.lastTag)
    {order : List String} (h : name ∈ order ∨ s.NewIn last name) :
    (order.foldl State.recoverQueue s).NewIn last name := by
  induction order generalizing s with
  | nil => exact h.resolve_left (by simp)
  | cons first order ih =>
      refine ih (hs.recoverQueue first) (Nat.le_trans hlast (lastTag_le_recoverQueue s first)) ?_
      rcases h with hmem | hnew
      · rcases List.mem_cons.mp hmem with rfl | hlater
        · exact Or.inr fun q hq t ht =>
            Nat.lt_of_le_of_lt hlast (hs.newIn_recoverQueue_self name q hq t ht)
        · exact Or.inl hlater
      · exact Or.inr (hs.newIn_recoverQueue hlast hnew first)

end State

theorem Streams.waitingIn_retag (s : State β) (ρ : Nat → Nat) (id : Nat) :
    (s.retag ρ).streams.waitingIn id = (s.streams.waitingIn id).map (Delivery.retag ρ) := by
  rw [waitingIn, waitingIn, s.streams_retag id]
  cases s.streams[id]? <;> rfl

open State

/-- At every point of every run of a connected broker, a `recover` may visit the queues in any order.
    Two orders get the same answer, the number of the deliveries that are unsettled in all queues,
    and leave brokers that are the same but for a renaming of tags given out by the `recover` itself:
    the queues have the same messages ready, in the same order, the same consumers and cursors, and
    the same deliveries unsettled, and the consumers have got the same messages in the same order.
    No delivery that was handed out before is unsettled any more. -/
theorem recover_in_any_order {calls : List (Call β)} (hconnected : (run calls).connected = true)
    {order order' : List String} (horder : order.Perm (run calls).queues.keys)
    (horder' : order'.Perm (run calls).queues.keys) :
    (run calls).recover = (run calls).recoverVisiting (run calls).queues.keys ∧
    ∃ (t t' : State β) (ρ : Equiv.Perm Nat),
      (run calls).recoverVisiting order =
        (.ok ((run calls).queues.total fun q => q.unacked.length), t) ∧
      (run calls).recoverVisiting order' =
        (.ok ((run calls).queues.total fun q => q.unacked.length), t') ∧
      Moves (run calls).lastTag t.lastTag ρ ∧
      t' = t.retag ρ ∧
      (∀ name q, t.queue? name = some q → ∃ q', t'.queue? name = some q' ∧
        q'.settings = q.settings ∧ q'.ready = q.ready ∧ q'.consumers = q.consumers ∧
        q'.cursor = q.cursor ∧ q'.unacked.map (·.2) = q.unacked.map (·.2)) ∧
      (∀ id, ∃ handed,
        t.streams.waitingIn id = (run calls).streams.waitingIn id ++ handed ∧
        t'.streams.waitingIn id =
          (run calls).streams.waitingIn id ++ handed.map (Delivery.retag ρ)) ∧
      ∀ tag, t.Unsettled tag ∨ t'.Unsettled tag → (run calls).lastTag < tag := by
  have htidy : (run calls).Tidy := run_tidy calls
  have hnames := htidy.sound.names
  have hnodup : order.Nodup := horder.nodup_iff.mpr hnames
  obtain ⟨ρ, hmoves, heq⟩ := htidy.foldl_recoverQueue_perm (horder.trans horder'.symm) hnodup
  have hnew {visited : List String} (hvisited : visited.Perm (run calls).queues.keys) (tag : Nat)
      (hopen : (visited.foldl recoverQueue (run calls)).Unsettled tag) :
      (run calls).lastTag < tag := by
    obtain ⟨name, q, hq, htag⟩ := hopen
    refine htidy.sound.newIn_foldl (Nat.le_refl _) ?_ q hq tag htag
    by_cases hmem : name ∈ visited
    · exact Or.inl hmem
    · -- No queue of another name has been there.
      refine Or.inr fun r hr => absurd (hvisited.mem_iff.mpr ?_) hmem
      exact List.mem_map_of_mem (Table.mem_of_get? hr)
  refine ⟨recover_eq hnames, _, _, ρ, recoverVisiting_eq hconnected hnames horder,
    recoverVisiting_eq hconnected hnames horder', hmoves, heq, ?_, ?_, ?_⟩
  · intro name q hq
    refine ⟨q.retag ρ, ?_, rfl, rfl, rfl, rfl, ?_⟩
    · rw [heq, queue?_retag, hq, Option.map_some]
    · simp [Queue.retag, Function.comp_def]
  · intro id
    have hwaiting := (tells_recover htidy.sound order).streams id
    rw [List.nil_append, recoverIn, if_pos hconnected] at hwaiting
    refine ⟨_, hwaiting, ?_⟩
    have hold : ((run calls).streams.waitingIn id).map (Delivery.retag ρ) =
        (run calls).streams.waitingIn id := by
      refine (List.map_congr_left fun d hd => ?_).trans (List.map_id _)
      have hsame : ρ d.tag = d.tag := hmoves _ (Or.inl (htidy.stamped id d hd))
      rw [Delivery.retag, hsame]
      rfl
    rw [heq, Streams.waitingIn_retag, hwaiting, List.map_append, hold]
  · rintro tag (hopen | hopen)
    · exact hnew horder tag hopen
    · exact hnew horder' tag hopen

/-- Two queues with unsettled deliveries. -/
def twoHeldQueues : List (Call String) :=
  [.start, .declare { name := "q" }, .declare { name := "r" },
    .consume { queue := "q", consumer := "a" }, .consume { queue := "r", consumer := "b" },
    .publish { routingKey := "q" } "m", .publish { routingKey := "q" } "n",
    .publish { routingKey := "r" } "x"]

/-- Either order returns three deliveries, but the tags are different ones. -/
theorem twoHeldQueues_recovered :
    ∃ (t t' : State String) (ρ : Equiv.Perm Nat),
      (run twoHeldQueues).recoverVisiting ["q", "r"] = (.ok 3, t) ∧
      (run twoHeldQueues).recoverVisiting ["r", "q"] = (.ok 3, t') ∧
      t' = t.retag ρ ∧ t' ≠ t := by
  have hconnected : (run twoHeldQueues).connected = true := by cbv
  have hkeys : (run twoHeldQueues).queues.keys = ["q", "r"] := by cbv
  have htotal : ((run twoHeldQueues).queues.total fun q => q.unacked.length) = 3 := by cbv
  have hdiffer : ((run twoHeldQueues).recoverVisiting ["r", "q"]).2 ≠
      ((run twoHeldQueues).recoverVisiting ["q", "r"]).2 := by
    cbv
    simp
  have horder : List.Perm ["q", "r"] (run twoHeldQueues).queues.keys := by rw [hkeys]
  have horder' : List.Perm ["r", "q"] (run twoHeldQueues).queues.keys := by
    rw [hkeys]
    exact List.Perm.swap "q" "r" []
  obtain ⟨-, t, t', ρ, hanswer, hanswer', -, heq, -⟩ :=
    recover_in_any_order hconnected horder horder'
  rw [htotal] at hanswer hanswer'
  rw [hanswer, hanswer'] at hdiffer
  exact ⟨t, t', ρ, hanswer, hanswer', heq, hdiffer⟩

end Almanac.Broker
