/-
  Almanac.Proofs.Broker.Blocks

  The order in which the messages of a queue wait. In front stand those that have been handed out
  before, and behind them those that have not, in the order in which they were published
  (`InBlocks`). Messages come in at both ends, new ones at the back and returned ones in front, and
  a consumer that turns out to be gone puts older ones in front of the message that was just meant
  for it; each of these keeps the two blocks.

  Bodies carry the number of the call that published them. What is known of a queue is known with
  respect to the deliveries that have been handed out so far (`Queue.Ordered`): a message in front
  has been among them, and one that has not been has a larger number than all of them. So whatever a
  dispatch hands out next fits what was handed out before (`FirstInOrder`).
-/
import Almanac.Proofs.Broker.Journal

namespace Almanac.Broker

variable {β : Type}

/-! ## Hand-outs -/

/-- The delivery that an entry hands out. -/
def Entry.delivery? : Entry β → Option (Delivery β)
  | handed _ d => some d
  | _ => none

/-- The deliveries that a journal hands out, in their order. -/
def handedIn (l : List (Entry β)) : List (Delivery β) := l.filterMap Entry.delivery?

theorem handedIn_append (l l' : List (Entry β)) : handedIn (l ++ l') = handedIn l ++ handedIn l' :=
  List.filterMap_append

@[simp] theorem handedIn_returned (gone : List Nat) :
    handedIn (gone.map Entry.returned : List (Entry β)) = [] := by
  simp [handedIn, List.filterMap_map, Function.comp_def, Entry.delivery?]

/-- What is returned first changes nothing of what is handed out. -/
theorem handedIn_returned_append (gone : List Nat) (l : List (Entry β)) :
    handedIn (gone.map Entry.returned ++ l) = handedIn l := by
  rw [handedIn_append, handedIn_returned, List.nil_append]

@[simp] theorem handedIn_settled (gone : List Nat) :
    handedIn (gone.map Entry.settled : List (Entry β)) = [] := by
  simp [handedIn, List.filterMap_map, Function.comp_def, Entry.delivery?]

/-- A message is among some deliveries. -/
def HandedOut (handed : List (Delivery β)) (m : Message β) : Prop :=
  ∃ d ∈ handed, d.label = m.label

theorem HandedOut.mono {handed handed' : List (Delivery β)} (h : handed ⊆ handed') {m : Message β}
    (hm : HandedOut handed m) : HandedOut handed' m := by
  obtain ⟨d, hd, hlabel⟩ := hm
  exact ⟨d, h hd, hlabel⟩

/-! ## Numbered messages -/

/-- The number of the call that published a message. -/
def Message.number (m : Message (Nat × β)) : Nat := m.body.1

theorem Message.number_eq_of_label {m m' : Message (Nat × β)} (h : m.label = m'.label) :
    m.routingKey = m'.routingKey ∧ m.number = m'.number := by
  obtain ⟨hkey, hbody⟩ := Prod.mk.inj h
  exact ⟨hkey, congrArg Prod.fst hbody⟩

/-- A message may wait in front of another one: it has been handed out before, or neither has and
    it was published first. -/
def Message.Precedes (m m' : Message (Nat × β)) : Prop :=
  m.redelivered = true ∨ (m'.redelivered = false ∧ m.number < m'.number)

/-- A block of messages that have been handed out before, and behind it a block of messages that
    have not, in the order in which they were published. -/
def InBlocks (ready : List (Message (Nat × β))) : Prop :=
  ∃ back fresh, ready = back ++ fresh ∧ (∀ m ∈ back, m.redelivered = true) ∧
    (∀ m ∈ fresh, m.redelivered = false) ∧ fresh.Pairwise fun m m' => m.number < m'.number

theorem inBlocks_iff {ready : List (Message (Nat × β))} :
    InBlocks ready ↔ ready.Pairwise Message.Precedes := by
  constructor
  · rintro ⟨back, fresh, rfl, hback, hfresh, hnumbers⟩
    refine List.pairwise_append.mpr ⟨?_, ?_, fun m hm _ _ => Or.inl (hback m hm)⟩
    · exact List.pairwise_of_forall_mem_list fun m hm _ _ => Or.inl (hback m hm)
    · refine hnumbers.imp_of_mem ?_
      intro m m' _ hm' hlt
      exact Or.inr ⟨hfresh m' hm', hlt⟩
  · intro h
    induction ready with
    | nil => exact ⟨[], [], rfl, by simp, by simp, List.Pairwise.nil⟩
    | cons m ready ih =>
        obtain ⟨hm, hrest⟩ := List.pairwise_cons.mp h
        cases hflag : m.redelivered with
        | true =>
            obtain ⟨back, fresh, rfl, hback, hfresh⟩ := ih hrest
            exact ⟨m :: back, fresh, rfl, List.forall_mem_cons.mpr ⟨hflag, hback⟩, hfresh⟩
        | false =>
            -- Behind a message that has not been handed out there are only such.
            have hbehind : ∀ m' ∈ ready, m'.redelivered = false ∧ m.number < m'.number := by
              intro m' hm'
              exact (hm m' hm').resolve_left (by simp [hflag])
            refine ⟨[], m :: ready, rfl, by simp, ?_, ?_⟩
            · exact List.forall_mem_cons.mpr ⟨hflag, fun m' hm' => (hbehind m' hm').1⟩
            · refine List.pairwise_cons.mpr ⟨fun m' hm' => (hbehind m' hm').2, ?_⟩
              refine hrest.imp_of_mem ?_
              intro m₁ m₂ hm₁ _ hprecedes
              have hfresh := (hbehind m₁ hm₁).1
              exact (hprecedes.resolve_left (by simp [hfresh])).2

/-- Deliveries are handed out in order: one that says so has been handed out before, and one that
    does not is the first of its message, and has a larger number than all that went out under its
    routing key. -/
def FirstInOrder (handed : List (Delivery (Nat × β))) : Prop :=
  ∀ before d after, handed = before ++ d :: after →
    (d.redelivered = true ↔ HandedOut before d.toMessage) ∧
    (d.redelivered = false → ∀ d' ∈ before, d'.routingKey = d.routingKey → d'.number < d.number)

theorem FirstInOrder.concat {handed : List (Delivery (Nat × β))} (h : FirstInOrder handed)
    {d : Delivery (Nat × β)} (htruth : d.redelivered = true → HandedOut handed d.toMessage)
    (hnew : d.redelivered = false →
      ∀ d' ∈ handed, d'.routingKey = d.routingKey → d'.number < d.number) :
    FirstInOrder (handed ++ [d]) := by
  intro before x after heq
  rcases List.eq_nil_or_concat after with rfl | ⟨after, y, rfl⟩
  · obtain ⟨rfl, hx⟩ := List.append_inj' heq rfl
    obtain rfl : d = x := List.singleton_inj.mp hx
    refine ⟨⟨htruth, ?_⟩, hnew⟩
    rintro ⟨d', hd', hlabel⟩
    -- A delivery of the same message would have a smaller number.
    obtain ⟨hkey, hnumber⟩ := Message.number_eq_of_label hlabel
    by_contra hflag
    have hlt := hnew (by simpa using hflag) d' hd' hkey
    omega
  · rw [List.concat_eq_append, ← List.cons_append, ← List.append_assoc] at heq
    exact h before x after (List.append_inj' heq rfl).1

/-! ## One queue -/

/-- What is known of the messages of a queue when some deliveries have been handed out, and only
    calls with numbers below `n` have been made. -/
structure Queue.Ordered (handed : List (Delivery (Nat × β))) (n : Nat) (q : Queue (Nat × β)) :
    Prop where
  blocks : q.ready.Pairwise Message.Precedes
  repeated : ∀ m ∈ q.ready, m.redelivered = true → HandedOut handed m
  fresh : ∀ m ∈ q.ready, m.redelivered = false →
    ∀ d ∈ handed, d.routingKey = m.routingKey → d.number < m.number
  unsettled : ∀ e ∈ q.unacked, HandedOut handed e.2.message
  numbered : ∀ m ∈ q.ready, m.number < n

namespace Queue.Ordered

variable {handed : List (Delivery (Nat × β))} {n : Nat} {q : Queue (Nat × β)}

theorem empty (settings : QueueSettings) : ({ settings } : Queue (Nat × β)).Ordered handed n where
  blocks := List.Pairwise.nil
  repeated m hm := by simp at hm
  fresh m hm := by simp at hm
  unsettled e he := by simp at he
  numbered m hm := by simp at hm

/-- What waits and what is unsettled decides, and not who consumes. -/
theorem congr (h : q.Ordered handed n) {r : Queue (Nat × β)} (hready : r.ready = q.ready)
    (hunacked : r.unacked = q.unacked) : r.Ordered handed n where
  blocks := hready ▸ h.blocks
  repeated := hready ▸ h.repeated
  fresh := hready ▸ h.fresh
  unsettled := hunacked ▸ h.unsettled
  numbered := hready ▸ h.numbered

/-- Deliveries of other queues do not concern a queue. -/
theorem extend (h : q.Ordered handed n) {new : List (Delivery (Nat × β))} {n' : Nat} (hn : n ≤ n')
    (hother : ∀ d ∈ new, ∀ m ∈ q.ready, d.routingKey ≠ m.routingKey) :
    q.Ordered (handed ++ new) n' where
  blocks := h.blocks
  repeated m hm hflag := (h.repeated m hm hflag).mono (List.subset_append_left _ _)
  fresh m hm hflag d hd hkey := by
    rcases List.mem_append.mp hd with hd | hd
    · exact h.fresh m hm hflag d hd hkey
    · exact absurd hkey (hother d hd m hm)
  unsettled e he := (h.unsettled e he).mono (List.subset_append_left _ _)
  numbered m hm := Nat.lt_of_lt_of_le (h.numbered m hm) hn

/-- Whatever is unsettled and goes back goes in front of everything that waits. -/
theorem requeueIf (h : q.Ordered handed n) (hknown : ∀ d ∈ handed, d.number < n)
    (p : Nat → Unacked (Nat × β) → Bool) : (q.requeueIf p).Ordered handed n := by
  have hback : ∀ m ∈ (q.unacked.filter fun e => p e.1 e.2).map fun e => again e.2,
      m.redelivered = true ∧ HandedOut handed m := by
    intro m hm
    obtain ⟨e, he, rfl⟩ := List.mem_map.mp hm
    exact ⟨rfl, h.unsettled e (List.mem_filter.mp he).1⟩
  have hready : (q.requeueIf p).ready =
      (q.unacked.filter fun e => p e.1 e.2).map (fun e => again e.2) ++ q.ready :=
    requeueIf_ready q p
  constructor
  · rw [hready]
    refine List.pairwise_append.mpr ⟨?_, h.blocks, fun m hm _ _ => Or.inl (hback m hm).1⟩
    exact List.pairwise_of_forall_mem_list fun m hm _ _ => Or.inl (hback m hm).1
  · intro m hm hflag
    rw [hready] at hm
    rcases List.mem_append.mp hm with hm | hm
    · exact (hback m hm).2
    · exact h.repeated m hm hflag
  · intro m hm hflag
    rw [hready] at hm
    rcases List.mem_append.mp hm with hm | hm
    · simp [(hback m hm).1] at hflag
    · exact h.fresh m hm hflag
  · intro e he
    rw [requeueIf_unacked] at he
    exact h.unsettled e (List.mem_filter.mp he).1
  · intro m hm
    rw [hready] at hm
    rcases List.mem_append.mp hm with hm | hm
    · obtain ⟨d, hd, hlabel⟩ := (hback m hm).2
      rw [← (Message.number_eq_of_label hlabel).2]
      exact hknown d hd
    · exact h.numbered m hm

theorem without (h : q.Ordered handed n) (hknown : ∀ d ∈ handed, d.number < n) (tag : String) :
    (q.without tag).Ordered handed n := by
  have hleft : ({ q with consumers := q.consumers.filter (·.tag != tag) } :
      Queue (Nat × β)).Ordered handed n := h.congr rfl rfl
  exact hleft.requeueIf hknown _

theorem abandoned (h : q.Ordered handed n) (hknown : ∀ d ∈ handed, d.number < n) :
    q.abandoned.Ordered handed n := by
  have hleft : ({ q with consumers := [] } : Queue (Nat × β)).Ordered handed n := h.congr rfl rfl
  exact hleft.requeueIf hknown _

theorem discardIf (h : q.Ordered handed n) (p : Nat → Unacked (Nat × β) → Bool) :
    (q.discardIf p).Ordered handed n where
  blocks := h.blocks
  repeated := h.repeated
  fresh := h.fresh
  unsettled e he := h.unsettled e (List.mem_filter.mp he).1
  numbered := h.numbered

/-- A new message has the largest number, and goes behind everything that waits. -/
theorem push (h : q.Ordered handed n) (hknown : ∀ d ∈ handed, d.number < n)
    {m : Message (Nat × β)} (hflag : m.redelivered = false) (hnumber : m.number = n) :
    ({ q with ready := q.ready ++ [m] } : Queue (Nat × β)).Ordered handed (n + 1) where
  blocks := by
    refine List.pairwise_append.mpr ⟨h.blocks, List.pairwise_singleton _ _, ?_⟩
    intro m' hm' m'' hm''
    obtain rfl := List.mem_singleton.mp hm''
    exact Or.inr ⟨hflag, hnumber ▸ h.numbered m' hm'⟩
  repeated m' hm' hflag' := by
    rcases List.mem_append.mp hm' with hm' | hm'
    · exact h.repeated m' hm' hflag'
    · obtain rfl := List.mem_singleton.mp hm'
      simp [hflag] at hflag'
  fresh m' hm' hflag' d hd hkey := by
    rcases List.mem_append.mp hm' with hm' | hm'
    · exact h.fresh m' hm' hflag' d hd hkey
    · obtain rfl := List.mem_singleton.mp hm'
      rw [hnumber]
      exact hknown d hd
  unsettled := h.unsettled
  numbered m' hm' := by
    rcases List.mem_append.mp hm' with hm' | hm'
    · exact Nat.lt_succ_of_lt (h.numbered m' hm')
    · obtain rfl := List.mem_singleton.mp hm'
      omega

/-- Behind a message that has not been handed out there are only such, with larger numbers. -/
theorem first (h : q.Ordered handed n) {m : Message (Nat × β)} {rest : List (Message (Nat × β))}
    (hready : q.ready = m :: rest) (hflag : m.redelivered = false) :
    ∀ m' ∈ rest, m'.redelivered = false ∧ m.number < m'.number := by
  have hblocks := h.blocks
  rw [hready] at hblocks
  intro m' hm'
  have hprecedes := (List.pairwise_cons.mp hblocks).1 m' hm'
  exact hprecedes.resolve_left (by simp [hflag])

end Queue.Ordered

/-! ## One dispatch -/

namespace Dispatching

variable {name : String} {handed : List (Delivery (Nat × β))} {n : Nat}
  {d e : Dispatching (Nat × β)}

/-- A point of a dispatch at which its queue, and all that has been handed out so far, is in
    order. -/
structure Orderly (name : String) (handed : List (Delivery (Nat × β))) (n : Nat)
    (d : Dispatching (Nat × β)) : Prop where
  sound : d.queue.Sound name d.lastTag d.streams.length
  queue : d.queue.Ordered handed n
  first : FirstInOrder handed
  known : ∀ x ∈ handed, x.number < n

/-- A consumer that is gone leaves what it held in front of the message that was meant for it. -/
theorem Orderly.lost (h : d.Orderly name handed n) {message : Message (Nat × β)}
    {ready : List (Message (Nat × β))} {index : Nat} {consumer : Registration}
    (hready : d.queue.ready = message :: ready)
    (hindex : index = d.queue.cursor % d.queue.consumers.length)
    (hconsumer : d.queue.consumers[index]? = some consumer)
    (hclosed : d.streams.offer consumer.stream { message with tag := d.lastTag + 1 } = none) :
    Orderly name handed n ⟨d.lastTag + 1, d.streams, d.afterLoss index consumer⟩ where
  sound := (Round.lost hready hindex hconsumer hclosed).sound h.sound
  queue := by
    have hleft : ({ d.queue with cursor := index + 1,
                                 consumers := d.queue.consumers.eraseIdx index } :
        Queue (Nat × β)).Ordered handed n := h.queue.congr rfl rfl
    exact hleft.requeueIf h.known fun _ u => u.owner == consumer.tag
  first := h.first
  known := h.known

/-- The message in front is handed out. -/
theorem Orderly.handOut (h : d.Orderly name handed n) {message : Message (Nat × β)}
    {ready : List (Message (Nat × β))} {index : Nat} {consumer : Registration}
    {streams : Streams (Nat × β)} (hready : d.queue.ready = message :: ready)
    (hindex : index = d.queue.cursor % d.queue.consumers.length)
    (hconsumer : d.queue.consumers[index]? = some consumer)
    (hoffer : d.streams.offer consumer.stream { message with tag := d.lastTag + 1 } =
      some streams) :
    Orderly name (handed ++ [{ message with tag := d.lastTag + 1 }]) n
      ⟨d.lastTag + 1, streams, d.afterHandOut index consumer message ready⟩ := by
  have hmessage : message ∈ d.queue.ready := by
    rw [hready]
    exact List.mem_cons_self
  have hrest : ∀ m ∈ ready, m ∈ d.queue.ready := by
    intro m hm
    rw [hready]
    exact List.mem_cons_of_mem _ hm
  have hnow : HandedOut (handed ++ [{ message with tag := d.lastTag + 1 }]) message :=
    ⟨_, List.mem_append_right _ (List.mem_singleton.mpr rfl), rfl⟩
  -- What waits behind it and has not been handed out has a larger number.
  have hbehind : ∀ m ∈ ready, m.redelivered = false → message.routingKey = m.routingKey →
      message.number < m.number := by
    intro m hm hflag hkey
    cases hmflag : message.redelivered with
    | false => exact (h.queue.first hready hmflag m hm).2
    | true =>
        obtain ⟨x, hx, hlabel⟩ := h.queue.repeated message hmessage hmflag
        obtain ⟨hxkey, hxnumber⟩ := Message.number_eq_of_label hlabel
        rw [← hxnumber]
        exact h.queue.fresh m (hrest m hm) hflag x hx (hxkey.trans hkey)
  refine ⟨(Round.handed hready hindex hconsumer hoffer).sound h.sound, ?_, ?_, ?_⟩
  · constructor
    · have hblocks := h.queue.blocks
      rw [hready] at hblocks
      exact (List.pairwise_cons.mp hblocks).2
    · intro m hm hflag
      exact (h.queue.repeated m (hrest m hm) hflag).mono (List.subset_append_left _ _)
    · intro m hm hflag x hx hkey
      rcases List.mem_append.mp hx with hx | hx
      · exact h.queue.fresh m (hrest m hm) hflag x hx hkey
      · obtain rfl := List.mem_singleton.mp hx
        exact hbehind m hm hflag hkey
    · intro x hx
      simp only [afterHandOut] at hx
      split at hx
      · exact (h.queue.unsettled x hx).mono (List.subset_append_left _ _)
      · rcases List.mem_append.mp hx with hx | hx
        · exact (h.queue.unsettled x hx).mono (List.subset_append_left _ _)
        · obtain rfl := List.mem_singleton.mp hx
          exact hnow
    · intro m hm
      exact h.queue.numbered m (hrest m hm)
  · exact h.first.concat (h.queue.repeated message hmessage) (h.queue.fresh message hmessage)
  · intro x hx
    rcases List.mem_append.mp hx with hx | hx
    · exact h.known x hx
    · obtain rfl := List.mem_singleton.mp hx
      exact h.queue.numbered message hmessage

/-- Every round keeps the order, whether it hands something out or not. -/
theorem Round.orderly (hround : Round d e) (h : d.Orderly name handed n) :
    ∃ handed', e.Orderly name handed' n := by
  cases hround with
  | lost hready hindex hconsumer hclosed => exact ⟨_, h.lost hready hindex hconsumer hclosed⟩
  | handed hready hindex hconsumer hoffer => exact ⟨_, h.handOut hready hindex hconsumer hoffer⟩

/-- A dispatch keeps the order, with what it hands out by its journal. -/
theorem Orderly.run (h : d.Orderly name handed n) :
    d.run.Orderly name (handed ++ handedIn d.journal) n := by
  induction d using run_induction generalizing handed with
  | finished d hfin hrun =>
      rw [journal_of_finished hfin, hrun]
      simpa [handedIn] using h
  | round d e hround hrun ih =>
      rw [hrun]
      cases hround with
      | lost hready hindex hconsumer hclosed =>
          rw [journal_of_lost hready hindex hconsumer hclosed, handedIn_returned_append]
          exact ih (h.lost hready hindex hconsumer hclosed)
      | handed hready hindex hconsumer hoffer =>
          have hrest := ih (h.handOut hready hindex hconsumer hoffer)
          rw [List.append_assoc] at hrest
          rw [journal_of_handed hready hindex hconsumer hoffer]
          exact hrest

/-- A delivery that a dispatch hands out was in front of its queue at some point of it. -/
theorem front_of_handedIn {β : Type} {d : Dispatching β} {x : Delivery β}
    (hx : x ∈ handedIn d.journal) :
    ∃ e rest, Relation.ReflTransGen Round d e ∧ e.queue.ready = x.toMessage :: rest := by
  induction d using run_induction with
  | finished d hfin hrun =>
      rw [journal_of_finished hfin] at hx
      simp [handedIn] at hx
  | round d e hround hrun ih =>
      have hlater (h : x ∈ handedIn e.journal) :
          ∃ f rest, Relation.ReflTransGen Round d f ∧ f.queue.ready = x.toMessage :: rest := by
        obtain ⟨f, rest, hpath, hfront⟩ := ih h
        exact ⟨f, rest, hpath.head hround, hfront⟩
      cases hround with
      | lost hready hindex hconsumer hclosed =>
          rw [journal_of_lost hready hindex hconsumer hclosed, handedIn_returned_append] at hx
          exact hlater hx
      | @handed message ready index consumer streams hready hindex hconsumer hoffer =>
          rw [journal_of_handed hready hindex hconsumer hoffer] at hx
          rcases List.mem_cons.mp hx with rfl | hx
          · exact ⟨d, ready, .refl, hready⟩
          · exact hlater hx

/-- What a dispatch hands out has the name of its queue as its routing key. -/
theorem routingKey_of_handedIn (h : d.queue.Sound name d.lastTag d.streams.length)
    {x : Delivery (Nat × β)} (hx : x ∈ handedIn d.journal) : x.routingKey = name := by
  obtain ⟨e, rest, hpath, hfront⟩ := front_of_handedIn hx
  have hsound : e.queue.Sound name e.lastTag e.streams.length := by
    clear hfront
    induction hpath with
    | refl => exact h
    | tail _ hround ih => exact hround.sound ih
  have hlabel : x.toMessage.label ∈ e.queue.labels := by
    simp [Queue.labels, Queue.readyLabels, hfront]
  exact hsound.keyed _ hlabel

end Dispatching

end Almanac.Broker
