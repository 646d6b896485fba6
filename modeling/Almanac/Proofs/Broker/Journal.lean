/-
  Almanac.Proofs.Broker.Journal

  The journal of a run: what happens to delivery tags, in the order in which it happens. A
  delivery is handed to a consumer, its message goes back to its queue, or it is settled
  (`Entry`). `Dispatching.journal` writes one dispatch down round by round, `State.journalOf` one
  call, and `journal` a run.

  That the journal of a dispatch is the right one is proved in two ways. `Explains` leads from the
  tags that are unsettled before to the ones that are so afterwards: a tag is unsettled when it was,
  or has been handed to a consumer that acknowledges by hand, and has not been ended. And what the
  journal hands to a stream is what comes to wait there (`Dispatching.waitingIn_run`).
-/
import Almanac.Proofs.Broker.Sound
import Mathlib.Data.List.Nodup
import Mathlib.Data.List.Pairwise

namespace Almanac.Broker

variable {β : Type}

/-! ## Entries -/

/-- What can happen to a delivery tag. -/
inductive Entry (β : Type)
  /-- A delivery goes to a consumer. -/
  | handed (consumer : Registration) (d : Delivery β)
  /-- The message of a delivery goes back to its queue. -/
  | returned (tag : Nat)
  /-- A delivery is acknowledged, or rejected without return. -/
  | settled (tag : Nat)

namespace Entry

/-- The tag that an entry gives out. -/
def issued? : Entry β → Option Nat
  | handed _ d => some d.tag
  | _ => none

/-- The tag under which an entry leaves a delivery to be settled. -/
def opened? : Entry β → Option Nat
  | handed consumer d => if consumer.autoAck then none else some d.tag
  | _ => none

/-- The tag that is used up by an entry: its delivery counts as acknowledged when it is handed
    out, or has gone back, or is settled. -/
def ended? : Entry β → Option Nat
  | handed consumer d => if consumer.autoAck then some d.tag else none
  | returned tag => some tag
  | settled tag => some tag

/-- The delivery that an entry puts into a stream. -/
def handedTo? (stream : Nat) : Entry β → Option (Delivery β)
  | handed consumer d => if consumer.stream = stream then some d else none
  | _ => none

end Entry

def issuedIn (l : List (Entry β)) : List Nat := l.filterMap Entry.issued?

def openedIn (l : List (Entry β)) : List Nat := l.filterMap Entry.opened?

def endedIn (l : List (Entry β)) : List Nat := l.filterMap Entry.ended?

def handedTo (stream : Nat) (l : List (Entry β)) : List (Delivery β) :=
  l.filterMap (Entry.handedTo? stream)

theorem issuedIn_append (l l' : List (Entry β)) : issuedIn (l ++ l') = issuedIn l ++ issuedIn l' :=
  List.filterMap_append

theorem openedIn_append (l l' : List (Entry β)) : openedIn (l ++ l') = openedIn l ++ openedIn l' :=
  List.filterMap_append

theorem endedIn_append (l l' : List (Entry β)) : endedIn (l ++ l') = endedIn l ++ endedIn l' :=
  List.filterMap_append

theorem handedTo_append (stream : Nat) (l l' : List (Entry β)) :
    handedTo stream (l ++ l') = handedTo stream l ++ handedTo stream l' :=
  List.filterMap_append

@[simp] theorem handedTo_returned (stream : Nat) (gone : List Nat) :
    handedTo stream (gone.map Entry.returned : List (Entry β)) = [] := by
  simp [handedTo, List.filterMap_map, Function.comp_def, Entry.handedTo?]

@[simp] theorem handedTo_settled (stream : Nat) (gone : List Nat) :
    handedTo stream (gone.map Entry.settled : List (Entry β)) = [] := by
  simp [handedTo, List.filterMap_map, Function.comp_def, Entry.handedTo?]

@[simp] theorem endedIn_returned (gone : List Nat) :
    endedIn (gone.map Entry.returned : List (Entry β)) = gone := by
  simp [endedIn, List.filterMap_map, Function.comp_def, Entry.ended?]

@[simp] theorem endedIn_settled (gone : List Nat) :
    endedIn (gone.map Entry.settled : List (Entry β)) = gone := by
  simp [endedIn, List.filterMap_map, Function.comp_def, Entry.ended?]

/-- A tag that is left to be settled has been given out. -/
theorem mem_issuedIn_of_opened {l : List (Entry β)} {t : Nat} (h : t ∈ openedIn l) :
    t ∈ issuedIn l := by
  obtain ⟨e, he, hopened⟩ := List.mem_filterMap.mp h
  apply List.mem_filterMap.mpr
  refine ⟨e, he, ?_⟩
  cases e with
  | handed consumer d =>
      simp only [Entry.opened?] at hopened
      split at hopened
      · simp at hopened
      · exact hopened
  | returned tag => simp [Entry.opened?] at hopened
  | settled tag => simp [Entry.opened?] at hopened

/-- A journal hands the delivery of a tag to a consumer. -/
def Hands (l : List (Entry β)) (consumer : Registration) (t : Nat) : Prop :=
  ∃ d, Entry.handed consumer d ∈ l ∧ d.tag = t

theorem Hands.mono {l l' : List (Entry β)} (h : l ⊆ l') {consumer : Registration} {t : Nat}
    (hl : Hands l consumer t) : Hands l' consumer t := by
  obtain ⟨d, hd, htag⟩ := hl
  exact ⟨d, h hd, htag⟩

/-- Tags that ascend are handed out once. -/
theorem Hands.unique {l : List (Entry β)} (h : (issuedIn l).Pairwise (· < ·)) {c c' : Registration}
    {t : Nat} (hc : Hands l c t) (hc' : Hands l c' t) : c' = c := by
  obtain ⟨d, hd, hdtag⟩ := hc
  obtain ⟨d', hd', hdtag'⟩ := hc'
  by_contra hne
  -- One of two entries comes first, and has the smaller tag.
  have hapart : l.Pairwise fun e e' =>
      ∀ t, e.issued? = some t → ∀ t', e'.issued? = some t' → t ≠ t' := by
    refine (List.pairwise_filterMap.mp h).imp ?_
    intro e e' hlt t ht t' ht'
    exact Nat.ne_of_lt (hlt t ht t' ht')
  have hdifferent : Entry.handed c d ≠ Entry.handed c' d' := by
    intro hsame
    exact hne (Entry.handed.inj hsame).1.symm
  have hsymm : Std.Symm fun e e' : Entry β =>
      ∀ t, e.issued? = some t → ∀ t', e'.issued? = some t' → t ≠ t' :=
    ⟨fun e e' hee' t ht t' ht' => (hee' t' ht' t ht).symm⟩
  exact hapart.forall hd hd' hdifferent d.tag rfl d'.tag rfl (hdtag.trans hdtag'.symm)

/-! ## What a journal explains -/

/-- A journal leads from a latest tag and the tags that are open to a later latest tag and the
    tags that are open then. The tags that it gives out ascend, and all of them are new. -/
structure Explains (l : List (Entry β)) (last last' : Nat) (before after : Nat → Prop) : Prop where
  bounded : ∀ t, before t → t ≤ last
  le : last ≤ last'
  ascending : (issuedIn l).Pairwise (· < ·)
  new : ∀ t ∈ issuedIn l, last < t ∧ t ≤ last'
  /-- Only what is open, or has just been given out, is used up. -/
  ended : ∀ t ∈ endedIn l, before t ∨ t ∈ issuedIn l
  still : ∀ t, after t ↔ (before t ∨ t ∈ openedIn l) ∧ t ∉ endedIn l

namespace Explains

variable {l l' : List (Entry β)} {last mid last' : Nat} {before between after : Nat → Prop}

/-- A tag that is used up was among the tags given out by then. -/
theorem ended_le (h : Explains l last last' before after) : ∀ t ∈ endedIn l, t ≤ last' := by
  intro t ht
  rcases h.ended t ht with hold | hnew
  · exact Nat.le_trans (h.bounded t hold) h.le
  · exact (h.new t hnew).2

/-- Nothing happens. -/
theorem nil (hbounded : ∀ t, before t → t ≤ last) (hle : last ≤ last')
    (hsame : ∀ t, after t ↔ before t) : Explains ([] : List (Entry β)) last last' before after where
  bounded := hbounded
  le := hle
  ascending := List.Pairwise.nil
  new t ht := by simp [issuedIn] at ht
  ended t ht := by simp [endedIn] at ht
  still t := by simp [openedIn, endedIn, hsame t]

/-- One journal after the other. -/
theorem append (h : Explains l last mid before between) (h' : Explains l' mid last' between after) :
    Explains (l ++ l') last last' before after where
  bounded := h.bounded
  le := Nat.le_trans h.le h'.le
  ascending := by
    rw [issuedIn_append, List.pairwise_append]
    refine ⟨h.ascending, h'.ascending, ?_⟩
    intro t ht t' ht'
    have hle := (h.new t ht).2
    have hlt := (h'.new t' ht').1
    omega
  new := by
    intro t ht
    rw [issuedIn_append, List.mem_append] at ht
    have hfirst := h.le
    have hsecond := h'.le
    rcases ht with hold | hnew
    · obtain ⟨hlt, hle⟩ := h.new t hold
      omega
    · obtain ⟨hlt, hle⟩ := h'.new t hnew
      omega
  ended := by
    intro t ht
    rw [endedIn_append, List.mem_append] at ht
    rw [issuedIn_append, List.mem_append]
    rcases ht with hold | hnew
    · exact (h.ended t hold).imp_right Or.inl
    · rcases h'.ended t hnew with hopen | hissued
      · rcases ((h.still t).mp hopen).1 with hbefore | hopened
        · exact Or.inl hbefore
        · exact Or.inr (Or.inl (mem_issuedIn_of_opened hopened))
      · exact Or.inr (Or.inr hissued)
  still := by
    intro t
    rw [h'.still t, h.still t, openedIn_append, endedIn_append, List.mem_append, List.mem_append]
    -- A tag that is opened in the second part is newer than all that is used up in the first.
    have hfresh : t ∈ openedIn l' → t ∉ endedIn l := by
      intro hopened hended
      have hlt := (h'.new t (mem_issuedIn_of_opened hopened)).1
      have hle := h.ended_le t hended
      omega
    tauto

/-- Open tags are used up, and none is given out. -/
theorem of_ended {gone : List Nat} (hbounded : ∀ t, before t → t ≤ last) (hle : last ≤ last')
    (hissued : issuedIn l = []) (hended : endedIn l = gone) (hgone : ∀ t ∈ gone, before t)
    (hstill : ∀ t, after t ↔ before t ∧ t ∉ gone) : Explains l last last' before after where
  bounded := hbounded
  le := hle
  ascending := by
    rw [hissued]
    exact List.Pairwise.nil
  new t ht := by simp [hissued] at ht
  ended t ht := Or.inl (hgone t (hended ▸ ht))
  still t := by
    have hopened : t ∉ openedIn l := by
      intro ht
      have hnone := mem_issuedIn_of_opened ht
      simp [hissued] at hnone
    rw [hstill t, hended]
    tauto

theorem returned {gone : List Nat} (hbounded : ∀ t, before t → t ≤ last) (hle : last ≤ last')
    (hgone : ∀ t ∈ gone, before t) (hstill : ∀ t, after t ↔ before t ∧ t ∉ gone) :
    Explains (gone.map Entry.returned : List (Entry β)) last last' before after := by
  refine of_ended hbounded hle ?_ (endedIn_returned gone) hgone hstill
  simp [issuedIn, List.filterMap_map, Function.comp_def, Entry.issued?]

theorem settled {gone : List Nat} (hbounded : ∀ t, before t → t ≤ last) (hle : last ≤ last')
    (hgone : ∀ t ∈ gone, before t) (hstill : ∀ t, after t ↔ before t ∧ t ∉ gone) :
    Explains (gone.map Entry.settled : List (Entry β)) last last' before after := by
  refine of_ended hbounded hle ?_ (endedIn_settled gone) hgone hstill
  simp [issuedIn, List.filterMap_map, Function.comp_def, Entry.issued?]

end Explains

/-! ## One dispatch -/

/-- The tags of the unsettled deliveries that satisfy a condition. -/
def Queue.tagsIf (q : Queue β) (p : Nat → Unacked β → Bool) : List Nat :=
  (q.unacked.filter fun (t, u) => p t u).map (·.1)

theorem Queue.tagsIf_subset (q : Queue β) (p : Nat → Unacked β → Bool) : q.tagsIf p ⊆ q.tags :=
  (List.Sublist.map _ List.filter_sublist).subset

/-- With different tags, the deliveries that stay when some are taken out are those of the other
    tags. -/
theorem Queue.mem_tags_filter {q : Queue β} (hnodup : q.tags.Nodup)
    (p : Nat → Unacked β → Bool) (t : Nat) :
    t ∈ (q.unacked.filter fun (t, u) => !p t u).map (·.1) ↔ t ∈ q.tags ∧ t ∉ q.tagsIf p := by
  constructor
  · intro ht
    obtain ⟨e, he, rfl⟩ := List.mem_map.mp ht
    obtain ⟨hmem, hstays⟩ := List.mem_filter.mp he
    refine ⟨List.mem_map.mpr ⟨e, hmem, rfl⟩, ?_⟩
    intro hgone
    obtain ⟨e', he', hsame⟩ := List.mem_map.mp hgone
    obtain ⟨hmem', htaken⟩ := List.mem_filter.mp he'
    -- A tag stands for one delivery, which cannot both stay and go.
    obtain rfl := List.inj_on_of_nodup_map hnodup hmem' hmem hsame
    simp [htaken] at hstays
  · rintro ⟨ht, hstays⟩
    obtain ⟨e, he, rfl⟩ := List.mem_map.mp ht
    refine List.mem_map.mpr ⟨e, List.mem_filter.mpr ⟨he, ?_⟩, rfl⟩
    cases htaken : p e.1 e.2
    · simp [htaken]
    · exact absurd (List.mem_map.mpr ⟨e, List.mem_filter.mpr ⟨he, htaken⟩, rfl⟩) hstays

namespace Dispatching

/-- What a dispatch does to the tags. -/
def journal (d : Dispatching β) : List (Entry β) :=
  match _hr : d.queue.ready with
  | [] => []
  | message :: ready =>
    let index := d.queue.cursor % d.queue.consumers.length
    match _hc : d.queue.consumers[index]? with
    | none => []
    | some consumer =>
      let delivery : Delivery β := { message with tag := d.lastTag + 1 }
      match _ho : d.streams.offer consumer.stream delivery with
      | none =>
        (d.queue.tagsIf fun _ u => u.owner == consumer.tag).map Entry.returned
          ++ journal ⟨d.lastTag + 1, d.streams, d.afterLoss index consumer⟩
      | some streams =>
        Entry.handed consumer delivery
          :: journal ⟨d.lastTag + 1, streams, d.afterHandOut index consumer message ready⟩
termination_by (d.queue.consumers.length, d.queue.ready.length)
decreasing_by
  · rcases (Round.lost _hr rfl _hc _ho).decreases with h | ⟨h, h'⟩
    · exact Prod.Lex.left _ _ h
    · rw [h]
      exact Prod.Lex.right _ h'
  · rcases (Round.handed _hr rfl _hc _ho).decreases with h | ⟨h, h'⟩
    · exact Prod.Lex.left _ _ h
    · rw [h]
      exact Prod.Lex.right _ h'

theorem journal_of_finished {d : Dispatching β} (h : d.Finished) : d.journal = [] := by
  rw [journal]
  split
  · rfl
  · next message ready hready =>
    have hnobody : d.queue.consumers = [] := by
      refine h.resolve_left ?_
      rw [hready]
      exact List.cons_ne_nil _ _
    dsimp only
    split
    · rfl
    · next consumer hconsumer => simp [hnobody] at hconsumer

theorem journal_of_lost {d : Dispatching β} {message : Message β} {ready : List (Message β)}
    {index : Nat} {consumer : Registration} (hready : d.queue.ready = message :: ready)
    (hindex : index = d.queue.cursor % d.queue.consumers.length)
    (hconsumer : d.queue.consumers[index]? = some consumer)
    (hclosed : d.streams.offer consumer.stream { message with tag := d.lastTag + 1 } = none) :
    d.journal = (d.queue.tagsIf fun _ u => u.owner == consumer.tag).map Entry.returned
      ++ journal ⟨d.lastTag + 1, d.streams, d.afterLoss index consumer⟩ := by
  subst hindex
  rw [journal]
  split
  · next hnone => simp [hready] at hnone
  · next message' ready' hready' =>
    obtain ⟨rfl, rfl⟩ := List.cons.inj (hready.symm.trans hready')
    dsimp only
    split
    · next hnone => simp [hconsumer] at hnone
    · next consumer' hconsumer' =>
      obtain rfl := Option.some.inj (hconsumer.symm.trans hconsumer')
      split
      · rfl
      · next streams hoffer => simp [hclosed] at hoffer

theorem journal_of_handed {d : Dispatching β} {message : Message β} {ready : List (Message β)}
    {index : Nat} {consumer : Registration} {streams : Streams β}
    (hready : d.queue.ready = message :: ready)
    (hindex : index = d.queue.cursor % d.queue.consumers.length)
    (hconsumer : d.queue.consumers[index]? = some consumer)
    (hoffer : d.streams.offer consumer.stream { message with tag := d.lastTag + 1 } =
      some streams) :
    d.journal = Entry.handed consumer { message with tag := d.lastTag + 1 }
      :: journal ⟨d.lastTag + 1, streams, d.afterHandOut index consumer message ready⟩ := by
  subst hindex
  rw [journal]
  split
  · next hnone => simp [hready] at hnone
  · next message' ready' hready' =>
    obtain ⟨rfl, rfl⟩ := List.cons.inj (hready.symm.trans hready')
    dsimp only
    split
    · next hnone => simp [hconsumer] at hnone
    · next consumer' hconsumer' =>
      obtain rfl := Option.some.inj (hconsumer.symm.trans hconsumer')
      split
      · next hclosed => simp [hoffer] at hclosed
      · next streams' hoffer' =>
        obtain rfl := Option.some.inj (hoffer.symm.trans hoffer')
        rfl

theorem mem_tags_afterLoss {d : Dispatching β} (hnodup : d.queue.tags.Nodup) (index : Nat)
    (consumer : Registration) (t : Nat) :
    t ∈ (d.afterLoss index consumer).tags ↔
      t ∈ d.queue.tags ∧ t ∉ d.queue.tagsIf fun _ u => u.owner == consumer.tag := by
  rw [Queue.tags, afterLoss, Queue.dropConsumerAt, Queue.requeueIf_unacked]
  exact Queue.mem_tags_filter hnodup (fun _ u => u.owner == consumer.tag) t

/-- The journal of a dispatch explains which tags of its queue are unsettled at its end. -/
theorem explains {d : Dispatching β} {name : String}
    (h : d.queue.Sound name d.lastTag d.streams.length) :
    Explains d.journal d.lastTag d.run.lastTag (· ∈ d.queue.tags) (· ∈ d.run.queue.tags) := by
  induction d using run_induction with
  | finished d hfin hrun =>
      rw [journal_of_finished hfin, hrun]
      exact .nil h.issued (Nat.le_refl _) fun _ => Iff.rfl
  | round d e hround hrun ih =>
      have hrest := ih (hround.sound h)
      rw [hrun]
      cases hround with
      | @lost message ready index consumer hready hindex hconsumer hclosed =>
          rw [journal_of_lost hready hindex hconsumer hclosed]
          have hgone : Explains
              ((d.queue.tagsIf fun _ u => u.owner == consumer.tag).map Entry.returned :
                List (Entry β))
              d.lastTag (d.lastTag + 1) (· ∈ d.queue.tags)
              (· ∈ (d.afterLoss index consumer).tags) :=
            .returned h.issued (Nat.le_succ _) (fun t ht => d.queue.tagsIf_subset _ ht)
              (mem_tags_afterLoss (h.ascending.imp Nat.ne_of_lt) index consumer)
          exact hgone.append hrest
      | @handed message ready index consumer streams hready hindex hconsumer hoffer =>
          rw [journal_of_handed hready hindex hconsumer hoffer]
          have hfirst : Explains [Entry.handed consumer { message with tag := d.lastTag + 1 }]
              d.lastTag (d.lastTag + 1) (· ∈ d.queue.tags)
              (· ∈ (d.afterHandOut index consumer message ready).tags) := by
            have hissue : issuedIn [Entry.handed consumer { message with tag := d.lastTag + 1 }] =
                [d.lastTag + 1] := rfl
            refine ⟨h.issued, Nat.le_succ _, ?_, ?_, ?_, ?_⟩
            · rw [hissue]
              exact List.pairwise_singleton _ _
            · intro t ht
              rw [hissue, List.mem_singleton] at ht
              omega
            · intro t ht
              right
              rw [hissue]
              cases hauto : consumer.autoAck <;> simp_all [endedIn, Entry.ended?]
            · intro t
              rw [afterHandOut_tags]
              cases hauto : consumer.autoAck
              · simp [hauto, openedIn, endedIn, Entry.opened?, Entry.ended?]
              · -- The tag is used up at once, and it was not open before.
                have hfresh : t ∈ d.queue.tags → t ≠ d.lastTag + 1 := by
                  intro ht
                  have := h.issued t ht
                  omega
                simpa [hauto, openedIn, endedIn, Entry.opened?, Entry.ended?] using hfresh
          exact hfirst.append hrest

end Dispatching

/-! ## Streams -/

/-- What waits in a stream, and nothing if there is no such stream. -/
def Streams.waitingIn (streams : Streams β) (id : Nat) : List (Delivery β) :=
  match streams[id]? with
  | some stream => stream.waiting
  | none => []

namespace Streams

variable {streams after : Streams β} {id : Nat}

theorem waitingIn_of_some {stream : Stream β} (h : streams[id]? = some stream) :
    streams.waitingIn id = stream.waiting := by
  rw [waitingIn, h]

/-- Changing one stream changes what waits there and nowhere else. -/
theorem waitingIn_set {old : Stream β} (h : streams[id]? = some old) (new : Stream β)
    (other : Nat) :
    waitingIn (streams.set id new) other = if id = other then new.waiting
      else streams.waitingIn other := by
  have hlt : id < streams.length := (List.getElem?_eq_some_iff.mp h).1
  unfold waitingIn
  rw [List.getElem?_set]
  by_cases heq : id = other
  · rw [if_pos heq, if_pos hlt, if_pos heq]
  · rw [if_neg heq, if_neg heq]

/-- Nothing waits in a new stream. -/
theorem waitingIn_fresh (streams : Streams β) (id : Nat) :
    waitingIn (streams ++ [Stream.fresh]) id = streams.waitingIn id := by
  unfold waitingIn
  rw [List.getElem?_append]
  by_cases hlt : id < streams.length
  · rw [if_pos hlt]
  · have hnone : streams[id]? = none := List.getElem?_eq_none (Nat.le_of_not_lt hlt)
    rw [if_neg hlt, hnone]
    cases id - streams.length <;> rfl

theorem waitingIn_offer {d : Delivery β} (h : streams.offer id d = some after) (other : Nat) :
    after.waitingIn other = streams.waitingIn other ++ if id = other then [d] else [] := by
  obtain ⟨stream, hstream, -, rfl⟩ := offer_eq_some h
  rw [waitingIn_set hstream]
  by_cases heq : id = other
  · subst heq
    rw [if_pos rfl, if_pos rfl, waitingIn_of_some hstream]
  · rw [if_neg heq, if_neg heq, List.append_nil]

end Streams

/-- What a dispatch puts into the streams is what its journal hands to them, in order. -/
theorem Dispatching.waitingIn_run (d : Dispatching β) (id : Nat) :
    d.run.streams.waitingIn id = d.streams.waitingIn id ++ handedTo id d.journal := by
  induction d using run_induction with
  | finished d hfin hrun =>
      rw [journal_of_finished hfin, hrun]
      simp [handedTo]
  | round d e hround hrun ih =>
      rw [hrun, ih]
      cases hround with
      | @lost message ready index consumer hready hindex hconsumer hclosed =>
          rw [journal_of_lost hready hindex hconsumer hclosed, handedTo_append, handedTo_returned]
          rfl
      | @handed message ready index consumer streams hready hindex hconsumer hoffer =>
          rw [journal_of_handed hready hindex hconsumer hoffer, Streams.waitingIn_offer hoffer,
            List.append_assoc]
          refine congrArg _ ?_
          by_cases hsame : consumer.stream = id
          · simp [handedTo, Entry.handedTo?, hsame]
          · simp [handedTo, Entry.handedTo?, hsame]

end Almanac.Broker
