/-
  Almanac.Proofs.Broker.Recorded

  The journal of the calls and of a run. `State.journalOf` says what one call does to the delivery
  tags: what it returns or settles, and then the journal of the dispatch that it ends with, if it
  ends with one. `journal` puts the calls of a run together.

  `Tells` is what makes a journal the right one between two states of the broker: it explains
  which tags are unsettled, and it accounts for what is in the streams and for what was taken from
  them. Every call has the journal that tells it (`tells_perform`), and so has every run.
-/
import Almanac.Proofs.Broker.Journal
import Almanac.Proofs.Broker.Owned

namespace Almanac.Broker

variable {β : Type}

/-- A dispatch leaves deliveries with the consumers to which its journal hands them, or with the
    ones that had them before. -/
theorem Dispatching.ownedBy_run {P : Registration → Nat → Prop} {d : Dispatching β}
    (hd : d.queue.OwnedBy P) (hP : ∀ c t, Hands d.journal c t → P c t) :
    d.run.queue.OwnedBy P := by
  induction d using run_induction with
  | finished d hfin hrun => rwa [hrun]
  | round d e hround hrun ih =>
      rw [hrun]
      cases hround with
      | @lost message ready index consumer hready hindex hconsumer hclosed =>
          rw [journal_of_lost hready hindex hconsumer hclosed] at hP
          refine ih (hd.afterLoss hconsumer) fun c t ht => hP c t ?_
          exact ht.mono (List.subset_append_right _ _)
      | @handed message ready index consumer streams hready hindex hconsumer hoffer =>
          rw [journal_of_handed hready hindex hconsumer hoffer] at hP
          refine ih (hd.afterHandOut hconsumer (fun _ => ?_) message ready) fun c t ht => hP c t ?_
          · exact hP consumer _ ⟨_, List.mem_cons_self, rfl⟩
          · exact ht.mono (List.subset_cons_self _ _)

namespace State

variable {s s' s'' : State β}

/-! ## Unsettled tags -/

/-- The tags of all unsettled deliveries. -/
def unsettledTags (s : State β) : List Nat := s.queues.flatMap fun (_, q) => q.tags

/-- A delivery is unsettled under a tag. -/
def Unsettled (s : State β) (t : Nat) : Prop := ∃ name q, s.queue? name = some q ∧ t ∈ q.tags

theorem Sound.mem_unsettledTags (hs : s.Sound) {t : Nat} :
    t ∈ s.unsettledTags ↔ s.Unsettled t := by
  constructor
  · intro ht
    obtain ⟨⟨name, q⟩, hmem, htag⟩ := List.mem_flatMap.mp ht
    exact ⟨name, q, Table.get?_of_mem hs.names hmem, htag⟩
  · rintro ⟨name, q, hq, htag⟩
    exact List.mem_flatMap.mpr ⟨(name, q), Table.mem_of_get? hq, htag⟩

theorem Sound.unsettled_le (hs : s.Sound) : ∀ t, s.Unsettled t → t ≤ s.lastTag := by
  rintro t ⟨name, q, hq, ht⟩
  exact (hs.queue name q hq).issued t ht

/-- A delivery of another queue is unsettled under a tag. -/
def UnsettledElsewhere (s : State β) (name : String) (t : Nat) : Prop :=
  ∃ other q, name ≠ other ∧ s.queue? other = some q ∧ t ∈ q.tags

theorem unsettled_iff (s : State β) (name : String) (t : Nat) :
    s.Unsettled t ↔
      (∃ q, s.queue? name = some q ∧ t ∈ q.tags) ∨ s.UnsettledElsewhere name t := by
  constructor
  · rintro ⟨other, q, hq, ht⟩
    by_cases hname : name = other
    · subst hname
      exact Or.inl ⟨q, hq, ht⟩
    · exact Or.inr ⟨other, q, hname, hq, ht⟩
  · rintro (⟨q, hq, ht⟩ | ⟨other, q, -, hq, ht⟩)
    · exact ⟨name, q, hq, ht⟩
    · exact ⟨other, q, hq, ht⟩

/-- A journal that explains what happens in one queue explains what happens in the broker, if the
    other queues stay. -/
theorem Sound.explains_queue (hs : s.Sound) (name : String) {l : List (Entry β)}
    {before after : Nat → Prop} (hl : Explains l s.lastTag s'.lastTag before after)
    (hother : ∀ other, name ≠ other → s'.queue? other = s.queue? other)
    (hbefore : ∀ t, (∃ q, s.queue? name = some q ∧ t ∈ q.tags) ↔ before t)
    (hafter : ∀ t, (∃ q, s'.queue? name = some q ∧ t ∈ q.tags) ↔ after t) :
    Explains l s.lastTag s'.lastTag s.Unsettled s'.Unsettled := by
  have helsewhere : ∀ t, s'.UnsettledElsewhere name t ↔ s.UnsettledElsewhere name t := by
    intro t
    constructor
    · rintro ⟨other, q, hname, hq, ht⟩
      exact ⟨other, q, hname, (hother other hname).symm.trans hq, ht⟩
    · rintro ⟨other, q, hname, hq, ht⟩
      exact ⟨other, q, hname, (hother other hname).trans hq, ht⟩
  -- What is elsewhere is neither in the queue nor new, so the journal does not end it.
  have hkept : ∀ t, s.UnsettledElsewhere name t → t ∉ endedIn l := by
    rintro t ⟨other, q, hname, hq, ht⟩ hended
    rcases hl.ended t hended with hopen | hissued
    · obtain ⟨q', hq', ht'⟩ := (hbefore t).mpr hopen
      exact hname (hs.apart name q' other q hq' hq t ht' ht)
    · have hlt := (hl.new t hissued).1
      have hle := (hs.queue other q hq).issued t ht
      omega
  refine ⟨hs.unsettled_le, hl.le, hl.ascending, hl.new, ?_, ?_⟩
  · intro t ht
    rw [unsettled_iff s name, hbefore]
    exact (hl.ended t ht).imp_left Or.inl
  · intro t
    have hthis := hkept t
    rw [unsettled_iff s' name, unsettled_iff s name, hbefore, hafter, helsewhere, hl.still t]
    tauto

/-! ## Owners -/

/-- Unsettled deliveries are with the registered consumers to which a journal hands them. -/
def OwnedIn (s : State β) (l : List (Entry β)) : Prop :=
  ∀ name q, s.queue? name = some q → q.OwnedBy (Hands l)

namespace OwnedIn

variable {l l' : List (Entry β)}

theorem mono (hs : s.OwnedIn l) (h : l ⊆ l') : s.OwnedIn l' := by
  intro name q hq
  exact (hs name q hq).mono fun _ _ => Hands.mono h

theorem deliver (hs : s.OwnedIn l) {name : String} {r : Queue β} (hr : r.OwnedBy (Hands l))
    (hl : (s.dispatching r).journal ⊆ l) : (s.deliver name r).OwnedIn l := by
  have hrun := (s.dispatching r).ownedBy_run hr fun _ _ => Hands.mono hl
  exact Each.deliver hs hrun

end OwnedIn

/-! ## Telling what happened -/

/-- What a journal, together with what was taken from the streams, has to say between two states
    of the broker. -/
structure Tells (s : State β) (l : List (Entry β)) (taken : Nat → List (Delivery β))
    (s' : State β) : Prop where
  tags : Explains l s.lastTag s'.lastTag s.Unsettled s'.Unsettled
  streams : ∀ id, taken id ++ s'.streams.waitingIn id = s.streams.waitingIn id ++ handedTo id l
  /-- Going on from a journal that knows the owners, it knows them. -/
  owners : ∀ earlier, s.OwnedIn earlier → s'.OwnedIn (earlier ++ l)

namespace Tells

variable {l l' : List (Entry β)} {taken taken' : Nat → List (Delivery β)}

theorem append (h : s.Tells l taken s') (h' : s'.Tells l' taken' s'') :
    s.Tells (l ++ l') (fun id => taken id ++ taken' id) s'' where
  tags := h.tags.append h'.tags
  streams id := by
    rw [handedTo_append, List.append_assoc, h'.streams id, ← List.append_assoc, h.streams id,
      List.append_assoc]
  owners earlier hearlier := by
    rw [← List.append_assoc]
    exact h'.owners _ (h.owners earlier hearlier)

/-- Nothing happens to tags or streams. -/
theorem quiet (hs : s.Sound) (hqueues : s'.queues = s.queues) (htag : s'.lastTag = s.lastTag)
    (hstreams : ∀ id, s'.streams.waitingIn id = s.streams.waitingIn id) :
    s.Tells [] (fun _ => []) s' where
  tags := by
    refine .nil hs.unsettled_le (Nat.le_of_eq htag.symm) ?_
    intro t
    unfold Unsettled queue?
    rw [hqueues]
  streams id := by
    rw [hstreams id]
    simp [handedTo]
  owners earlier hearlier := by
    rw [List.append_nil]
    exact Each.congr hearlier hqueues

theorem refl (hs : s.Sound) : s.Tells [] (fun _ => []) s := quiet hs rfl rfl fun _ => rfl

/-- Some unsettled deliveries of a queue go back to it, and the queue is dispatched. -/
theorem deliver (hs : s.Sound) {name : String} {q r : Queue β} (hq : s.queue? name = some q)
    (hr : r.Sound name s.lastTag s.streams.length)
    (howned : ∀ P, q.OwnedBy P → r.OwnedBy P) {gone : List Nat}
    (hgone : ∀ t ∈ gone, t ∈ q.tags) (htags : ∀ t, t ∈ r.tags ↔ t ∈ q.tags ∧ t ∉ gone) :
    s.Tells (gone.map Entry.returned ++ (s.dispatching r).journal) (fun _ => [])
      (s.deliver name r) where
  tags := by
    have hreturned : Explains (gone.map Entry.returned : List (Entry β)) s.lastTag s.lastTag
        (· ∈ q.tags) (· ∈ r.tags) :=
      .returned (hs.queue name q hq).issued (Nat.le_refl _) hgone htags
    have hdispatch : Explains (s.dispatching r).journal s.lastTag (s.deliver name r).lastTag
        (· ∈ r.tags) (· ∈ (s.dispatching r).run.queue.tags) :=
      Dispatching.explains (d := s.dispatching r) hr
    refine hs.explains_queue name (hreturned.append hdispatch) ?_ ?_ ?_
    · intro other hname
      rw [queue?_deliver, if_neg hname]
    · intro t
      simp [hq]
    · intro t
      rw [queue?_deliver, if_pos rfl]
      simp
  streams id := by
    rw [handedTo_append, handedTo_returned, List.nil_append, List.nil_append]
    exact (s.dispatching r).waitingIn_run id
  owners earlier hearlier := by
    have hlater := hearlier.mono (List.subset_append_left earlier
      (gone.map Entry.returned ++ (s.dispatching r).journal))
    refine hlater.deliver (howned _ (hlater name q hq)) ?_
    intro e he
    exact List.mem_append_right _ (List.mem_append_right _ he)

/-- A queue whose tags stay is dispatched. -/
theorem redeliver (hs : s.Sound) {name : String} {q r : Queue β} (hq : s.queue? name = some q)
    (hr : r.Sound name s.lastTag s.streams.length) (hunacked : r.unacked = q.unacked)
    (hconsumers : q.consumers ⊆ r.consumers) :
    s.Tells (s.dispatching r).journal (fun _ => []) (s.deliver name r) := by
  have howned : ∀ P, q.OwnedBy P → r.OwnedBy P := by
    intro P hP
    exact hP.shrink (fun _ he => hunacked ▸ he) fun _ _ _ hc _ => hconsumers hc
  have hgone : ∀ t ∈ ([] : List Nat), t ∈ q.tags := fun _ ht => by simp at ht
  have htells := deliver hs hq hr howned hgone (by simp [Queue.tags, hunacked])
  rwa [List.map_nil, List.nil_append] at htells

/-- The deliveries of a queue that satisfy a condition go back to it, and are handed out again. -/
theorem requeue (hs : s.Sound) {name : String} {q : Queue β} (hq : s.queue? name = some q)
    (p : Nat → Unacked β → Bool) :
    s.Tells ((q.tagsIf p).map Entry.returned ++ (s.dispatching (q.requeueIf p)).journal)
      (fun _ => []) (s.deliver name (q.requeueIf p)) := by
  have hsound := hs.queue name q hq
  refine deliver hs hq (hsound.requeueIf p) (fun P hP => hP.requeueIf p)
    (fun t ht => q.tagsIf_subset p ht) ?_
  intro t
  rw [Queue.tags, Queue.requeueIf_unacked]
  exact Queue.mem_tags_filter (hsound.ascending.imp Nat.ne_of_lt) p t

/-- The deliveries of a queue that satisfy a condition are settled. -/
theorem discard (hs : s.Sound) {name : String} {q : Queue β} (hq : s.queue? name = some q)
    (p : Nat → Unacked β → Bool) :
    s.Tells ((q.tagsIf p).map Entry.settled) (fun _ => []) (s.setQueue name (q.discardIf p)) where
  tags := by
    have hsound := hs.queue name q hq
    have hsettled : Explains ((q.tagsIf p).map Entry.settled : List (Entry β)) s.lastTag s.lastTag
        (· ∈ q.tags) (· ∈ (q.discardIf p).tags) :=
      .settled hsound.issued (Nat.le_refl _) (fun t ht => q.tagsIf_subset p ht)
        (Queue.mem_tags_filter (hsound.ascending.imp Nat.ne_of_lt) p)
    refine hs.explains_queue name hsettled ?_ ?_ ?_
    · intro other hname
      rw [queue?_setQueue, if_neg hname]
    · intro t
      simp [hq]
    · intro t
      rw [queue?_setQueue, if_pos rfl]
      simp
  streams id := by
    rw [handedTo_settled, List.append_nil]
    rfl
  owners earlier hearlier := by
    have hlater := hearlier.mono (List.subset_append_left earlier
      ((q.tagsIf p).map Entry.settled))
    exact Each.setQueue hlater ((hlater name q hq).discardIf p)

end Tells

/-! ## The journal of a call -/

/-- What settling a tag does: it settles the deliveries that it covers, or returns them. -/
def journalOfSettle (s : State β) (tag : Nat) (multiple : Bool) (how : Settlement) :
    List (Entry β) :=
  if s.connected then
    match s.holder? tag with
    | none => []
    | some (_, q, owner) =>
      let covered := covers tag multiple owner
      match how with
      | .requeue =>
        (q.tagsIf covered).map Entry.returned ++ (s.dispatching (q.requeueIf covered)).journal
      | .discard => (q.tagsIf covered).map Entry.settled
  else []

/-- What it does to return everything that is unsettled in one queue. -/
def journalOfReturn (s : State β) (name : String) : List (Entry β) :=
  match s.queue? name with
  | none => []
  | some q =>
    q.tags.map Entry.returned ++ (s.dispatching (q.requeueIf fun _ _ => true)).journal

/-- What it does to return everything, one queue after the other. -/
def journalOfRecover (s : State β) : List String → List (Entry β)
  | [] => []
  | name :: order => s.journalOfReturn name ++ (s.recoverQueue name).journalOfRecover order

/-- What ending the registrations of a tag does: what they held goes back. -/
def journalOfCancel (s : State β) (name tag : String) : List (Entry β) :=
  match s.queue? name with
  | none => []
  | some q =>
    if (q.without tag).consumers.length == q.consumers.length then []
    else
      (q.tagsIf fun _ u => u.owner == tag).map Entry.returned ++
        if (q.without tag).consumers.isEmpty && q.settings.autoDelete then []
        else (s.dispatching (q.without tag)).journal

/-- What a call does to the delivery tags. -/
def journalOf (s : State β) : Call β → List (Entry β)
  | .stop => if s.connected then s.unsettledTags.map Entry.returned else []
  | .publish settings body =>
    if s.routes settings then
      match s.queue? settings.routingKey with
      | none => []
      | some q => (s.dispatching { q with ready := q.ready ++ [message settings body] }).journal
    else []
  | .consume settings =>
    match (s.consume settings).1, s.queue? settings.queue with
    | .ok _, some q =>
      (s.withStream.dispatching
        { q with consumers := q.consumers ++ [s.registration q settings] }).journal
    | _, _ => []
  | .ack tag multiple => s.journalOfSettle tag multiple .discard
  | .nack tag multiple requeue =>
    s.journalOfSettle tag multiple (if requeue then .requeue else .discard)
  | .recover order => if s.connected then s.journalOfRecover order else []
  | .cancel name tag => s.journalOfCancel name tag
  | _ => []

/-- What a call takes from the stream of a number. -/
def takes (s : State β) (id : Nat) : Call β → List (Delivery β)
  | .receive c =>
    match (s.receive c).1 with
    | .delivery d => if c.stream = id then [d] else []
    | _ => []
  | _ => []

/-! ## Every call has its journal -/

theorem tells_stop (hs : s.Sound) :
    s.Tells (s.journalOf .stop) (fun _ => []) (s.perform .stop) := by
  by_cases hconnected : s.connected = true
  · rw [journalOf, if_pos hconnected, perform, stop, if_pos hconnected]
    -- A queue that was abandoned has nothing unsettled.
    have hnothing : Each (fun q => q.unacked = [])
        ({ s with
            connected := false
            queues := (s.queues.map fun e => (e.1, e.2.abandoned)).filter
              fun e => e.2.settings.durable } : State β) := by
      refine Each.stopped rfl ?_
      intro q
      rw [Queue.abandoned, Queue.requeueIf_unacked]
      simp
    constructor
    · refine .returned hs.unsettled_le (Nat.le_refl _) (fun t ht => hs.mem_unsettledTags.mp ht) ?_
      intro t
      constructor
      · rintro ⟨name, r, hr, ht⟩
        simp [Queue.tags, hnothing name r hr] at ht
      · rintro ⟨hopen, hnot⟩
        exact absurd (hs.mem_unsettledTags.mpr hopen) hnot
    · intro id
      rw [handedTo_returned, List.append_nil]
      rfl
    · intro earlier _ name r hr e he
      simp [hnothing name r hr] at he
  · rw [journalOf, if_neg hconnected, perform, stop, if_neg hconnected]
    exact .refl hs

theorem tells_declare (hs : s.Sound) (settings : QueueSettings) :
    s.Tells [] (fun _ => []) (s.declare settings).2 := by
  unfold declare
  split
  · exact .refl hs
  · cases hq : s.queue? settings.name with
    | some q => exact .refl hs
    | none =>
        -- The new queue is empty, and no other one goes.
        have hnothing : Explains ([] : List (Entry β)) s.lastTag s.lastTag (fun _ => False)
            (fun _ => False) := .nil (fun _ h => h.elim) (Nat.le_refl _) fun _ => Iff.rfl
        refine ⟨hs.explains_queue settings.name hnothing ?_ ?_ ?_, ?_, ?_⟩
        · intro other hname
          rw [queue?_setQueue, if_neg hname]
        · intro t
          simp [hq]
        · intro t
          rw [queue?_setQueue, if_pos rfl]
          simp [Queue.tags]
        · exact fun id => (List.append_nil _).symm
        · intro earlier hearlier
          rw [List.append_nil]
          exact Each.setQueue hearlier fun e he => by simp at he

theorem tells_publish (hs : s.Sound) (settings : PublishSettings) (body : β) :
    s.Tells (s.journalOf (.publish settings body)) (fun _ => []) (s.publish settings body).2 := by
  by_cases hroutes : s.routes settings = true
  · obtain ⟨hconnected, hexchange, q, hq⟩ := routes_iff.mp hroutes
    rw [journalOf, if_pos hroutes, hq, publish_routed body hconnected hexchange hq]
    exact .redeliver hs hq ((hs.queue _ q hq).push rfl) rfl (List.Subset.refl _)
  · have hidle : s.routes settings = false := by simpa using hroutes
    rw [journalOf, if_neg hroutes, publish_unrouted body hidle]
    exact .refl hs

theorem tells_consume (hs : s.Sound) (settings : ConsumeSettings) :
    s.Tells (s.journalOf (.consume settings)) (fun _ => []) (s.consume settings).2 := by
  rw [journalOf]
  rcases consume_cases s settings with ⟨e, n, heq⟩ | ⟨q, hconnected, hq, hadmits⟩
  · rw [heq]
    exact .quiet hs rfl rfl fun _ => rfl
  · rw [consume_admitted hconnected hq hadmits, hq]
    -- The consumer gets its stream first, in which nothing waits.
    have hstream : s.Tells [] (fun _ => []) s.withStream :=
      .quiet hs rfl rfl fun id => s.streams.waitingIn_fresh id
    exact hstream.append (.redeliver hs.withStream hq (hs.joined hq) rfl
      (List.subset_append_left _ _))

theorem tells_settle (hs : s.Sound) (tag : Nat) (multiple : Bool) (how : Settlement) :
    s.Tells (s.journalOfSettle tag multiple how) (fun _ => []) (s.settle tag multiple how).2 := by
  rcases settle_cases s tag multiple how with
    ⟨heq, hnone⟩ | ⟨name, q, owner, hconnected, hholder, heq⟩
  · have hempty : s.journalOfSettle tag multiple how = [] := by
      rcases hnone with hclosed | hnone
      · simp [journalOfSettle, hclosed]
      · simp [journalOfSettle, hnone]
    rw [heq, hempty]
    exact .refl hs
  · obtain ⟨hq, -⟩ := holder?_eq_some hs.names hholder
    rw [heq, journalOfSettle, if_pos hconnected, hholder]
    cases how with
    | requeue => exact .requeue hs hq _
    | discard => exact .discard hs hq _

theorem tells_recoverQueue (hs : s.Sound) (name : String) :
    s.Tells (s.journalOfReturn name) (fun _ => []) (s.recoverQueue name) := by
  rw [journalOfReturn, recoverQueue_eq]
  cases hq : s.queue? name with
  | none => exact .refl hs
  | some q =>
      have htells := Tells.requeue hs hq fun _ _ => true
      have hall : (q.tagsIf fun _ _ => true) = q.tags := by simp [Queue.tagsIf, Queue.tags]
      rwa [hall] at htells

theorem Sound.recoverQueue (hs : s.Sound) (name : String) : (s.recoverQueue name).Sound := by
  rw [recoverQueue_eq]
  cases hq : s.queue? name with
  | none => exact hs
  | some q => exact hs.deliver_requeued hq _

theorem tells_recover (hs : s.Sound) (order : List String) :
    s.Tells (s.journalOf (.recover order)) (fun _ => []) (s.recoverIn order) := by
  rw [journalOf, recoverIn]
  split
  · next hconnected =>
    clear hconnected
    induction order generalizing s with
    | nil => exact .refl hs
    | cons name order ih => exact (tells_recoverQueue hs name).append (ih (hs.recoverQueue name))
  · exact .refl hs

theorem tells_cancel (hs : s.Sound) (howned : s.Owned) (name tag : String) :
    s.Tells (s.journalOfCancel name tag) (fun _ => []) (s.cancel name tag) := by
  rw [journalOfCancel, cancel_eq]
  cases hq : s.queue? name with
  | none => exact .refl hs
  | some q =>
      have hsound := hs.queue name q hq
      have hstays : ∀ t, t ∈ (q.without tag).tags ↔
          t ∈ q.tags ∧ t ∉ q.tagsIf fun _ u => u.owner == tag := by
        intro t
        rw [Queue.tags, Queue.without, Queue.requeueIf_unacked]
        exact Queue.mem_tags_filter (hsound.ascending.imp Nat.ne_of_lt) (fun _ u => u.owner == tag) t
      dsimp only
      split
      · exact .refl hs
      · split
        · next hgone =>
          rw [Bool.and_eq_true, List.isEmpty_iff] at hgone
          rw [List.append_nil]
          refine ⟨?_, fun id => ?_, fun earlier hearlier other r hr => ?_⟩
          · have hreturned : Explains
                ((q.tagsIf fun _ u => u.owner == tag).map Entry.returned : List (Entry β))
                s.lastTag s.lastTag (· ∈ q.tags) (· ∈ (q.without tag).tags) :=
              .returned hsound.issued (Nat.le_refl _) (fun t ht => q.tagsIf_subset _ ht) hstays
            refine hs.explains_queue name hreturned ?_ ?_ ?_
            · intro other hname
              rw [queue?, Table.get?_erase, if_neg hname]
              rfl
            · intro t
              simp [hq]
            · intro t
              -- Nobody is left to own a delivery.
              have hnothing : (q.without tag).unacked = [] :=
                ((howned name q hq).without tag).unacked_eq_nil hgone.1
              rw [queue?, Table.get?_erase, if_pos rfl, Queue.tags, hnothing]
              simp
          · rw [handedTo_returned, List.append_nil]
            rfl
          · have hkept := Each.erase hearlier name other r hr
            exact hkept.mono fun _ _ => Hands.mono (List.subset_append_left _ _)
        · exact .deliver hs hq (hsound.without tag) (fun P hP => hP.without tag)
            (fun t ht => q.tagsIf_subset _ ht) hstays

theorem tells_receive (hs : s.Sound) (c : Consumer) :
    s.Tells [] (fun id => s.takes id (.receive c)) (s.receive c).2 := by
  rcases receive_cases s c with ⟨heq, hnone⟩ | ⟨stream, d, waiting, hstream, hwaiting, heq⟩
  · have htakes : ∀ id, s.takes id (.receive c) = [] := by
      intro id
      rw [takes]
      split
      · next d hd => exact absurd hd (hnone d)
      · rfl
    simp only [heq, htakes]
    exact .refl hs
  · have hqueues : (s.receive c).2.queues = s.queues := by rw [heq]
    have hquiet : ∀ t, Unsettled (s.receive c).2 t ↔ s.Unsettled t := by
      intro t
      unfold Unsettled queue?
      rw [hqueues]
    have htag : (s.receive c).2.lastTag = s.lastTag := by rw [heq]
    refine ⟨.nil hs.unsettled_le (Nat.le_of_eq htag.symm) hquiet, fun id => ?_, fun earlier hearlier => ?_⟩
    -- What is taken was the first delivery that waited.
    rw [takes, heq]
    dsimp only
    rw [Streams.waitingIn_set hstream]
    by_cases hid : c.stream = id
    · subst hid
      rw [if_pos rfl, if_pos rfl, Streams.waitingIn_of_some hstream, hwaiting]
      exact (List.append_nil _).symm
    · rw [if_neg hid, if_neg hid]
      exact (List.append_nil _).symm
    · rw [List.append_nil]
      exact Each.congr hearlier hqueues

theorem tells_close (hs : s.Sound) (c : Consumer) :
    s.Tells [] (fun _ => []) (s.closeStream c) := by
  unfold closeStream
  split
  · exact .refl hs
  · next stream hstream =>
    refine .quiet hs rfl rfl fun id => ?_
    dsimp only
    rw [Streams.waitingIn_set hstream]
    by_cases hid : c.stream = id
    · subst hid
      rw [if_pos rfl, Streams.waitingIn_of_some hstream]
    · rw [if_neg hid]

/-- What a call does is told by its journal, and by what it takes. -/
theorem tells_perform (hs : s.Sound) (howned : s.Owned) (c : Call β) :
    s.Tells (s.journalOf c) (fun id => s.takes id c) (s.perform c) := by
  cases c with
  | start => exact .quiet hs rfl rfl fun _ => rfl
  | stop => exact tells_stop hs
  | declare settings => exact tells_declare hs settings
  | publish settings body => exact tells_publish hs settings body
  | consume settings => exact tells_consume hs settings
  | ack tag multiple => exact tells_settle hs tag multiple .discard
  | nack tag multiple requeue => exact tells_settle hs tag multiple _
  | recover order => exact tells_recover hs order
  | receive c => exact tells_receive hs c
  | close c => exact tells_close hs c
  | cancel name tag => exact tells_cancel hs howned name tag

/-! ## Runs -/

/-- The journal of calls that are made one after the other. -/
def journalFrom (s : State β) : List (Call β) → List (Entry β)
  | [] => []
  | c :: calls => s.journalOf c ++ (s.perform c).journalFrom calls

/-- What such calls take from the stream of a number. -/
def takenFrom (s : State β) (id : Nat) : List (Call β) → List (Delivery β)
  | [] => []
  | c :: calls => s.takes id c ++ (s.perform c).takenFrom id calls

theorem journalFrom_append (s : State β) (calls after : List (Call β)) :
    s.journalFrom (calls ++ after) =
      s.journalFrom calls ++ (calls.foldl perform s).journalFrom after := by
  induction calls generalizing s with
  | nil => rfl
  | cons c calls ih =>
      rw [List.cons_append, journalFrom, journalFrom, ih, List.append_assoc]
      rfl

/-- What calls do is told by their journal, and by what they take. -/
theorem tells_foldl (hs : s.Sound) (howned : s.Owned) (calls : List (Call β)) :
    s.Tells (s.journalFrom calls) (fun id => s.takenFrom id calls) (calls.foldl perform s) := by
  induction calls generalizing s with
  | nil => exact .refl hs
  | cons c calls ih =>
      have hfirst := tells_perform hs howned c
      have hrest := ih (hs.perform c) (howned.perform hs c)
      exact hfirst.append hrest

end State

/-- The journal of a run from a fresh broker. -/
def journal (calls : List (Call β)) : List (Entry β) := ({} : State β).journalFrom calls

/-- What is taken from the stream of a number in a run from a fresh broker. -/
def takenIn (calls : List (Call β)) (id : Nat) : List (Delivery β) :=
  ({} : State β).takenFrom id calls

open State

theorem journal_append (calls after : List (Call β)) :
    journal (calls ++ after) = journal calls ++ (run calls).journalFrom after :=
  journalFrom_append _ _ _

theorem journal_concat (calls : List (Call β)) (c : Call β) :
    journal (calls ++ [c]) = journal calls ++ (run calls).journalOf c := by
  rw [journal_append, journalFrom, journalFrom, List.append_nil]

theorem run_append (calls after : List (Call β)) :
    run (calls ++ after) = after.foldl perform (run calls) := by
  rw [run, List.foldl_append]
  rfl

/-- The journal of a run tells everything from the fresh broker on. -/
theorem tells_run (calls : List (Call β)) :
    ({} : State β).Tells (journal calls) (takenIn calls) (run calls) :=
  tells_foldl State.Sound.fresh (fun name q hq => by simp [queue?] at hq) calls

/-- At every point of every run, unsettled deliveries are with the registered consumers to which
    they were handed. -/
theorem run_ownedIn (calls : List (Call β)) : (run calls).OwnedIn (journal calls) := by
  have hfresh : ({} : State β).OwnedIn [] := by
    intro name q hq
    simp [queue?] at hq
  have howned := (tells_run calls).owners [] hfresh
  rwa [List.nil_append] at howned

/-- What goes on after a run is told by the journal from there on. -/
theorem tells_after (calls after : List (Call β)) :
    (run calls).Tells ((run calls).journalFrom after) (fun id => (run calls).takenFrom id after)
      (run (calls ++ after)) := by
  rw [run_append]
  exact tells_foldl (run_sound calls) (run_owned calls) after

end Almanac.Broker
