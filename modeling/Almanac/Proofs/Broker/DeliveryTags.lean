/-
  Almanac.Proofs.Broker.DeliveryTags

  A delivery tag stands for one delivery, for all time. Tags are given out in ascending order
  (`Explains.ascending`), so a tag up to the latest one that is not unsettled now can never be
  unsettled again (`refuses_ever_after`): whoever names it is refused and changes nothing. And the
  queue with an unsettled delivery is the only one (`unsettledTags_nodup`), so that the order in
  which the queues are searched for it cannot matter (`settle_reordered`).
-/
import Almanac.Proofs.Broker.Recorded
import Mathlib

namespace Almanac.Broker

variable {β : Type}

namespace State

variable {s s' : State β}

/-! ## One delivery for a tag -/

/-- No two deliveries are unsettled under one tag. -/
theorem Sound.unsettledTags_nodup (hs : s.Sound) : s.unsettledTags.Nodup := by
  unfold unsettledTags
  rw [List.nodup_flatMap]
  constructor
  · intro e he
    have hq := Table.get?_of_mem hs.names he
    exact (hs.queue e.1 e.2 hq).ascending.imp Nat.ne_of_lt
  · -- Entries of different names share no tag.
    have hnames : s.queues.Pairwise fun e e' => e.1 ≠ e'.1 := List.pairwise_map.mp hs.names
    refine hnames.imp_of_mem ?_
    intro e e' he he' hne t ht ht'
    have hq := Table.get?_of_mem hs.names he
    have hq' := Table.get?_of_mem hs.names he'
    exact hne (hs.apart e.1 e.2 e'.1 e'.2 hq hq' t ht ht')

/-- A tag has a holder when a delivery is unsettled under it. -/
theorem Sound.holder?_eq_none (hs : s.Sound) {t : Nat} (h : ¬ s.Unsettled t) :
    s.holder? t = none := by
  cases hholder : s.holder? t with
  | none => rfl
  | some found =>
      obtain ⟨name, q, owner⟩ := found
      obtain ⟨hq, u, hlookup, -⟩ := holder?_eq_some hs.names hholder
      exact absurd ⟨name, q, hq, mem_tags_of_lookup hlookup⟩ h

/-! ## Refusals -/

/-- The answer to a settlement of a tag that stands for nothing. -/
def refusal (s : State β) (t : Nat) : Error :=
  if s.connected then .unknownDeliveryTag t else .notConnected

/-- Whoever names a tag is refused, and nothing changes. -/
def Refuses (s : State β) (t : Nat) : Prop :=
  (∀ multiple, s.ack t multiple = (.error (s.refusal t), s)) ∧
  ∀ multiple requeue, s.nack t multiple requeue = (.error (s.refusal t), s)

theorem settle_refused {t : Nat} (h : s.connected = false ∨ s.holder? t = none) (multiple : Bool)
    (how : Settlement) : s.settle t multiple how = (.error (s.refusal t), s) := by
  unfold settle refusal
  by_cases hconnected : s.connected = true
  · have hnone : s.holder? t = none := h.resolve_left (by simp [hconnected])
    rw [if_neg (by simp [hconnected]), if_pos hconnected, hnone]
  · rw [if_pos (by simpa using hconnected), if_neg hconnected]

/-- A settlement that finds the holder of a tag succeeds. -/
theorem settle_of_holder? {t : Nat} {name owner : String} {q : Queue β}
    (hconnected : s.connected = true) (h : s.holder? t = some (name, q, owner)) (multiple : Bool)
    (how : Settlement) :
    s.settle t multiple how = (.ok (),
      match how with
      | .requeue => s.deliver name (q.requeueIf (covers t multiple owner))
      | .discard => s.setQueue name (q.discardIf (covers t multiple owner))) := by
  unfold settle
  rw [if_neg (by simp [hconnected]), h]
  cases how with
  | requeue =>
      dsimp only
      rw [setQueue_dispatch]
      rfl
  | discard => rfl

theorem Sound.refuses (hs : s.Sound) {t : Nat} (h : ¬ s.Unsettled t) : s.Refuses t := by
  have hnone := hs.holder?_eq_none h
  constructor
  · intro multiple
    exact settle_refused (Or.inr hnone) multiple .discard
  · intro multiple requeue
    exact settle_refused (Or.inr hnone) multiple _

/-- A tag that has been given out and is not unsettled is never unsettled again. -/
theorem settled_ever_after (calls after : List (Call β)) {t : Nat}
    (hle : t ≤ (run calls).lastTag) (h : ¬ (run calls).Unsettled t) :
    ¬ (run (calls ++ after)).Unsettled t := by
  have hlater := (tells_after calls after).tags
  intro hagain
  rcases ((hlater.still t).mp hagain).1 with hbefore | hopened
  · exact h hbefore
  · -- What is opened later is beyond all the tags that there were.
    have hlt := (hlater.new t (mem_issuedIn_of_opened hopened)).1
    omega

theorem refuses_ever_after (calls after : List (Call β)) {t : Nat}
    (hle : t ≤ (run calls).lastTag) (h : ¬ (run calls).Unsettled t) :
    (run (calls ++ after)).Refuses t :=
  (run_sound (calls ++ after)).refuses (settled_ever_after calls after hle h)

/-! ## What a settlement ends -/

/-- A settlement that succeeds ends the tag that it names. -/
theorem mem_endedIn_of_settle (hs : s.Sound) {t : Nat} {multiple : Bool} {how : Settlement}
    (h : (s.settle t multiple how).1 = .ok ()) :
    t ∈ endedIn (s.journalOfSettle t multiple how) := by
  have hopen : ¬ (s.connected = false ∨ s.holder? t = none) := by
    intro hnone
    rw [settle_refused hnone] at h
    simp at h
  rw [not_or] at hopen
  obtain ⟨hconnected, hsome⟩ := hopen
  obtain ⟨⟨name, q, owner⟩, hholder⟩ := Option.ne_none_iff_exists'.mp hsome
  obtain ⟨-, u, hlookup, rfl⟩ := holder?_eq_some hs.names hholder
  -- The delivery with the tag is among those that are covered.
  have hcovered : t ∈ q.tagsIf (covers t multiple u.owner) := by
    obtain ⟨l₁, l₂, heq, -⟩ := List.lookup_eq_some_iff.mp hlookup
    refine List.mem_map.mpr ⟨(t, u), List.mem_filter.mpr ⟨?_, ?_⟩, rfl⟩
    · rw [heq]
      exact List.mem_append_right _ List.mem_cons_self
    · cases multiple <;> simp [covers]
  rw [journalOfSettle, if_pos (by simpa using hconnected), hholder]
  cases how with
  | requeue =>
      dsimp only
      rw [endedIn_append, endedIn_returned]
      exact List.mem_append_left _ hcovered
  | discard =>
      dsimp only
      rw [endedIn_settled]
      exact hcovered

/-! ## The order of the search -/

/-- The same broker with its queues in another order. -/
structure Reorders (s s' : State β) : Prop where
  queues : s.queues.Perm s'.queues
  rest : s' = { s with queues := s'.queues }

namespace Reorders

theorem queue? (h : s.Reorders s') (hs : s.Sound) (name : String) :
    s'.queue? name = s.queue? name :=
  Table.get?_perm hs.names h.queues name

theorem sound (h : s.Reorders s') (hs : s.Sound) : s'.Sound := by
  have htag : s'.lastTag = s.lastTag := by rw [h.rest]
  have hstreams : s'.streams = s.streams := by rw [h.rest]
  refine hs.restrict (Table.nodup_keys_perm hs.names h.queues) htag hstreams ?_
  intro name r hr
  rw [h.queue? hs] at hr
  exact ⟨r, hr, List.Subset.refl _, List.Sublist.refl _, List.Subset.refl _⟩

/-- Whatever the order, the search finds the same queue. -/
theorem holder? (h : s.Reorders s') (hs : s.Sound) (t : Nat) : s'.holder? t = s.holder? t := by
  by_cases hunsettled : s.Unsettled t
  · obtain ⟨name, q, hq, ht⟩ := hunsettled
    have hq' : s'.queue? name = some q := (h.queue? hs name).trans hq
    obtain ⟨e, he, rfl⟩ := List.mem_map.mp ht
    cases hlookup : q.unacked.lookup e.1 with
    | none => exact absurd (List.lookup_eq_none_iff.mp hlookup e he) (by simp)
    | some u =>
        rw [hs.holder?_of_lookup hq hlookup, (h.sound hs).holder?_of_lookup hq' hlookup]
  · have hunsettled' : ¬ s'.Unsettled t := by
      rintro ⟨name, q, hq, ht⟩
      exact hunsettled ⟨name, q, (h.queue? hs name).symm.trans hq, ht⟩
    rw [hs.holder?_eq_none hunsettled, (h.sound hs).holder?_eq_none hunsettled']

theorem setQueue (h : s.Reorders s') (hs : s.Sound) (name : String) (q : Queue β) :
    (s.setQueue name q).Reorders (s'.setQueue name q) where
  queues := Table.perm_insert hs.names h.queues name q
  rest := by
    rw [h.rest]
    rfl

theorem deliver (h : s.Reorders s') (hs : s.Sound) (name : String) (q : Queue β) :
    (s.deliver name q).Reorders (s'.deliver name q) := by
  have hsame : s'.dispatching q = s.dispatching q := by
    rw [h.rest]
    rfl
  constructor
  · rw [deliver_queues, deliver_queues, hsame]
    exact Table.perm_insert hs.names h.queues name _
  · rw [State.deliver, State.deliver, hsame, h.rest]
    rfl

end Reorders

/-- A settlement answers the same and does the same, in whatever order the queues are searched. -/
theorem settle_reordered (hs : s.Sound) (h : s.Reorders s') (t : Nat) (multiple : Bool)
    (how : Settlement) :
    (s'.settle t multiple how).1 = (s.settle t multiple how).1 ∧
      (s.settle t multiple how).2.Reorders (s'.settle t multiple how).2 := by
  have hholder := h.holder? hs t
  have hconnected : s'.connected = s.connected := by rw [h.rest]
  by_cases hopen : s.connected = true ∧ (s.holder? t).isSome = true
  · obtain ⟨hopen, hsome⟩ := hopen
    obtain ⟨⟨name, q, owner⟩, hfound⟩ := Option.isSome_iff_exists.mp hsome
    rw [settle_of_holder? hopen hfound,
      settle_of_holder? (hconnected.trans hopen) (hholder.trans hfound)]
    refine ⟨rfl, ?_⟩
    cases how with
    | requeue => exact h.deliver hs name _
    | discard => exact h.setQueue hs name _
  · have hrefused : ∀ e : State β, e.connected = s.connected → e.holder? t = s.holder? t →
        e.settle t multiple how = (.error (e.refusal t), e) := by
      intro e heconnected heholder
      refine settle_refused ?_ multiple how
      rw [heconnected, heholder]
      by_cases hnone : s.holder? t = none
      · exact Or.inr hnone
      · left
        simpa [Option.ne_none_iff_isSome.mp hnone] using hopen
    rw [hrefused s rfl rfl, hrefused s' hconnected hholder]
    refine ⟨?_, h⟩
    simp only [refusal, hconnected]

end State

/-! ## Delivery tags of a run -/

open State

/-- Delivery tags at every point of every run. No two deliveries are unsettled under one tag, and
    all these tags have been given out. Tags were handed to the consumers in ascending order, as
    the deliveries in the streams and the ones that were taken from them show; those that are
    unsettled are the ones that wait for a settlement and have not been ended. Whoever settles a
    tag ends it, and so does a return, and a consumer that takes deliveries as acknowledged: from
    then on, whatever comes after, naming the tag is refused and changes nothing. So a settlement
    does not depend on the order in which the queues are searched. -/
theorem delivery_tags_never_reused (calls : List (Call β)) :
    (run calls).unsettledTags.Nodup ∧
    (∀ t ∈ (run calls).unsettledTags, t ≤ (run calls).lastTag) ∧
    (issuedIn (journal calls)).Pairwise (· < ·) ∧
    (∀ id, takenIn calls id ++ (run calls).streams.waitingIn id = handedTo id (journal calls)) ∧
    (∀ t, t ∈ (run calls).unsettledTags ↔
      t ∈ openedIn (journal calls) ∧ t ∉ endedIn (journal calls)) ∧
    (∀ t multiple, ((run calls).ack t multiple).1 = .ok () →
      t ∈ endedIn (journal (calls ++ [.ack t multiple]))) ∧
    (∀ t multiple requeue, ((run calls).nack t multiple requeue).1 = .ok () →
      t ∈ endedIn (journal (calls ++ [.nack t multiple requeue]))) ∧
    (∀ t ∈ endedIn (journal calls), ∀ after, (run (calls ++ after)).Refuses t) ∧
    (∀ s', (run calls).Reorders s' → ∀ t multiple how,
      (s'.settle t multiple how).1 = ((run calls).settle t multiple how).1 ∧
      ((run calls).settle t multiple how).2.Reorders (s'.settle t multiple how).2) := by
  have hsound : (run calls).Sound := run_sound calls
  have htells := tells_run calls
  have hstill : ∀ t, (run calls).Unsettled t ↔
      t ∈ openedIn (journal calls) ∧ t ∉ endedIn (journal calls) := by
    intro t
    rw [htells.tags.still t]
    -- Nothing was unsettled in the fresh broker.
    have hfresh : ¬ ({} : State β).Unsettled t := by
      rintro ⟨name, q, hq, -⟩
      simp [queue?] at hq
    tauto
  refine ⟨hsound.unsettledTags_nodup, ?_, htells.tags.ascending, ?_, ?_, ?_, ?_, ?_, ?_⟩
  · intro t ht
    exact hsound.unsettled_le t (hsound.mem_unsettledTags.mp ht)
  · intro id
    rw [htells.streams id]
    rfl
  · intro t
    rw [hsound.mem_unsettledTags]
    exact hstill t
  · intro t multiple hok
    rw [journal_concat, endedIn_append]
    exact List.mem_append_right _ (mem_endedIn_of_settle hsound hok)
  · intro t multiple requeue hok
    rw [journal_concat, endedIn_append]
    exact List.mem_append_right _ (mem_endedIn_of_settle hsound hok)
  · intro t ht after
    refine refuses_ever_after calls after (htells.tags.ended_le t ht) ?_
    intro hunsettled
    exact ((hstill t).mp hunsettled).2 ht
  · intro s' hreorders t multiple how
    exact settle_reordered hsound hreorders t multiple how

/-- One delivery is acknowledged, another one goes with its queue when the broker stops. The queue
    is declared again, and a consumer with the same name as before is handed a third one. -/
def lateSettler : List (Call String) :=
  [.start, .declare { name := "q", durable := false }, .consume { queue := "q", consumer := "a" },
    .publish { routingKey := "q" } "m", .publish { routingKey := "q" } "n", .ack 1 false, .stop,
    .start, .declare { name := "q", durable := false }, .consume { queue := "q", consumer := "a" },
    .publish { routingKey := "q" } "o"]

/-- Who settles the lost delivery late does not hit the third one. -/
theorem lateSettler_refused :
    endedIn (journal lateSettler) = [1, 2] ∧ (run lateSettler).unsettledTags = [3] ∧
      (run (lateSettler ++ [.receive ⟨"a", "q", 1⟩])).Refuses 2 := by
  have hended : endedIn (journal lateSettler) = [1, 2] := by cbv
  obtain ⟨-, -, -, -, -, -, -, hrefuses, -⟩ := delivery_tags_never_reused lateSettler
  refine ⟨hended, by cbv, hrefuses 2 ?_ _⟩
  rw [hended]
  exact List.mem_cons_of_mem _ (List.mem_singleton.mpr rfl)

end Almanac.Broker
