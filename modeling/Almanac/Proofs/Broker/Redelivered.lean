/-
  Almanac.Proofs.Broker.Redelivered

  The flag of a delivery tells the truth: it is set from the second hand-out of a message on, and
  not on the first.

  Bodies carry the number of the call that published them, so a number stands for a message. What
  is handed out in a run has been published in it (`source_of_handedIn`): a dispatch only hands out
  what its queue holds when it begins (`Begins.mem_published`). So two hand-outs of one number are
  hand-outs of one message, and the order that `FirstInOrder` keeps over a run says of each of them
  whether there was one before.
-/
import Almanac.Proofs.Broker.FirstInFirstOut

namespace Almanac.Broker

variable {β : Type}

/-! ## What is handed out was published -/

namespace Dispatching

variable {d e : Dispatching β}

/-- A round brings no message into its queue. -/
theorem Round.labels_subset (hround : Round d e) : e.queue.labels ⊆ d.queue.labels := by
  cases hround with
  | lost => exact (d.afterLoss_labels_perm _ _).subset
  | @handed message ready index consumer streams hready hindex hconsumer hoffer =>
      have hperm := d.afterHandOut_labels_perm index consumer hready
      exact List.Subset.trans (List.subset_append_left _ _) hperm.subset

theorem labels_subset_of_rounds (hpath : Relation.ReflTransGen Round d e) :
    e.queue.labels ⊆ d.queue.labels := by
  induction hpath with
  | refl => exact List.Subset.refl _
  | tail _ hround ih => exact List.Subset.trans hround.labels_subset ih

end Dispatching

open State

/-- What a queue holds at the end of a run was published in it. -/
theorem published_of_queue {calls : List (Call β)} {name : String} {q : Queue β}
    (hq : (run calls).queue? name = some q) {l : String × β} (hl : l ∈ q.labels) :
    l ∈ (Ledger.run calls).published := by
  rw [← Ledger.run_state] at hq
  exact (Ledger.run_even calls).published_of_held hq hl

/-- A call begins its dispatches with messages that were published by then, itself included. -/
theorem State.Begins.mem_published {calls : List (Call β)} {c : Call β} {d : Dispatching β}
    (hbegins : (run calls).Begins c d) {l : String × β} (hl : l ∈ d.queue.labels) :
    l ∈ (Ledger.run (calls ++ [c])).published := by
  rw [Ledger.run_concat, Ledger.enter, Ledger.run_state]
  -- The message of the call itself apart, what a dispatch begins with was in its queue before.
  have hheld {name : String} {q : Queue β} (hq : (run calls).queue? name = some q)
      (hlabel : l ∈ q.labels) :
      l ∈ (Ledger.run calls).published ++ (run calls).publishedBy c :=
    List.mem_append_left _ (published_of_queue hq hlabel)
  cases hbegins with
  | @published settings body q hconnected hexchange hq =>
      have hsplit : l ∈ q.labels ∨ l = (settings.routingKey, body) := by
        simp only [dispatching, Queue.labels, Queue.readyLabels, Queue.unackedLabels,
          List.map_append, List.map_cons, List.map_nil, List.mem_append, List.mem_singleton] at hl ⊢
        rcases hl with (hready | hnew) | hunacked
        · exact Or.inl (Or.inl hready)
        · exact Or.inr hnew
        · exact Or.inl (Or.inr hunacked)
      rcases hsplit with hold | rfl
      · exact hheld hq hold
      · have hroutes : (run calls).routes settings = true :=
          routes_iff.mpr ⟨hconnected, hexchange, q, hq⟩
        refine List.mem_append_right _ ?_
        rw [publishedBy, if_pos hroutes]
        exact List.mem_singleton.mpr rfl
  | consumed hconnected hq hadmits => exact hheld hq hl
  | returned hconnected hholder =>
      obtain ⟨hq, -⟩ := holder?_eq_some (run_sound calls).names hholder
      exact hheld hq ((Queue.requeueIf_labels_perm _ _).subset hl)
  | @recovered first rest name q hconnected hq =>
      -- By then the run has recovered the queues in front, which publishes nothing.
      have hq' : (run (calls ++ [.recover first])).queue? name = some q := by
        rwa [run_concat]
      have hpublished := published_of_queue hq' ((Queue.requeueIf_labels_perm _ _).subset hl)
      rw [Ledger.run_concat, Ledger.enter] at hpublished
      exact hpublished
  | @cancelled name tag q hq hgoes hstays =>
      have hback : (q.without tag).labels ⊆ q.labels := (Queue.requeueIf_labels_perm _ _).subset
      exact hheld hq (hback hl)

/-- What is handed out in a numbered run was published by the call with its number, under the same
    routing key and with the same body. -/
theorem source_of_handedIn {calls : List (Call β)} {x : Delivery (Nat × β)}
    (hx : x ∈ handedIn (journal (numbered calls))) :
    ∃ settings, calls[x.number]? = some (.publish settings x.body.2) ∧
      settings.routingKey = x.routingKey := by
  induction calls using List.reverseRecOn with
  | nil => simp [numbered, journal, journalFrom, handedIn] at hx
  | append_singleton calls c ih =>
      rw [numbered_concat, journal_concat, handedIn_append] at hx
      rcases List.mem_append.mp hx with hold | hnew
      · obtain ⟨settings, hcall, hkey⟩ := ih hold
        have hlt : x.number < calls.length := (List.getElem?_eq_some_iff.mp hcall).1
        exact ⟨settings, (List.getElem?_append_left hlt).trans hcall, hkey⟩
      · obtain ⟨rest, d, e, hbegins, hpath, hready⟩ := front_of_journalOf hnew
        have hfront : x.toMessage.label ∈ e.queue.labels := by
          simp [Queue.labels, Queue.readyLabels, hready]
        have hpublished :=
          hbegins.mem_published (Dispatching.labels_subset_of_rounds hpath hfront)
        rw [← numbered_concat] at hpublished
        exact published_source hpublished

/-! ## Hand-outs of one message -/

/-- The hand-outs of the message with a number, in their order. -/
def handOutsOf (i : Nat) (handed : List (Delivery (Nat × β))) : List (Delivery (Nat × β)) :=
  handed.filter fun d => d.number == i

/-- An element that passes a test stands behind as many that pass it as it does in the list of
    those. -/
theorem split_of_getElem?_filter {α : Type} {p : α → Bool} {l : List α} {k : Nat} {x : α}
    (h : (l.filter p)[k]? = some x) :
    ∃ before after, l = before ++ x :: after ∧ p x = true ∧ (before.filter p).length = k := by
  obtain ⟨hlt, hx⟩ := List.getElem?_eq_some_iff.mp h
  have hsplit : l.filter p = (l.filter p).take k ++ x :: (l.filter p).drop (k + 1) := by
    rw [← hx, List.getElem_cons_drop, List.take_append_drop]
  obtain ⟨first, second, rfl, hfirst, hsecond⟩ := List.filter_eq_append_iff.mp hsplit
  obtain ⟨between, after, rfl, hbetween, hpx, -⟩ := List.filter_eq_cons_iff.mp hsecond
  refine ⟨first ++ between, after, by rw [List.append_assoc], hpx, ?_⟩
  have hnone : between.filter p = [] := List.filter_eq_nil_iff.mpr hbetween
  rw [List.filter_append, hnone, List.append_nil, hfirst, List.length_take]
  omega

/-- The redelivered flag tells the truth, over every run. The numbers of the calls tell the
    messages apart, and without them the run is the run itself. A hand-out has succeeded when the
    delivery is in a stream: what a consumer has taken, and what waits for it, is what was handed to
    its stream, in order. What is handed out under a number is the message that the call with this
    number has published. Of the hand-outs of one message, to whatever consumers and after whatever
    returns, the first one does not carry the flag and all others do. -/
theorem redelivered_from_second_on (calls : List (Call β)) :
    (run (numbered calls)).map Prod.snd = run calls ∧
    (∀ id, takenIn (numbered calls) id ++ (run (numbered calls)).streams.waitingIn id =
      handedTo id (journal (numbered calls))) ∧
    (∀ d ∈ handedIn (journal (numbered calls)), ∃ settings,
      calls[d.number]? = some (.publish settings d.body.2) ∧
        settings.routingKey = d.routingKey) ∧
    ∀ i k d, (handOutsOf i (handedIn (journal (numbered calls))))[k]? = some d →
      (d.redelivered = true ↔ 0 < k) := by
  refine ⟨?_, ?_, fun d hd => source_of_handedIn hd, ?_⟩
  · have hsame := run_numbered calls
    rwa [Ledger.run_state] at hsame
  · intro id
    have hstreams := (tells_run (numbered calls)).streams id
    rwa [show ({} : State (Nat × β)).streams.waitingIn id = [] from rfl, List.nil_append]
      at hstreams
  · intro i k d hd
    obtain ⟨before, after, hsplit, hnumber, hlength⟩ := split_of_getElem?_filter hd
    obtain rfl : d.number = i := by simpa using hnumber
    obtain ⟨htruth, -⟩ := (run_ordered calls).first before d after hsplit
    have hmem : ∀ x ∈ before ++ [d], x ∈ handedIn (journal (numbered calls)) := by
      intro x hx
      rw [hsplit]
      rcases List.mem_append.mp hx with hx | hx
      · exact List.mem_append_left _ hx
      · rw [List.mem_singleton.mp hx]
        exact List.mem_append_right _ List.mem_cons_self
    rw [htruth, ← hlength, List.length_pos_iff_exists_mem]
    constructor
    · rintro ⟨x, hx, hlabel⟩
      exact ⟨x, List.mem_filter.mpr ⟨hx, beq_iff_eq.mpr (Message.number_eq_of_label hlabel).2⟩⟩
    · rintro ⟨x, hx⟩
      obtain ⟨hx, hsame⟩ := List.mem_filter.mp hx
      have hsame : x.number = d.number := beq_iff_eq.mp hsame
      -- Both were published by the call with their number.
      obtain ⟨settings, hcall, hkey⟩ := source_of_handedIn (hmem d (by simp))
      obtain ⟨settings', hcall', hkey'⟩ := source_of_handedIn (hmem x (by simp [hx]))
      rw [hsame, hcall, Option.some.injEq, Call.publish.injEq] at hcall'
      obtain ⟨rfl, hbody⟩ := hcall'
      exact ⟨x, hx, Prod.ext (hkey'.symm.trans hkey) (Prod.ext hsame hbody.symm)⟩

/-- A new consumer takes what was left behind. -/
def takenAgain : List (Call String) := leftBehind ++ [.consume { queue := "q", consumer := "b" }]

/-- The message that came back carries the flag, and did not when it was handed out first. -/
theorem takenAgain_redelivered :
    ∃ first second, handOutsOf 2 (handedIn (journal (numbered takenAgain))) = [first, second] ∧
      first.redelivered = false ∧ second.redelivered = true := by
  obtain ⟨-, -, -, hflags⟩ := redelivered_from_second_on takenAgain
  have hhanded : handOutsOf 2 (handedIn (journal (numbered takenAgain))) =
      [⟨⟨(2, "m"), "application/json", "q", false⟩, 1⟩,
        ⟨⟨(2, "m"), "application/json", "q", true⟩, 2⟩] := by cbv
  have hfirst := hflags 2 0 _ (by rw [hhanded]; rfl)
  have hsecond := hflags 2 1 _ (by rw [hhanded]; rfl)
  exact ⟨_, _, hhanded, Bool.eq_false_iff.mpr fun h => Nat.lt_irrefl 0 (hfirst.mp h),
    hsecond.mpr Nat.one_pos⟩

end Almanac.Broker
