/-
  Almanac.Proofs.Broker.Conservation

  No message is lost and none is doubled. Bodies are numbered by the call that publishes
  them (`numbered`), so that every message of a run is told from every other; the broker
  never looks at bodies, so a numbered run is the run itself.

  From the even books of the numbered run it follows where message number `i` is: its
  number was put in once and never goes with a queue while its own queue stays.
-/
import Almanac.Proofs.Broker.Balance
import Almanac.Proofs.Broker.Bodies
import Mathlib

namespace Almanac.Broker

variable {β : Type}

/-- The calls of a run, each body with the place of its call. -/
def numbered (calls : List (Call β)) : List (Call (Nat × β)) :=
  calls.mapIdx fun i c => c.map fun body => (i, body)

/-- Whether a label is of the message with a number. -/
def hasNumber (i : Nat) (l : String × (Nat × β)) : Bool := l.2.1 == i

@[simp] theorem numbered_concat (calls : List (Call β)) (c : Call β) :
    numbered (calls ++ [c]) = numbered calls ++ [c.map fun body => (calls.length, body)] := by
  simp [numbered]

/-- Without its numbers a numbered run is the run. -/
theorem run_numbered (calls : List (Call β)) :
    (Ledger.run (numbered calls)).state.map Prod.snd = State.run calls := by
  have hcalls : (numbered calls).map (Call.map Prod.snd) = calls := by
    induction calls using List.reverseRecOn with
    | nil => rfl
    | append_singleton calls c ih =>
        rw [numbered_concat, List.map_append, ih]
        cases c <;> rfl
  rw [Ledger.run_state, State.run_map, hcalls]

theorem routes_numbered (calls : List (Call β)) (settings : PublishSettings) :
    (Ledger.run (numbered calls)).state.routes settings = (State.run calls).routes settings := by
  rw [← run_numbered, State.routes_map]

/-! ## What was published -/

/-- What is published in a run has the number of one of its calls, and is what that call
    publishes. -/
theorem published_source {calls : List (Call β)} {l : String × (Nat × β)}
    (h : l ∈ (Ledger.run (numbered calls)).published) :
    ∃ settings, calls[l.2.1]? = some (.publish settings l.2.2) ∧ settings.routingKey = l.1 := by
  induction calls using List.reverseRecOn with
  | nil => simp [numbered] at h
  | append_singleton calls c ih =>
      rw [numbered_concat, Ledger.run_concat] at h
      rcases List.mem_append.mp h with hold | hnew
      · obtain ⟨settings, hcall, hkey⟩ := ih hold
        -- A call of the run so far has a place in front of the new call.
        have hlt := (List.getElem?_eq_some_iff.mp hcall).1
        exact ⟨settings, (List.getElem?_append_left hlt).trans hcall, hkey⟩
      · cases c with
        | publish settings body =>
            simp only [Call.map, State.publishedBy] at hnew
            split at hnew
            · rw [List.mem_singleton] at hnew
              subst hnew
              exact ⟨settings, by simp, rfl⟩
            · simp at hnew
        | _ => simp [Call.map, State.publishedBy] at hnew

/-- Nothing with the number of a later call has been published. -/
theorem countP_published_eq_zero {calls : List (Call β)} {i : Nat} (h : calls.length ≤ i) :
    (Ledger.run (numbered calls)).published.countP (hasNumber i) = 0 := by
  refine List.countP_eq_zero.mpr fun l hl hnumber => ?_
  obtain ⟨settings, hcall, -⟩ := published_source hl
  have hlt := (List.getElem?_eq_some_iff.mp hcall).1
  have heq : l.2.1 = i := by simpa [hasNumber] using hnumber
  omega

/-- A message that reaches a queue is put in once. -/
theorem countP_published_eq_one {calls : List (Call β)} {i : Nat} {settings : PublishSettings}
    {body : β} (hcall : calls[i]? = some (.publish settings body))
    (hroutes : (State.run (calls.take i)).routes settings = true) :
    (Ledger.run (numbered calls)).published.countP (hasNumber i) = 1 := by
  induction calls using List.reverseRecOn with
  | nil => simp at hcall
  | append_singleton calls c ih =>
      rw [numbered_concat, Ledger.run_concat]
      simp only [Ledger.enter, List.countP_append]
      by_cases hlt : i < calls.length
      · rw [List.getElem?_append_left hlt] at hcall
        rw [List.take_append_of_le_length (Nat.le_of_lt hlt)] at hroutes
        -- The new call has another number.
        have hnew : ((Ledger.run (numbered calls)).state.publishedBy
            (c.map fun body => (calls.length, body))).countP (hasNumber i) = 0 := by
          cases c with
          | publish settings body =>
              simp only [Call.map, State.publishedBy]
              split
              · simp [hasNumber, Nat.ne_of_gt hlt]
              · rfl
          | _ => rfl
        rw [ih hcall hroutes, hnew]
      · obtain rfl : i = calls.length := by
          have := (List.getElem?_eq_some_iff.mp hcall).1
          simp at this
          omega
        simp only [List.getElem?_concat_length, Option.some.injEq] at hcall
        subst hcall
        rw [List.take_left] at hroutes
        -- Nothing had the number of this call before.
        rw [countP_published_eq_zero (Nat.le_refl _)]
        simp [Call.map, State.publishedBy, routes_numbered, hroutes, hasNumber]

/-! ## What is there was published -/

/-- What a queue holds was published. -/
theorem Ledger.Even.published_of_held {r : Ledger β} (hr : r.Even) {name : String} {q : Queue β}
    (hq : r.state.queue? name = some q) {l : String × β} (hl : l ∈ q.labels) :
    l ∈ r.published := by
  classical
  have hcount : q.labels.countP (fun m => decide (m = l)) ≤
      r.state.count fun m => decide (m = l) :=
    Table.le_total (fun q => q.labels.countP fun m => decide (m = l)) hq
  have hheld : 0 < q.labels.countP fun m => decide (m = l) :=
    List.countP_pos_iff.mpr ⟨l, hl, decide_eq_true rfl⟩
  have hbalance := hr.balance fun m => decide (m = l)
  obtain ⟨m, hm, heq⟩ := List.countP_pos_iff.mp
    (show 0 < r.published.countP fun m => decide (m = l) by omega)
  exact of_decide_eq_true heq ▸ hm

/-- A message that reached a queue is not lost while its queue stays. -/
theorem countP_lost_eq_zero {calls : List (Call β)} {i : Nat} {settings : PublishSettings}
    {body : β} (hcall : calls[i]? = some (.publish settings body))
    (hkept : ∀ j, i < j → j ≤ calls.length →
      ((State.run (calls.take j)).queue? settings.routingKey).isSome = true) :
    (Ledger.run (numbered calls)).lost.countP (hasNumber i) = 0 := by
  induction calls using List.reverseRecOn with
  | nil => simp at hcall
  | append_singleton calls c ih =>
      have heven := Ledger.run_even (numbered calls)
      have hstay := hkept (calls.length + 1)
      rw [numbered_concat, Ledger.run_concat]
      simp only [Ledger.enter, List.countP_append]
      by_cases hlt : i < calls.length
      · rw [List.getElem?_append_left hlt] at hcall
        -- Nothing was lost before, and the new call is to lose nothing with the number.
        have hold := ih hcall fun j hj hle => by
          have := hkept j hj (by simp; omega)
          rwa [List.take_append_of_le_length hle] at this
        rw [hold, Nat.zero_add, List.countP_eq_zero]
        intro l hl hnumber
        have hi : l.2.1 = i := by simpa [hasNumber] using hnumber
        obtain ⟨⟨name, q⟩, hmem, hheld⟩ := List.mem_flatMap.mp hl
        obtain ⟨hqueue, hgone⟩ := List.mem_filter.mp hmem
        have hq := Table.get?_of_mem heven.sound.names hqueue
        -- The queue that goes is the one that the message was published to.
        obtain ⟨settings', hcall', hkey⟩ :=
          published_source (heven.published_of_held hq hheld)
        rw [hi, hcall, Option.some.injEq, Call.publish.injEq] at hcall'
        have hname : settings.routingKey = name := by
          rw [hcall'.1, hkey]
          exact (heven.sound.queue name q hq).keyed l hheld
        have hafter := hstay (by omega) (by simp)
        rw [List.take_of_length_le (by simp), ← run_numbered, State.queue?_map, Option.isSome_map,
          numbered_concat, Ledger.run_concat, hname, Option.isSome_iff_ne_none] at hafter
        exact hafter (Option.isNone_iff_eq_none.mp hgone)
      · obtain rfl : i = calls.length := by
          have := (List.getElem?_eq_some_iff.mp hcall).1
          simp at this
          omega
        simp only [List.getElem?_concat_length, Option.some.injEq] at hcall
        subst hcall
        -- Before its own call the number is nowhere, so it is not among what was lost.
        have hbalance := heven.balance (hasNumber calls.length)
        rw [countP_published_eq_zero (Nat.le_refl _)] at hbalance
        rw [State.lostBy_eq_nil_of_ne heven.sound (by simp [Call.map]) (by simp [Call.map]),
          List.countP_nil]
        omega

/-! ## Where a message is -/

/-- At the end of every run, a message that reached a queue which has not been removed since is
    in exactly one place: waiting in that queue, unsettled there under one tag, settled, or handed
    out to a consumer that takes deliveries as acknowledged. No other queue holds it, it is
    nowhere under another key or with another body, and the tags of a queue are all different. A
    queue is only removed by a stop, if it is not durable, or with its last consumer, if it removes
    itself. -/
theorem message_in_one_place (calls : List (Call β)) :
    (Ledger.run (numbered calls)).state.map Prod.snd = State.run calls ∧
    (∀ name q, (Ledger.run (numbered calls)).state.queue? name = some q → q.tags.Nodup) ∧
    (∀ i settings body, calls[i]? = some (.publish settings body) →
      (State.run (calls.take i)).routes settings = true →
      (∀ j, i < j → j ≤ calls.length →
        ((State.run (calls.take j)).queue? settings.routingKey).isSome = true) →
      (∃ q, (Ledger.run (numbered calls)).state.queue? settings.routingKey = some q ∧
        q.readyLabels.countP (hasNumber i) + q.unackedLabels.countP (hasNumber i) +
            (Ledger.run (numbered calls)).settled.countP (hasNumber i) +
            (Ledger.run (numbered calls)).handed.countP (hasNumber i) = 1) ∧
      (∀ name q, (Ledger.run (numbered calls)).state.queue? name = some q →
        ∀ l ∈ q.labels, l.2.1 = i → name = settings.routingKey) ∧
      ∀ l ∈ (Ledger.run (numbered calls)).published, l.2.1 = i →
        l = (settings.routingKey, (i, body))) ∧
    ∀ j c name q, calls[j]? = some c → (State.run (calls.take j)).queue? name = some q →
      (State.run (calls.take (j + 1))).queue? name = none →
      (c = .stop ∧ q.settings.durable = false) ∨
        ∃ tag, c = .cancel name tag ∧ q.settings.autoDelete = true ∧
          ∀ consumer ∈ q.consumers, consumer.tag = tag := by
  have heven := Ledger.run_even (numbered calls)
  refine ⟨run_numbered calls, fun name q hq => ?_, fun i settings body hcall hroutes hkept => ?_,
    fun j c name q hcall hq hgone => ?_⟩
  · exact (heven.sound.queue name q hq).ascending.imp Nat.ne_of_lt
  · -- Everything with the number was published by the call with that place.
    have hlabel : ∀ l ∈ (Ledger.run (numbered calls)).published, l.2.1 = i →
        l = (settings.routingKey, (i, body)) := by
      intro l hl hnumber
      obtain ⟨settings', hcall', hkey⟩ := published_source hl
      rw [hnumber, hcall, Option.some.injEq, Call.publish.injEq] at hcall'
      rw [hcall'.1, hkey, hcall'.2, ← hnumber]
    have hkey : ∀ name q, (Ledger.run (numbered calls)).state.queue? name = some q →
        ∀ l ∈ q.labels, l.2.1 = i → name = settings.routingKey := by
      intro name q hq l hl hnumber
      rw [← (heven.sound.queue name q hq).keyed l hl,
        hlabel l (heven.published_of_held hq hl) hnumber]
    have hlength := (List.getElem?_eq_some_iff.mp hcall).1
    have hstay := hkept calls.length hlength (Nat.le_refl _)
    rw [List.take_length, ← run_numbered, State.queue?_map, Option.isSome_map,
      Option.isSome_iff_exists] at hstay
    obtain ⟨q, hq⟩ := hstay
    refine ⟨⟨q, hq, ?_⟩, hkey, hlabel⟩
    have hbalance := heven.balance (hasNumber i)
    -- The other queues hold messages with other keys, so only this one counts.
    have hcount : (Ledger.run (numbered calls)).state.count (hasNumber i) =
        q.labels.countP (hasNumber i) := by
      refine Table.total_eq_of_forall_ne (fun q => q.labels.countP (hasNumber i))
        heven.sound.names hq fun name r hr hne => ?_
      refine List.countP_eq_zero.mpr fun l hl hnumber => hne ?_
      exact (hkey name r hr l hl (by simpa [hasNumber] using hnumber)).symm
    -- Put in once and never lost, the message is in one of the four places.
    rw [countP_published_eq_one hcall hroutes, countP_lost_eq_zero hcall hkept, hcount,
      Queue.labels, List.countP_append] at hbalance
    omega
  · have hlt := (List.getElem?_eq_some_iff.mp hcall).1
    have hc : calls[j] = c := Option.some.inj ((List.getElem?_eq_getElem hlt).symm.trans hcall)
    rw [List.take_succ_eq_append_getElem hlt, State.run_concat, hc] at hgone
    rcases State.perform_removes (State.run_sound _) hq hgone with ⟨hstop, -, hdurable⟩ | hcancel
    · exact Or.inl ⟨hstop, hdurable⟩
    · exact Or.inr hcancel

/-- A message is handed to a consumer that leaves without settling it, and another message is
    published. -/
def leftBehind : List (Call String) :=
  [.start, .declare { name := "q" }, .publish { routingKey := "q" } "m",
    .consume { queue := "q", consumer := "a" }, .close ⟨"a", "q", 0⟩, .cancel "q" "a",
    .publish { routingKey := "q" } "n"]

/-- The message is back in its queue, and nowhere else. -/
theorem leftBehind_in_one_place :
    ∃ q, (Ledger.run (numbered leftBehind)).state.queue? "q" = some q ∧
      q.readyLabels.countP (hasNumber 2) = 1 ∧ q.unackedLabels.countP (hasNumber 2) = 0 ∧
      (Ledger.run (numbered leftBehind)).settled.countP (hasNumber 2) = 0 ∧
      (Ledger.run (numbered leftBehind)).handed.countP (hasNumber 2) = 0 := by
  have hroutes : (State.run (leftBehind.take 2)).routes { routingKey := "q" } = true := by cbv
  have hkept : ∀ j, 2 < j → j ≤ leftBehind.length →
      ((State.run (leftBehind.take j)).queue? "q").isSome = true := by
    intro j hlt hle
    have hle : j ≤ 7 := hle
    interval_cases j <;> cbv
  obtain ⟨-, -, hplaces, -⟩ := message_in_one_place leftBehind
  obtain ⟨⟨q, hq, hsum⟩, -⟩ := hplaces 2 { routingKey := "q" } "m" rfl hroutes hkept
  have hback : ((Ledger.run (numbered leftBehind)).state.queue? "q").map
      (fun q => q.readyLabels.countP (hasNumber 2)) = some 1 := by cbv
  have hq' : (Ledger.run (numbered leftBehind)).state.queue? "q" = some q := hq
  rw [hq', Option.map_some, Option.some.injEq] at hback
  exact ⟨q, hq, hback, by omega, by omega, by omega⟩

end Almanac.Broker
