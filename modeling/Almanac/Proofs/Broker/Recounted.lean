/-
  Almanac.Proofs.Broker.Recounted

  That the turns of a queue are the right ones. `Recounts` is what turns have to say between two
  states of the broker: they follow the rotation from the queue as it was to the queue as it is
  (`State.Shows`), and whoever is handed a message by them is so by the journal.

  Every call has the turns that recount it (`recounts_perform`), and so has every run. Calls end with
  a dispatch, or do not touch the consumers; `recounts_deliver` is the lemma for the first kind and
  `Recounts.still` for the second.
-/
import Almanac.Proofs.Broker.Removal
import Almanac.Proofs.Broker.Turns

namespace Almanac.Broker

variable {β : Type}

namespace State

variable {s s' s'' : State β} {name : String}

/-- A rotation is that of the queue of a name. -/
structure Shows (s : State β) (name : String) (t : Rotation) : Prop where
  present : ∀ q, s.queue? name = some q → q.Shows t
  absent : s.queue? name = none → t.settings = none ∧ t.row = []
  streams : t.streams ≤ s.streams.length

theorem shows_fresh (name : String) : ({} : State β).Shows name {} where
  present q hq := by simp [queue?] at hq
  absent _ := ⟨rfl, rfl⟩
  streams := Nat.le_refl _

theorem Shows.of_some {q : Queue β} (hq : s.queue? name = some q) {t : Rotation} (h : q.Shows t)
    (hstreams : t.streams ≤ s.streams.length) : s.Shows name t where
  present r hr := by
    obtain rfl := Option.some.inj (hq.symm.trans hr)
    exact h
  absent hnone := by simp [hq] at hnone
  streams := hstreams

/-- Other queues do not matter. -/
theorem Shows.congr {t : Rotation} (h : s.Shows name t) (hqueue : s'.queue? name = s.queue? name)
    (hstreams : s.streams.length ≤ s'.streams.length) : s'.Shows name t where
  present := by
    rw [hqueue]
    exact h.present
  absent := by
    rw [hqueue]
    exact h.absent
  streams := Nat.le_trans h.streams hstreams

/-- What turns, with a journal beside them, have to say between two states of the broker. -/
structure Recounts (s : State β) (name : String) (turns : List Turn) (l : List (Entry β))
    (s' : State β) : Prop where
  shows : ∀ t, t.Sound → s.Shows name t → t.Follows turns ∧ s'.Shows name (t.after turns)
  receivers : receiversOn name l = turns.filterMap Turn.handed?

namespace Recounts

variable {turns turns' : List Turn} {l l' : List (Entry β)}

theorem append (h : s.Recounts name turns l s') (h' : s'.Recounts name turns' l' s'') :
    s.Recounts name (turns ++ turns') (l ++ l') s'' where
  shows t ht hshows := by
    obtain ⟨hfollows, hmid⟩ := h.shows t ht hshows
    obtain ⟨hfollows', hend⟩ := h'.shows _ (ht.after hfollows) hmid
    rw [Rotation.follows_append, Rotation.after_append]
    exact ⟨⟨hfollows, hfollows'⟩, hend⟩
  receivers := by
    rw [receiversOn_append, h.receivers, h'.receivers, List.filterMap_append]

/-- Deliveries that go back, or are settled, are handed to nobody. -/
theorem returned (h : s.Recounts name turns l s') (gone : List Nat) :
    s.Recounts name turns (gone.map Entry.returned ++ l) s' where
  shows := h.shows
  receivers := by
    rw [receiversOn_append, receiversOn_returned, List.nil_append, h.receivers]

/-- No turn comes, and the rotation stays that of the queue. -/
theorem still (hl : receiversOn name l = []) (h : ∀ t, s.Shows name t → s'.Shows name t) :
    s.Recounts name [] l s' where
  shows t _ hshows := ⟨trivial, h t hshows⟩
  receivers := hl

theorem same (hl : receiversOn name l = []) (hqueue : s'.queue? name = s.queue? name)
    (hstreams : s.streams.length ≤ s'.streams.length) : s.Recounts name [] l s' :=
  still hl fun _ hshows => hshows.congr hqueue hstreams

theorem refl (s : State β) (name : String) : s.Recounts name [] [] s := same rfl rfl (Nat.le_refl _)

end Recounts

/-- A queue is dispatched after some turns in which nobody is handed anything. -/
theorem recounts_deliver {s₁ : State β} {n : String} {q r : Queue β} {before : List Turn}
    (hq : s.queue? n = some q) (hqueues : s₁.queues = s.queues)
    (hstreams : s.streams.length ≤ s₁.streams.length)
    (hr : r.Sound n s₁.lastTag s₁.streams.length)
    (hquiet : before.filterMap Turn.handed? = [])
    (hbefore : ∀ t, t.Sound → q.Shows t → t.streams ≤ s.streams.length →
      t.Follows before ∧ r.Shows (t.after before) ∧
        (t.after before).streams ≤ s₁.streams.length) :
    s.Recounts name (s₁.turnsIn name n before r) (s₁.dispatching r).journal (s₁.deliver n r) := by
  have hreceivers := Dispatching.receiversOn_journal (d := s₁.dispatching r) name hr
  have hlength : (s₁.deliver n r).streams.length = s₁.streams.length :=
    (s₁.dispatching r).run_streams_length
  by_cases hname : n = name
  · subst hname
    rw [if_pos rfl] at hreceivers
    rw [turnsIn, if_pos rfl]
    refine ⟨?_, ?_⟩
    · intro t ht hshows
      obtain ⟨hfollows, hready, hle⟩ := hbefore t ht (hshows.present q hq) hshows.streams
      obtain ⟨hdispatch, hafter, hsame⟩ :=
        Dispatching.shows_run (d := s₁.dispatching r) (ht.after hfollows) hready
      rw [Rotation.follows_append, Rotation.after_append]
      refine ⟨⟨hfollows, hdispatch⟩, .of_some (by rw [queue?_deliver, if_pos rfl]) hafter ?_⟩
      rw [hlength, hsame]
      exact hle
    · rw [hreceivers, List.filterMap_append, hquiet, List.nil_append]
  · rw [if_neg hname] at hreceivers
    rw [turnsIn, if_neg hname]
    -- Another queue is dispatched.
    have hother : (s₁.deliver n r).queue? name = s.queue? name := by
      rw [queue?_deliver, if_neg hname, queue?, hqueues]
      rfl
    exact .same hreceivers hother (hlength ▸ hstreams)

/-- A queue is dispatched whose consumers are the same. -/
theorem recounts_redeliver {n : String} {q r : Queue β} (hq : s.queue? n = some q)
    (hr : r.Sound n s.lastTag s.streams.length) (hsettings : r.settings = q.settings)
    (hconsumers : r.consumers = q.consumers) (hcursor : r.cursor = q.cursor) :
    s.Recounts name (s.turnsIn name n [] r) (s.dispatching r).journal (s.deliver n r) := by
  apply recounts_deliver hq rfl (Nat.le_refl _) hr rfl
  intro t _ hshows hle
  exact ⟨trivial, hshows.congr hsettings hconsumers hcursor, hle⟩

theorem recounts_requeue (hs : s.Sound) {n : String} {q : Queue β} (hq : s.queue? n = some q)
    (p : Nat → Unacked β → Bool) (gone : List Nat) :
    s.Recounts name (s.turnsIn name n [] (q.requeueIf p))
      (gone.map Entry.returned ++ (s.dispatching (q.requeueIf p)).journal)
      (s.deliver n (q.requeueIf p)) :=
  (recounts_redeliver hq ((hs.queue n q hq).requeueIf p) rfl rfl rfl).returned gone

/-! ## Every call has its turns -/

theorem recounts_stop (hs : s.Sound) (name : String) :
    s.Recounts name (s.turnsOf name .stop) (s.journalOf .stop) (s.perform .stop) := by
  have hreceivers : receiversOn name (s.journalOf .stop) = [] := by
    rw [journalOf]
    split
    · exact receiversOn_returned name _
    · rfl
  have hstreams : (s.perform .stop).streams = s.streams := by
    rw [perform, stop]
    split <;> rfl
  by_cases hconnected : s.connected = true
  · cases hq : s.queue? name with
    | none =>
        have hturns : s.turnsOf name .stop = [] := by simp [turnsOf, hq]
        have hnone : (s.perform .stop).queue? name = none := queue?_stop_none hs hq
        rw [hturns]
        exact .same hreceivers (hnone.trans hq.symm) (Nat.le_of_eq (by rw [hstreams]))
    | some q =>
        have hturns : s.turnsOf name .stop = [.stopped] := by simp [turnsOf, hq, hconnected]
        have hafter : (s.perform .stop).queue? name =
            if q.settings.durable then some q.abandoned else none := queue?_stop hs hconnected hq
        rw [hturns]
        refine ⟨?_, hreceivers⟩
        intro t _ hshows
        have hbefore := hshows.present q hq
        have hallows : t.Allows .stopped := by
          rw [Rotation.Allows, hbefore.settings]
          rfl
        refine ⟨⟨hallows, trivial⟩, ?_⟩
        have hle : t.streams ≤ (s.perform .stop).streams.length := hstreams ▸ hshows.streams
        cases hdurable : q.settings.durable
        · simp only [hdurable, Bool.false_eq_true, if_false] at hafter
          refine ⟨fun r hr => by simp [hafter] at hr, fun _ => ⟨?_, rfl⟩, hle⟩
          simp [Rotation.apply, hbefore.settings, hdurable]
        · simp only [hdurable, if_true] at hafter
          refine .of_some hafter ⟨?_, rfl, hbefore.cursor⟩ hle
          simp [Rotation.apply, hbefore.settings, hdurable, Queue.abandoned, Queue.requeueIf]
  · have hturns : s.turnsOf name .stop = [] := by simp [turnsOf, hconnected]
    have hjournal : s.journalOf .stop = [] := by simp [journalOf, hconnected]
    rw [hturns, hjournal, perform, stop, if_neg hconnected]
    exact .refl s name

theorem recounts_declare (s : State β) (name : String) (settings : QueueSettings) :
    s.Recounts name (s.turnsOf name (.declare settings)) [] (s.declare settings).2 := by
  rw [turnsOf, declare]
  by_cases hconnected : s.connected = true
  · cases hq : s.queue? settings.name with
    | some q => simpa [hconnected] using Recounts.refl s name
    | none =>
        by_cases hname : settings.name = name
        · subst hname
          simp only [hconnected, Bool.not_true, Bool.false_eq_true, if_false, Option.isNone_none,
            Bool.and_self, beq_self_eq_true, if_true]
          refine ⟨?_, rfl⟩
          intro t _ hshows
          have hfresh : (s.setQueue settings.name { settings }).queue? settings.name =
              some { settings } := by
            rw [queue?_setQueue, if_pos rfl]
          exact ⟨⟨(hshows.absent hq).1, trivial⟩, .of_some hfresh ⟨rfl, rfl, rfl⟩ hshows.streams⟩
        · have hother : (settings.name == name) = false := by simpa using hname
          simp only [hconnected, hother, Bool.not_true, Bool.false_eq_true, if_false,
            Bool.and_false]
          refine .same rfl ?_ (Nat.le_refl _)
          rw [queue?_setQueue, if_neg hname]
  · simpa [hconnected] using Recounts.refl s name

theorem recounts_publish (hs : s.Sound) (name : String) (settings : PublishSettings) (body : β) :
    s.Recounts name (s.turnsOf name (.publish settings body))
      (s.journalOf (.publish settings body)) (s.publish settings body).2 := by
  by_cases hroutes : s.routes settings = true
  · obtain ⟨hconnected, hexchange, q, hq⟩ := routes_iff.mp hroutes
    rw [turnsOf, if_pos hroutes, journalOf, if_pos hroutes, hq,
      publish_routed body hconnected hexchange hq]
    exact recounts_redeliver hq ((hs.queue _ q hq).push rfl) rfl rfl rfl
  · have hidle : s.routes settings = false := by simpa using hroutes
    rw [turnsOf, if_neg hroutes, journalOf, if_neg hroutes, publish_unrouted body hidle]
    exact .refl s name

theorem recounts_consume (hs : s.Sound) (name : String) (settings : ConsumeSettings) :
    s.Recounts name (s.turnsOf name (.consume settings)) (s.journalOf (.consume settings))
      (s.consume settings).2 := by
  rw [turnsOf, journalOf]
  rcases consume_cases s settings with ⟨e, n, heq⟩ | ⟨q, hconnected, hq, hadmits⟩
  · rw [heq]
    exact .same rfl rfl (Nat.le_refl _)
  · rw [consume_admitted hconnected hq hadmits, hq]
    have hlength : s.withStream.streams.length = s.streams.length + 1 := by simp [withStream]
    refine recounts_deliver hq rfl (by omega) (hs.joined hq) rfl ?_
    -- The stream of the consumer that joins is behind all that there were.
    intro t _ hshows hle
    refine ⟨⟨⟨?_, hle⟩, trivial⟩, ⟨hshows.settings, ?_, hshows.cursor⟩, ?_⟩
    · rw [hshows.settings]
      rfl
    · exact congrArg (· ++ [s.registration q settings]) hshows.row
    · rw [hlength]
      exact Nat.le_refl _

theorem recounts_settle (hs : s.Sound) (name : String) (tag : Nat) (multiple : Bool)
    (how : Settlement) :
    s.Recounts name
      (match how with
      | .requeue => s.turnsOfRequeue name tag multiple
      | .discard => [])
      (s.journalOfSettle tag multiple how) (s.settle tag multiple how).2 := by
  rcases settle_cases s tag multiple how with
    ⟨heq, hnone⟩ | ⟨n, q, owner, hconnected, hholder, heq⟩
  · have hempty : s.journalOfSettle tag multiple how = [] := by
      rcases hnone with hclosed | hnone
      · simp [journalOfSettle, hclosed]
      · simp [journalOfSettle, hnone]
    have hturns : s.turnsOfRequeue name tag multiple = [] := by
      rcases hnone with hclosed | hnone
      · simp [turnsOfRequeue, hclosed]
      · simp [turnsOfRequeue, hnone]
    rw [heq, hempty, hturns]
    cases how <;> exact .refl s name
  · obtain ⟨hq, -⟩ := holder?_eq_some hs.names hholder
    rw [heq, journalOfSettle, if_pos hconnected, turnsOfRequeue, if_pos hconnected, hholder]
    cases how with
    | requeue => exact recounts_requeue hs hq _ _
    | discard =>
        apply Recounts.still (receiversOn_settled name _)
        intro t hshows
        by_cases hname : n = name
        · subst hname
          have hkept : (q.discardIf (covers tag multiple owner)).Shows t :=
            (hshows.present q hq).congr rfl rfl rfl
          refine .of_some ?_ hkept hshows.streams
          rw [queue?_setQueue, if_pos rfl]
        · refine hshows.congr ?_ (Nat.le_refl _)
          rw [queue?_setQueue, if_neg hname]

theorem recounts_recoverQueue (hs : s.Sound) (name n : String) :
    s.Recounts name (s.turnsOfReturn name n) (s.journalOfReturn n) (s.recoverQueue n) := by
  rw [turnsOfReturn, journalOfReturn, recoverQueue_eq]
  cases hq : s.queue? n with
  | none => exact .refl s name
  | some q => exact recounts_requeue hs hq _ _

theorem recounts_recover (hs : s.Sound) (name : String) (order : List String) :
    s.Recounts name (s.turnsOf name (.recover order)) (s.journalOf (.recover order))
      (s.recoverIn order) := by
  rw [turnsOf, journalOf, recoverIn]
  split
  · next hconnected =>
    clear hconnected
    induction order generalizing s with
    | nil => exact .refl s name
    | cons n order ih =>
        exact (recounts_recoverQueue hs name n).append (ih (hs.recoverQueue n))
  · exact .refl s name

/-- The consumers of a tag leave a queue one after the other. -/
theorem shows_cancelled {q : Queue β} {tag : String} {t : Rotation} (ht : t.Sound)
    (hshows : q.Shows t) (hsome : (q.without tag).consumers.length ≠ q.consumers.length) :
    t.Follows ((q.consumers.filter (·.tag == tag)).map .cancelled) ∧
      t.after ((q.consumers.filter (·.tag == tag)).map .cancelled) =
        ({ t with row := (q.without tag).consumers } : Rotation).expire := by
  have hnodup : q.consumers.Nodup := hshows.row ▸ ht.nodup
  have hgone : q.consumers.filter (·.tag == tag) ≠ [] := by
    intro hnone
    refine hsome (congrArg List.length (List.filter_eq_self.mpr fun r hr => ?_))
    have hother := List.filter_eq_nil_iff.mp hnone r hr
    simpa using hother
  have hrow : t.row.filter (· ∉ q.consumers.filter (·.tag == tag)) = (q.without tag).consumers := by
    rw [hshows.row]
    refine List.filter_congr fun r hr => ?_
    simp [hr, bne, Bool.beq_eq_decide_eq]
  have hsubset : q.consumers.filter (·.tag == tag) ⊆ t.row :=
    hshows.row ▸ List.filter_sublist.subset
  have hcancelled := Rotation.after_cancelled ht.nodup (hnodup.filter _) hsubset
  exact ⟨hcancelled.1, by rw [hcancelled.2 hgone, hrow]⟩

theorem recounts_cancel (hs : s.Sound) (name n tag : String) :
    s.Recounts name (s.turnsOfCancel name n tag) (s.journalOfCancel n tag) (s.cancel n tag) := by
  rw [turnsOfCancel, journalOfCancel, cancel_eq]
  cases hq : s.queue? n with
  | none => exact .refl s name
  | some q =>
      dsimp only
      split
      · exact .refl s name
      · next hlength =>
        have hsome : (q.without tag).consumers.length ≠ q.consumers.length := by
          simpa using hlength
        have hquiet : ((q.consumers.filter (·.tag == tag)).map Turn.cancelled).filterMap
            Turn.handed? = [] := by
          simp [List.filterMap_map, Function.comp_def, Turn.handed?]
        split
        · next hlast =>
          rw [Bool.and_eq_true, List.isEmpty_iff] at hlast
          rw [List.append_nil]
          have hgone : ({ s with queues := s.queues.erase n } : State β).queue? name =
              if n = name then none else s.queue? name := Table.get?_erase _ _ _
          split
          · next hname =>
            subst hname
            rw [if_pos rfl] at hgone
            refine ⟨?_, by rw [receiversOn_returned, hquiet]⟩
            intro t ht hshows
            have hbefore := hshows.present q hq
            obtain ⟨hfollows, hafter⟩ := shows_cancelled ht hbefore hsome
            refine ⟨hfollows, ?_⟩
            rw [hafter]
            refine ⟨fun r hr => by simp [hgone] at hr, fun _ => ⟨?_, hlast.1⟩, hshows.streams⟩
            simp [Rotation.expire, hlast.1, hbefore.settings, hlast.2]
          · next hname =>
            rw [if_neg hname] at hgone
            exact .same (receiversOn_returned name _) hgone (Nat.le_refl _)
        · next hstays =>
          apply Recounts.returned
          apply recounts_deliver hq rfl (Nat.le_refl _) ((hs.queue n q hq).without tag) hquiet
          intro t ht hshows hle
          obtain ⟨hfollows, hafter⟩ := shows_cancelled ht hshows hsome
          refine ⟨hfollows, ?_, ?_⟩
          · rw [hafter]
            refine ⟨?_, rfl, hshows.cursor⟩
            -- The queue stays, since it has a consumer or does not remove itself.
            show (if (q.without tag).consumers = [] then t.settings.filter (!·.autoDelete)
              else t.settings) = some q.settings
            rw [hshows.settings]
            split
            · next hnobody =>
              have hkept : q.settings.autoDelete = false := by simpa [hnobody] using hstays
              simp [hkept]
            · rfl
          · rw [hafter]
            exact hle

theorem recounts_receive (s : State β) (name : String) (c : Consumer) :
    s.Recounts name [] [] (s.receive c).2 := by
  rcases receive_cases s c with ⟨heq, -⟩ | ⟨stream, d, waiting, -, -, heq⟩
  · rw [heq]
    exact .refl s name
  · rw [heq]
    exact .same rfl rfl (Nat.le_of_eq List.length_set.symm)

theorem recounts_close (s : State β) (name : String) (c : Consumer) :
    s.Recounts name [] [] (s.closeStream c) := by
  rw [closeStream]
  split
  · exact .refl s name
  · exact .same rfl rfl (Nat.le_of_eq List.length_set.symm)

/-- What a call does to the consumers of a queue is recounted by its turns. -/
theorem recounts_perform (hs : s.Sound) (name : String) (c : Call β) :
    s.Recounts name (s.turnsOf name c) (s.journalOf c) (s.perform c) := by
  cases c with
  | start => exact .same rfl rfl (Nat.le_refl _)
  | stop => exact recounts_stop hs name
  | declare settings => exact recounts_declare s name settings
  | publish settings body => exact recounts_publish hs name settings body
  | consume settings => exact recounts_consume hs name settings
  | ack tag multiple => exact recounts_settle hs name tag multiple .discard
  | nack tag multiple requeue =>
      cases requeue with
      | true => exact recounts_settle hs name tag multiple .requeue
      | false => exact recounts_settle hs name tag multiple .discard
  | recover order => exact recounts_recover hs name order
  | receive c => exact recounts_receive s name c
  | close c => exact recounts_close s name c
  | cancel n tag => exact recounts_cancel hs name n tag

/-! ## Runs -/

theorem recounts_foldl (hs : s.Sound) (name : String) (calls : List (Call β)) :
    s.Recounts name (s.turnsFrom name calls) (s.journalFrom calls) (calls.foldl perform s) := by
  induction calls generalizing s with
  | nil => exact .refl s name
  | cons c calls ih => exact (recounts_perform hs name c).append (ih (hs.perform c))

end State

open State

/-- The turns of a run recount what becomes of the consumers of a queue, from the fresh broker on. -/
theorem recounts_run (name : String) (calls : List (Call β)) :
    ({} : State β).Recounts name (turns name calls) (journal calls) (run calls) :=
  recounts_foldl Sound.fresh name calls

/-- The turns of a run can come one after the other, and lead to the queue as it is. -/
theorem turns_show (name : String) (calls : List (Call β)) :
    ({} : Rotation).Follows (turns name calls) ∧
      (run calls).Shows name (Rotation.of (turns name calls)) :=
  (recounts_run name calls).shows {} Rotation.Sound.fresh (shows_fresh name)

end Almanac.Broker
