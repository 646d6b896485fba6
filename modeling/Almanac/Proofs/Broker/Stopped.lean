/-
  Almanac.Proofs.Broker.Stopped

  What a consumer can still receive after a stop. A stop ends every registration, and nobody gets
  a stream that was handed out before (`Detached`). So nothing comes into the stream of an old
  consumer any more (`Detached.waitingIn_perform`), but what was waiting there stays: the stop
  returns the message of a delivery to its queue, and the consumer can take the delivery all the
  same (`stopped_receives_waiting`).
-/
import Almanac.Proofs.Broker.Connected
import Almanac.Proofs.Broker.Registered
import Almanac.Proofs.Broker.Recorded
import Mathlib

namespace Almanac.Broker

variable {β : Type}

/-- A dispatch hands nothing to a stream that no consumer of its queue has. -/
theorem Dispatching.handedTo_journal {d : Dispatching β} {id : Nat}
    (h : ∀ r ∈ d.queue.consumers, r.stream ≠ id) : handedTo id d.journal = [] := by
  induction d using run_induction with
  | finished d hfin hrun =>
      rw [journal_of_finished hfin]
      rfl
  | round d e hround hrun ih =>
      cases hround with
      | @lost message ready index consumer hready hindex hconsumer hclosed =>
          rw [journal_of_lost hready hindex hconsumer hclosed, handedTo_append, handedTo_returned,
            List.nil_append]
          exact ih fun r hr => h r (List.eraseIdx_subset hr)
      | @handed message ready index consumer streams hready hindex hconsumer hoffer =>
          have hother : consumer.stream ≠ id := h consumer (List.mem_of_getElem? hconsumer)
          rw [journal_of_handed hready hindex hconsumer hoffer, handedTo, List.filterMap_cons]
          simp only [Entry.handedTo?, if_neg hother]
          exact ih h

namespace State

variable {s : State β} {id : Nat}

/-- Delivering a queue whose consumers have other streams puts nothing into this one. -/
theorem waitingIn_deliver (s : State β) (name : String) {r : Queue β}
    (h : ∀ c ∈ r.consumers, c.stream ≠ id) :
    (s.deliver name r).streams.waitingIn id = s.streams.waitingIn id := by
  have hrun := (s.dispatching r).waitingIn_run id
  rw [Dispatching.handedTo_journal h, List.append_nil] at hrun
  exact hrun

/-- A stream that has been handed out, and that no registration has any more. -/
structure Detached (s : State β) (id : Nat) : Prop where
  lt : id < s.streams.length
  free : ∀ name r, s.Registered name r → r.stream ≠ id

namespace Detached

/-- A new registration gets a new stream, so a detached stream stays detached. -/
theorem perform (h : s.Detached id) (hs : s.Sound) (c : Call β) : (s.perform c).Detached id where
  lt := Nat.lt_of_lt_of_le h.lt (streams_length_le hs c)
  free name r hr := by
    rcases registered_perform hs hr with hold | ⟨settings, q, -, -, -, rfl, -⟩
    · exact h.free name r hold
    · exact Nat.ne_of_gt h.lt

/-- The consumers of a queue have other streams. -/
theorem apart (h : s.Detached id) {name : String} {q r : Queue β} (hq : s.queue? name = some q)
    (hsubset : r.consumers ⊆ q.consumers) : ∀ c ∈ r.consumers, c.stream ≠ id := by
  intro c hc
  exact h.free name c ⟨q, hq, hsubset hc⟩

/-- A queue is delivered, and the stream stays detached. -/
theorem deliver (h : s.Detached id) {name : String} {q r : Queue β}
    (hq : s.queue? name = some q) (hsubset : r.consumers ⊆ q.consumers) :
    (s.deliver name r).Detached id where
  lt := by
    rw [deliver_streams_length]
    exact h.lt
  free other c hc := h.free other c (registered_of_deliver hq hc hsubset)

/-- Only a look into it changes what waits in a detached stream. -/
theorem waitingIn_of_effect (h : s.Detached id) {c : Call β} {s' : State β}
    (heffect : s.Effect c s') (hc : ∀ consumer, c ≠ .receive consumer) :
    s'.streams.waitingIn id = s.streams.waitingIn id := by
  cases heffect with
  | idle => rfl
  | started => rfl
  | stopped => rfl
  | declared => rfl
  | published hconnected hexchange hq =>
      exact waitingIn_deliver _ _ (h.apart hq (List.Subset.refl _))
  | refused => rfl
  | @consumed settings q hconnected hq hadmits =>
      have hfresh : s.withStream.streams.waitingIn id = s.streams.waitingIn id :=
        s.streams.waitingIn_fresh id
      rw [waitingIn_deliver, hfresh]
      -- The consumer that joins has the stream behind all that there were.
      intro c hmem
      rcases List.mem_append.mp hmem with hold | hnew
      · exact h.free _ c ⟨q, hq, hold⟩
      · rw [List.mem_singleton.mp hnew]
        exact Nat.ne_of_gt h.lt
  | discarded => rfl
  | returned hconnected hq => exact waitingIn_deliver _ _ (h.apart hq (List.Subset.refl _))
  | @recovered order =>
      -- From one queue to the next, the stream stays detached along with what waits in it.
      have hback : (s.recoverIn order).Detached id ∧
          (s.recoverIn order).streams.waitingIn id = s.streams.waitingIn id := by
        refine recoverIn_induction
          (P := fun e => e.Detached id ∧ e.streams.waitingIn id = s.streams.waitingIn id) ?_ order
          ⟨h, rfl⟩
        intro e name q hq ⟨hdetached, hsame⟩
        have hother := hdetached.apart (r := q.requeueIf fun _ _ => true) hq (List.Subset.refl _)
        exact ⟨hdetached.deliver hq (List.Subset.refl _),
          (waitingIn_deliver e name hother).trans hsame⟩
      exact hback.2
  | received => exact absurd rfl (hc _)
  | @closed consumer stream hstream =>
      show Streams.waitingIn (s.streams.set consumer.stream _) id = s.streams.waitingIn id
      rw [Streams.waitingIn_set hstream]
      split
      · next hid => rw [← hid, Streams.waitingIn_of_some hstream]
      · rfl
  | removed => rfl
  | cancelled hq => exact waitingIn_deliver _ _ (h.apart hq List.filter_sublist.subset)

/-- What a call takes from a detached stream, and what is left there, is what was waiting. -/
theorem waitingIn_perform (h : s.Detached id) (hs : s.Sound) (c : Call β) :
    s.takes id c ++ (s.perform c).streams.waitingIn id = s.streams.waitingIn id := by
  by_cases hc : ∀ consumer, c ≠ .receive consumer
  · have htakes : s.takes id c = [] := by
      cases c with
      | receive consumer => exact absurd rfl (hc consumer)
      | _ => rfl
    rw [htakes, List.nil_append]
    exact h.waitingIn_of_effect (effect_perform hs.names c) hc
  · push Not at hc
    obtain ⟨consumer, rfl⟩ := hc
    have htells := (tells_receive hs consumer).streams id
    rwa [show handedTo id ([] : List (Entry β)) = [] from rfl, List.append_nil] at htells

/-- What calls take from a detached stream, and what is left there, is what was waiting. -/
theorem waitingIn_foldl (h : s.Detached id) (hs : s.Sound) (calls : List (Call β)) :
    s.takenFrom id calls ++ (calls.foldl State.perform s).streams.waitingIn id =
      s.streams.waitingIn id := by
  induction calls generalizing s with
  | nil => rfl
  | cons c calls ih =>
      have hrest := ih (h.perform hs c) (hs.perform c)
      rw [takenFrom, List.foldl_cons, List.append_assoc, hrest, h.waitingIn_perform hs c]

/-- A consumer whose stream is detached takes what waits, and then finds the end. -/
theorem receive {c : Consumer} (h : s.Detached c.stream) (hnames : s.queues.keys.Nodup) :
    (s.receive c).1 =
      match s.streams.waitingIn c.stream with
      | [] => .ended
      | d :: _ => .delivery d := by
  have hfeeds : s.feeds c.stream = false := by
    rw [feeds, List.any_eq_false]
    rintro ⟨name, q⟩ hmem
    rw [List.any_eq_true]
    rintro ⟨r, hr, hsame⟩
    exact h.free name r ⟨q, Table.get?_of_mem hnames hmem, hr⟩ (beq_iff_eq.mp hsame)
  obtain ⟨stream, hstream⟩ : ∃ stream, s.streams[c.stream]? = some stream :=
    ⟨_, List.getElem?_eq_getElem h.lt⟩
  rw [State.receive, Streams.waitingIn, hstream]
  dsimp only
  cases stream.waiting with
  | nil => simp [hfeeds]
  | cons d waiting => rfl

end Detached

/-! ## A stop -/

/-- While the broker is not connected, nobody is registered. -/
theorem run_unregistered {calls : List (Call β)} (h : (run calls).connected = false)
    (name : String) (r : Registration) : ¬(run calls).Registered name r := by
  induction calls using List.reverseRecOn with
  | nil =>
      rintro ⟨q, hq, -⟩
      simp [queue?] at hq
  | append_singleton calls c ih =>
      rw [run_concat] at h ⊢
      intro hr
      have hconnected := connected_perform (run calls) c
      rw [h] at hconnected
      rcases registered_perform (run_sound calls) hr with hold | ⟨settings, q, rfl, -, -, -, hanswer⟩
      · cases c with
        | stop =>
            -- Whoever was registered is not any more.
            by_cases hopen : (run calls).connected = true
            · obtain ⟨q, hq, hmem⟩ := hr
              have hnobody : ((run calls).perform .stop).Each fun q => q.consumers = [] := by
                rw [perform, stop, if_pos hopen]
                exact .stopped rfl fun _ => rfl
              simp [hnobody name q hq] at hmem
            · exact ih (by simpa using hopen) hold
        | start => simp at hconnected
        | _ => exact ih hconnected.symm hold
      · have hopen : (run calls).connected = false := hconnected.symm
        rw [consume_eq, hopen] at hanswer
        simp at hanswer

end State

open State

variable {before : List (Call β)} {c : Consumer}

/-- After a stop, the stream of every consumer that was handed out is detached. -/
theorem Issued.detached (hc : Issued before c) : (run (before ++ [.stop])).Detached c.stream where
  lt := by
    rw [run_concat]
    exact Nat.lt_of_lt_of_le hc.stream_lt (streams_length_le (run_sound before) .stop)
  free name r hr := by
    have hclosed : (run (before ++ [.stop])).connected = false := by
      rw [run_concat, connected_perform]
    exact absurd hr (run_unregistered hclosed name r)

/-- What an old consumer receives after a stop, whatever is called after it. What it takes, and
    what is left for it, is what was waiting in its stream when the broker was stopped: nothing is
    added, and nothing is taken back. Whenever it looks into its stream, it takes the first
    delivery that is left, and finds the end when none is. So it finds the end at every time after
    the stop exactly if nothing was waiting for it. -/
theorem stopped_receives_waiting (hc : Issued before c) :
    (∀ after, (run (before ++ [.stop])).takenFrom c.stream after ++
        (run (before ++ .stop :: after)).streams.waitingIn c.stream =
      (run before).streams.waitingIn c.stream) ∧
    (∀ after, ((run (before ++ .stop :: after)).receive c).1 =
      match (run (before ++ .stop :: after)).streams.waitingIn c.stream with
      | [] => .ended
      | d :: _ => .delivery d) ∧
    ((∀ after, ((run (before ++ .stop :: after)).receive c).1 = .ended) ↔
      (run before).streams.waitingIn c.stream = []) := by
  have hstopped := hc.detached
  have hfrom (after : List (Call β)) :
      run (before ++ .stop :: after) = after.foldl perform (run (before ++ [.stop])) := by
    rw [← run_append, List.append_assoc]
    rfl
  -- The stop itself takes nothing from the streams.
  have hstop : (run (before ++ [.stop])).streams = (run before).streams := by
    rw [run_concat, perform, stop]
    split <;> rfl
  have htaken (after : List (Call β)) :
      (run (before ++ [.stop])).takenFrom c.stream after ++
          (run (before ++ .stop :: after)).streams.waitingIn c.stream =
        (run before).streams.waitingIn c.stream := by
    rw [hfrom after, hstopped.waitingIn_foldl (run_sound _), hstop]
  have hdetached (after : List (Call β)) : (run (before ++ .stop :: after)).Detached c.stream := by
    induction after using List.reverseRecOn with
    | nil => exact hstopped
    | append_singleton after x ih =>
        rw [← List.cons_append, ← List.append_assoc, run_concat]
        exact ih.perform (run_sound _) x
  have hreceive (after : List (Call β)) := (hdetached after).receive (run_sound _).names
  refine ⟨htaken, hreceive, ?_, ?_⟩
  · intro hended
    have hfirst := hreceive []
    rw [hended [], hfrom [], List.foldl_nil, hstop] at hfirst
    cases hwaiting : (run before).streams.waitingIn c.stream with
    | nil => rfl
    | cons d waiting => simp [hwaiting] at hfirst
  · intro hnothing after
    have hleft := htaken after
    rw [hnothing, List.append_eq_nil_iff] at hleft
    rw [hreceive after, hleft.2]

/-- A message is handed to a consumer, which does not take it. -/
def handedAtStop : List (Call String) :=
  [.start, .declare { name := "q" }, .consume { queue := "q", consumer := "a" },
    .publish { routingKey := "q" } "m"]

/-- The broker is stopped. The message waits in its queue again, and the consumer receives it all
    the same. -/
theorem handedAtStop_received :
    Issued handedAtStop ⟨"a", "q", 0⟩ ∧
      (run (handedAtStop ++ [.stop])).queue? "q" =
        some { settings := { name := "q" }, ready := [⟨"m", "application/json", "q", true⟩],
               consumers := [], cursor := 1, unacked := [] } ∧
      ((run (handedAtStop ++ [.stop])).receive ⟨"a", "q", 0⟩).1 =
        .delivery ⟨⟨"m", "application/json", "q", false⟩, 1⟩ :=
  ⟨⟨handedAtStop.take 2, _, handedAtStop.drop 3, rfl, by cbv⟩, by cbv, by cbv⟩

/-- The consumer takes the delivery after the broker was started again, and nothing is left. -/
theorem handedAtStop_drained :
    Issued handedAtStop ⟨"a", "q", 0⟩ ∧
      (run (handedAtStop ++ .stop :: [.start, .receive ⟨"a", "q", 0⟩])).streams.waitingIn 0 = [] ∧
      ¬∀ after, ((run (handedAtStop ++ .stop :: after)).receive ⟨"a", "q", 0⟩).1 = .ended := by
  have hc : Issued handedAtStop ⟨"a", "q", 0⟩ :=
    ⟨handedAtStop.take 2, _, handedAtStop.drop 3, rfl, by cbv⟩
  have hwaiting : (run handedAtStop).streams.waitingIn 0 =
      [⟨⟨"m", "application/json", "q", false⟩, 1⟩] := by cbv
  have htaken : (run (handedAtStop ++ [.stop])).takenFrom 0 [.start, .receive ⟨"a", "q", 0⟩] =
      [⟨⟨"m", "application/json", "q", false⟩, 1⟩] := by cbv
  obtain ⟨hall, -, hended⟩ := stopped_receives_waiting hc
  refine ⟨hc, ?_, ?_⟩
  · have hleft := hall [.start, .receive ⟨"a", "q", 0⟩]
    simp only [htaken, hwaiting] at hleft
    simpa using hleft
  · rw [hended]
    simp [hwaiting]

end Almanac.Broker
