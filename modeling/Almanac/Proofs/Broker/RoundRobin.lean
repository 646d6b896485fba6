/-
  Almanac.Proofs.Broker.RoundRobin

  How fair a queue is to its consumers while they come and go. Between two hand-outs to one consumer
  every other one that stays is handed a message as well, as long as nobody leaves the row in front
  of the cursor. Each departure that does moves the row up under the cursor, and can cost one of the
  others its turn, but no more than one (`round_robin_but_for_jumps`).

  That a turn can be lost is shown by `lateLeaver_skips`: one of three consumers leaves when two of
  them have had a message, and the next message goes to the second one again.
-/
import Almanac.Proofs.Broker.Fairness
import Almanac.Proofs.Broker.Recounted
import Mathlib

namespace Almanac.Broker

open State

variable {β : Type}

/-- How the messages of a queue go round, over every run. The turns of the queue are those of the
    run: whoever is handed a message is so by the journal, and at every point of the run the turns
    until then lead to the consumers that are registered, in their order. Between two successive
    hand-outs to one consumer, the others that stay registered all the time without being handed
    anything are no more than the departures from in front of the cursor. So without such a departure
    each of them is handed a message. -/
theorem round_robin_but_for_jumps {calls : List (Call β)} {name : String}
    {before between rest : List Turn} {x : Registration}
    (hturns : turns name calls = before ++ .handed x :: between ++ .handed x :: rest)
    (hbetween : .handed x ∉ between) :
    receiversOn name (journal calls) = (turns name calls).filterMap Turn.handed? ∧
    (∀ earlier later, calls = earlier ++ later →
      turns name earlier <+: turns name calls ∧
        (run earlier).Shows name (Rotation.of (turns name earlier))) ∧
    (∀ ys : List Registration, ys.Nodup →
      (∀ y ∈ ys, y ≠ x ∧ (Rotation.of (before ++ [.handed x])).Keeps y between ∧
        .handed y ∉ between) →
      ys.length ≤ (Rotation.of (before ++ [.handed x])).jumps between) ∧
    ((Rotation.of (before ++ [.handed x])).jumps between = 0 →
      ∀ y, y ≠ x → (Rotation.of (before ++ [.handed x])).Keeps y between →
        .handed y ∈ between) := by
  have hfollows := (turns_show name calls).1
  rw [hturns, List.append_assoc, Rotation.follows_append] at hfollows
  obtain ⟨hbefore, hround⟩ := hfollows
  -- What comes after the second hand-out does not matter.
  have hcircle : (({} : Rotation).after before).Follows (.handed x :: between ++ [.handed x]) := by
    rw [List.append_cons, Rotation.follows_append] at hround
    exact hround.1
  have hsound := Rotation.Sound.fresh.after hbefore
  have hskipped (ys : List Registration) (hnodup : ys.Nodup)
      (hys : ∀ y ∈ ys, y ≠ x ∧ (Rotation.of (before ++ [.handed x])).Keeps y between ∧
        .handed y ∉ between) :
      ys.length ≤ (Rotation.of (before ++ [.handed x])).jumps between := by
    rw [Rotation.of, Rotation.after_append] at hys ⊢
    exact Rotation.skipped_le_jumps hsound hcircle hbetween hnodup hys
  refine ⟨(recounts_run name calls).receivers, ?_, hskipped, ?_⟩
  · rintro earlier later rfl
    rw [turns_append]
    exact ⟨List.prefix_append _ _, (turns_show name earlier).2⟩
  · intro hnone y hother hkeeps
    by_contra hmissed
    have hone := hskipped [y] (List.nodup_singleton y) fun z hz => by
      rw [List.mem_singleton.mp hz]
      exact ⟨hother, hkeeps, hmissed⟩
    rw [hnone, List.length_singleton] at hone
    omega

/-- A consumer that takes deliveries as acknowledged. -/
def taker (tag : String) (stream : Nat) : Registration := ⟨tag, true, false, stream⟩

/-- Three consumers join a queue. -/
def threeTakers : List (Call String) :=
  [.start, .declare { name := "q" },
    .consume { queue := "q", consumer := "a", autoAck := true },
    .consume { queue := "q", consumer := "b", autoAck := true },
    .consume { queue := "q", consumer := "c", autoAck := true }]

/-- The turns of the queue until then. -/
def threeJoined : List Turn :=
  [.opened { name := "q" }, .joined (taker "a" 0), .joined (taker "b" 1), .joined (taker "c" 2)]

/-- The first one leaves after the first two have had a message. -/
def lateLeaver : List (Call String) :=
  threeTakers ++ [.publish { routingKey := "q" } "1", .publish { routingKey := "q" } "2",
    .close ⟨"a", "q", 0⟩, .cancel "q" "a", .publish { routingKey := "q" } "3"]

/-- The second consumer is handed two messages in a row. The third one was there all the time, and
    is handed none in between: its turn is the one that the departure costs. -/
theorem lateLeaver_skips :
    turns "q" lateLeaver =
      (threeJoined ++ [Turn.handed (taker "a" 0)]) ++
        Turn.handed (taker "b" 1) :: [Turn.cancelled (taker "a" 0)] ++
        Turn.handed (taker "b" 1) :: [] ∧
    (Rotation.of ((threeJoined ++ [Turn.handed (taker "a" 0)]) ++ [Turn.handed (taker "b" 1)])).Keeps
      (taker "c" 2) [Turn.cancelled (taker "a" 0)] ∧
    Turn.handed (taker "c" 2) ∉ [Turn.cancelled (taker "a" 0)] ∧
    ((run lateLeaver).streams.waitingIn 1).map (·.body) = ["2", "3"] ∧
    (run lateLeaver).streams.waitingIn 2 = [] := by
  refine ⟨by cbv, ?_, by simp, by cbv, by cbv⟩
  have hleft : taker "c" 2 ∈ [taker "b" 1, taker "c" 2] := List.mem_cons_of_mem _ List.mem_cons_self
  exact ⟨List.mem_cons_of_mem _ hleft, hleft⟩

/-- The last one leaves when the first one has had a message. -/
def earlyLeaver : List (Call String) :=
  threeTakers ++ [.publish { routingKey := "q" } "1", .close ⟨"c", "q", 2⟩, .cancel "q" "c",
    .publish { routingKey := "q" } "2", .publish { routingKey := "q" } "3"]

/-- It leaves from behind the cursor. The other consumer gets its message before it is the turn of
    the first one again. -/
theorem earlyLeaver_fair :
    turns "q" earlyLeaver =
      threeJoined ++
        Turn.handed (taker "a" 0) :: [Turn.cancelled (taker "c" 2), Turn.handed (taker "b" 1)] ++
        Turn.handed (taker "a" 0) :: [] ∧
    Turn.handed (taker "b" 1) ∈ [Turn.cancelled (taker "c" 2), Turn.handed (taker "b" 1)] := by
  have hturns : turns "q" earlyLeaver =
      threeJoined ++
        Turn.handed (taker "a" 0) :: [Turn.cancelled (taker "c" 2), Turn.handed (taker "b" 1)] ++
        Turn.handed (taker "a" 0) :: [] := by cbv
  obtain ⟨-, -, -, hfair⟩ := round_robin_but_for_jumps hturns (by decide)
  have hleft : taker "b" 1 ∈ [taker "a" 0, taker "b" 1] :=
    List.mem_cons_of_mem _ List.mem_cons_self
  exact ⟨hturns, hfair (by cbv) _ (by decide) ⟨List.mem_cons_of_mem _ List.mem_cons_self, hleft, hleft⟩⟩

end Almanac.Broker
