/-
  Almanac.Proofs.Broker.AutoDelete

  Which queues that remove themselves are still there when nobody is registered on them. A
  cancellation that takes the last consumer takes the queue along. A dispatch that finds the last
  consumer gone does not, and neither does a stop if the queue is durable; the cancellation that
  comes after them finds no registration to end, and leaves the queue as it is. So it is the last
  turn of the queue that decides, and the call that gave it (`auto_delete_goes_iff`).

  `unnoticedDrop_stays` is a consumer that closes its stream, a message that is published before it
  cancels, and a queue that stays for good.
-/
import Almanac.Proofs.Broker.Origins
import Mathlib

namespace Almanac.Broker

variable {β : Type}

namespace Rotation

variable {t : Rotation} {e : Turn} {turns : List Turn} {settings : QueueSettings}

/-- By this turn a queue goes that removes itself, if nobody is left. -/
def Removes (settings : QueueSettings) (last : Option Turn) : Prop :=
  (∃ r, last = some (.cancelled r)) ∨ last = some .stopped ∧ settings.durable = false

/-- By this turn it stays without consumers. -/
def Leaves (settings : QueueSettings) (last : Option Turn) : Prop :=
  last = none ∨ (∃ r, last = some (.swept r)) ∨ last = some .stopped ∧ settings.durable = true

/-- A queue that removes itself, since it was declared: it is there, and if nobody is registered its
    last turn has left it, or it has been removed by its last turn. -/
def Expires (t : Rotation) (settings : QueueSettings) (last : Option Turn) : Prop :=
  (t.settings = some settings ∧ (t.row = [] → Leaves settings last)) ∨
    (t.settings = none ∧ t.row = [] ∧ Removes settings last)

/-- A removed queue has no turn but to be declared again. -/
theorem eq_opened_of_allows (hgone : t.settings = none) (hnobody : t.row = [])
    (hallows : t.Allows e) : ∃ s, e = .opened s := by
  cases e with
  | opened s => exact ⟨s, rfl⟩
  | joined r => simp [Allows, hgone] at hallows
  | handed r => simp [Allows, next?, hnobody] at hallows
  | swept r => simp [Allows, next?, hnobody] at hallows
  | cancelled r => simp [Allows, hnobody] at hallows
  | stopped => simp [Allows, hgone] at hallows

theorem Expires.apply (hauto : settings.autoDelete = true) {last : Option Turn}
    (h : t.Expires settings last) (hallows : t.Allows e) (hopened : ∀ s, e ≠ .opened s) :
    (t.apply e).Expires settings (some e) := by
  rcases h with ⟨hthere, -⟩ | ⟨hgone, hnobody, -⟩
  · cases e with
    | opened s => exact (hopened s rfl).elim
    | joined r => exact Or.inl ⟨hthere, fun hrow => by simp [Rotation.apply] at hrow⟩
    | handed r =>
        have hmem : r ∈ t.row := mem_row_of_next? hallows
        exact Or.inl ⟨hthere, fun hrow => absurd hrow (List.ne_nil_of_mem hmem)⟩
    | swept r => exact Or.inl ⟨hthere, fun _ => Or.inr (Or.inl ⟨r, rfl⟩)⟩
    | cancelled r =>
        by_cases hrow : t.row.erase r = []
        · refine Or.inr ⟨?_, hrow, Or.inl ⟨r, rfl⟩⟩
          simp [Rotation.apply, leave, expire, hrow, hthere, hauto]
        · refine Or.inl ⟨?_, fun hnobody => (hrow hnobody).elim⟩
          simp [Rotation.apply, leave, expire, hrow, hthere]
    | stopped =>
        cases hdurable : settings.durable
        · refine Or.inr ⟨?_, rfl, Or.inr ⟨rfl, hdurable⟩⟩
          simp [Rotation.apply, hthere, hdurable]
        · refine Or.inl ⟨?_, fun _ => Or.inr (Or.inr ⟨rfl, hdurable⟩)⟩
          simp [Rotation.apply, hthere, hdurable]
  · obtain ⟨s, rfl⟩ := eq_opened_of_allows hgone hnobody hallows
    exact (hopened s rfl).elim

/-- From its declaration on, a queue expires by its turns. -/
theorem expires_after (hauto : settings.autoDelete = true)
    (hfollows : t.Follows (.opened settings :: turns)) (hopened : ∀ s, .opened s ∉ turns) :
    (t.after (.opened settings :: turns)).Expires settings turns.getLast? := by
  induction turns using List.reverseRecOn with
  | nil => exact Or.inl ⟨rfl, fun _ => Or.inl rfl⟩
  | append_singleton turns e ih =>
      rw [← List.cons_append, follows_append] at hfollows
      obtain ⟨hbefore, hallows, -⟩ := hfollows
      have hexpires := ih hbefore fun s hs => hopened s (List.mem_append_left _ hs)
      have hnext : ∀ s, e ≠ .opened s := by
        rintro s rfl
        exact hopened s (List.mem_append_right _ List.mem_cons_self)
      rw [← List.cons_append, after_append, List.getLast?_concat]
      exact hexpires.apply hauto hallows hnext

end Rotation

open State

/-- When a queue that removes itself has gone, over every run and with the two steps of every drop
    as calls of their own. The turns of the queue are those of the run, from its last declaration
    on; nobody is registered on it. It is not there exactly if its last turn was a cancellation, or
    a stop when it was not durable. It is there exactly if nobody has ever joined, or the last
    consumer was swept out by a dispatch, or its registration ended by a stop. The last turn is
    what one of the calls did: a cancellation has found the consumer registered, and a dispatch
    has found its stream closed. -/
theorem auto_delete_goes_iff {calls : List (Call β)} {name : String} {earlier since : List Turn}
    {settings : QueueSettings}
    (hturns : turns name calls = earlier ++ .opened settings :: since)
    (hopened : ∀ s, .opened s ∉ since) (hauto : settings.autoDelete = true)
    (hnobody : ∀ r, ¬(run calls).Registered name r) :
    ((run calls).queue? name = none ↔
      (∃ r, since.getLast? = some (.cancelled r)) ∨
        since.getLast? = some .stopped ∧ settings.durable = false) ∧
    ((∃ q, (run calls).queue? name = some q) ↔
      since.getLast? = none ∨ (∃ r, since.getLast? = some (.swept r)) ∨
        since.getLast? = some .stopped ∧ settings.durable = true) ∧
    ∀ e, since.getLast? = some e →
      ∃ before c after, calls = before ++ c :: after ∧ (run before).Gives name c e := by
  have hgiven : ∀ e, since.getLast? = some e →
      ∃ before c after, calls = before ++ c :: after ∧ (run before).Gives name c e := by
    intro e hlast
    have hmem : e ∈ turns name calls := by
      rw [hturns]
      exact List.mem_append_right _ (List.mem_cons_of_mem _ (List.mem_of_getLast? hlast))
    exact given_of_mem_turns hmem
  rw [← and_assoc]
  refine ⟨?_, hgiven⟩
  obtain ⟨hfollows, hshows⟩ := turns_show name calls
  rw [hturns, Rotation.follows_append] at hfollows
  rw [hturns, Rotation.of, Rotation.after_append] at hshows
  have hexpires := Rotation.expires_after hauto hfollows.2 hopened
  -- No turn both removes the queue and leaves it.
  have hapart : ¬(Rotation.Removes settings since.getLast? ∧
      Rotation.Leaves settings since.getLast?) := by
    rintro ⟨⟨r, hlast⟩ | ⟨hlast, hdurable⟩, hleaves⟩
    · simp [Rotation.Leaves, hlast] at hleaves
    · simp [Rotation.Leaves, hlast, hdurable] at hleaves
  show (_ ↔ Rotation.Removes settings since.getLast?) ∧
    (_ ↔ Rotation.Leaves settings since.getLast?)
  rcases hexpires with ⟨hthere, hleaves⟩ | ⟨hgone, -, hremoves⟩
  · cases hq : (run calls).queue? name with
    | none =>
        rw [(hshows.absent hq).1] at hthere
        simp at hthere
    | some q =>
        have hconsumers : q.consumers = [] :=
          List.eq_nil_iff_forall_not_mem.mpr fun r hr => hnobody r ⟨q, hq, hr⟩
        have hleft := hleaves ((hshows.present q hq).row.trans hconsumers)
        exact ⟨⟨fun h => by simp at h, fun h => (hapart ⟨h, hleft⟩).elim⟩, fun _ => hleft,
          fun _ => ⟨q, rfl⟩⟩
  · cases hq : (run calls).queue? name with
    | none =>
        exact ⟨⟨fun _ => hremoves, fun _ => rfl⟩, fun ⟨q, hq'⟩ => by simp at hq',
          fun h => (hapart ⟨hremoves, h⟩).elim⟩
    | some q =>
        rw [(hshows.present q hq).settings] at hgone
        simp at hgone

/-- The last consumer of a queue that removes itself is dropped, and a message is published between
    the two steps. -/
def unnoticedDrop : List (Call String) :=
  [.start, .declare { name := "q", autoDelete := true }, .consume { queue := "q", consumer := "a" },
    .close ⟨"a", "q", 0⟩, .publish { routingKey := "q" } "m", .cancel "q" "a"]

/-- The last consumer of such a queue is dropped after the broker was stopped and started again. -/
def lateDrop : List (Call String) :=
  [.start, .declare { name := "q", autoDelete := true }, .consume { queue := "q", consumer := "a" },
    .stop, .start, .close ⟨"a", "q", 0⟩, .cancel "q" "a"]

/-- The broker is connected, both steps of the drop have been made, and nobody is registered: the
    queue is still there, and keeps the message. -/
theorem unnoticedDrop_stays :
    ((run unnoticedDrop).connected = true ∧
      Issued unnoticedDrop ⟨"a", "q", 0⟩ ∧
      (run unnoticedDrop).queue? "q" =
        some { settings := { name := "q", autoDelete := true },
               ready := [⟨"m", "application/json", "q", false⟩], consumers := [], cursor := 1,
               unacked := [] }) ∧
    ((run lateDrop).connected = true ∧
      Issued lateDrop ⟨"a", "q", 0⟩ ∧
      (run lateDrop).queue? "q" =
        some { settings := { name := "q", autoDelete := true }, ready := [], consumers := [],
               cursor := 0, unacked := [] }) :=
  ⟨⟨by cbv, ⟨unnoticedDrop.take 2, _, unnoticedDrop.drop 3, rfl, by cbv⟩, by cbv⟩,
    ⟨by cbv, ⟨lateDrop.take 2, _, lateDrop.drop 3, rfl, by cbv⟩, by cbv⟩⟩

/-- The same drop with the message before it. -/
def noticedDrop : List (Call String) :=
  [.start, .declare { name := "q", autoDelete := true }, .consume { queue := "q", consumer := "a" },
    .publish { routingKey := "q" } "m", .close ⟨"a", "q", 0⟩, .cancel "q" "a"]

/-- The cancellation takes the last consumer, and the queue is gone. -/
theorem noticedDrop_removes :
    turns "q" noticedDrop =
      [] ++ .opened { name := "q", autoDelete := true } ::
        [.joined ⟨"a", false, false, 0⟩, .handed ⟨"a", false, false, 0⟩,
          .cancelled ⟨"a", false, false, 0⟩] ∧
    (run noticedDrop).queue? "q" = none := by
  have hturns : turns "q" noticedDrop =
      [] ++ .opened { name := "q", autoDelete := true } ::
        [.joined ⟨"a", false, false, 0⟩, .handed ⟨"a", false, false, 0⟩,
          .cancelled ⟨"a", false, false, 0⟩] := by cbv
  have hnobody : ∀ r, ¬(run noticedDrop).Registered "q" r := by
    rintro r ⟨q, hq, -⟩
    have hnone : (run noticedDrop).queue? "q" = none := by cbv
    simp [hnone] at hq
  obtain ⟨hgone, -⟩ := auto_delete_goes_iff hturns (by simp) rfl hnobody
  exact ⟨hturns, hgone.mpr (Or.inl ⟨_, rfl⟩)⟩

end Almanac.Broker
