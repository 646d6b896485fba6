/-
  Almanac.Proofs.Broker.EachQueue

  What holds of every queue of the broker, one by one (`State.Each`). A call puts a queue under a
  name, puts one there and dispatches it, erases one, or abandons all of them; each of these has
  its lemma. So an invariant of the single queue needs to be looked at there only: `Queue.Kept`
  lists what the broker does to a queue, and `Each.perform` is the step for every call.
-/
import Almanac.Proofs.Broker.Effect

namespace Almanac.Broker

variable {β : Type}

/-- What the broker does to a queue without dispatching it keeps `P`. What it does to a queue
    before it dispatches it leads from `P` to `R`, and the dispatch back to `P`. -/
structure Queue.Kept (P R : Queue β → Prop) : Prop where
  fresh : ∀ settings, P { settings }
  abandoned : ∀ q : Queue β, P q.abandoned
  discard : ∀ q p, P q → P (q.discardIf p)
  push : ∀ q m, P q → R { q with ready := q.ready ++ [m] }
  requeue : ∀ q p, P q → R (q.requeueIf p)
  without : ∀ q tag, P q → R (q.without tag)
  dispatch : ∀ d : Dispatching β, R d.queue → P d.run.queue

namespace State

variable {s : State β}

/-- Something holds of every queue. -/
def Each (P : Queue β → Prop) (s : State β) : Prop := ∀ name q, s.queue? name = some q → P q

namespace Each

variable {P R : Queue β → Prop}

theorem fresh : ({} : State β).Each P := by
  intro name q hq
  simp [queue?] at hq

theorem congr (hs : s.Each P) {s' : State β} (hqueues : s'.queues = s.queues) : s'.Each P := by
  intro name q hq
  rw [queue?, hqueues] at hq
  exact hs name q hq

theorem setQueue (hs : s.Each P) {name : String} {r : Queue β} (hr : P r) :
    (s.setQueue name r).Each P := by
  intro other q hq
  rw [queue?_setQueue] at hq
  split at hq
  · obtain rfl := Option.some.inj hq
    exact hr
  · exact hs other q hq

theorem deliver (hs : s.Each P) {name : String} {r : Queue β}
    (hr : P (s.dispatching r).run.queue) : (s.deliver name r).Each P := by
  intro other q hq
  rw [queue?_deliver] at hq
  split at hq
  · obtain rfl := Option.some.inj hq
    exact hr
  · exact hs other q hq

theorem erase (hs : s.Each P) (name : String) :
    ({ s with queues := s.queues.erase name } : State β).Each P := by
  intro other q hq
  rw [queue?, Table.get?_erase] at hq
  split at hq
  · simp at hq
  · exact hs other q hq

/-- The queues that a stop leaves have been abandoned. -/
theorem stopped {s' : State β} (hqueues : s'.queues = (s.queues.map fun e => (e.1, e.2.abandoned)).filter
      fun e => e.2.settings.durable) (habandoned : ∀ q : Queue β, P q.abandoned) : s'.Each P := by
  intro name r hr
  rw [queue?, hqueues] at hr
  have hmem := (List.mem_filter.mp (Table.mem_of_get? hr)).1
  obtain ⟨⟨name', q⟩, -, heq⟩ := List.mem_map.mp hmem
  obtain ⟨-, rfl⟩ := Prod.mk.inj heq
  exact habandoned q

/-- Every call keeps what the operations on one queue keep. What becomes of a queue that a consumer
    joins may depend on the broker. -/
theorem perform (hkept : Queue.Kept P R) (hs : s.Each P) (hnames : s.queues.keys.Nodup)
    (c : Call β)
    (join : ∀ settings q, c = .consume settings → s.connected = true →
      s.queue? settings.queue = some q → q.admits settings = true →
        R { q with consumers := q.consumers ++ [s.registration q settings] }) :
    (s.perform c).Each P := by
  have heffect := effect_perform hnames c
  generalize s.perform c = s' at heffect ⊢
  cases heffect with
  | idle => exact hs
  | started => exact hs
  | stopped => exact .stopped rfl hkept.abandoned
  | declared => exact hs.setQueue (hkept.fresh _)
  | published hconnected hexchange hq =>
      exact hs.deliver (hkept.dispatch _ (hkept.push _ _ (hs _ _ hq)))
  | refused => exact hs
  | consumed hconnected hq hadmits =>
      have hjoined := hkept.dispatch (s.withStream.dispatching _) (join _ _ rfl hconnected hq hadmits)
      exact Each.deliver (s := s.withStream) hs hjoined
  | discarded hcall hconnected hq => exact hs.setQueue (hkept.discard _ _ (hs _ _ hq))
  | returned hconnected hq =>
      exact hs.deliver (hkept.dispatch _ (hkept.requeue _ _ (hs _ _ hq)))
  | recovered =>
      refine recoverIn_induction (P := Each P) ?_ _ hs
      intro s name q hq h
      have hback : R (q.requeueIf fun _ _ => true) := hkept.requeue q _ (h name q hq)
      exact h.deliver (hkept.dispatch (s.dispatching _) hback)
  | received => exact hs
  | closed => exact hs
  | removed => exact hs.erase _
  | cancelled hq => exact hs.deliver (hkept.dispatch _ (hkept.without _ _ (hs _ _ hq)))

end Each

end State

end Almanac.Broker
