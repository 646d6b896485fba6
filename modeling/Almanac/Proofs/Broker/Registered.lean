/-
  Almanac.Proofs.Broker.Registered

  Who is registered, and which call that goes back to. Only `consume` registers anybody
  (`registered_perform`), and the registration it makes gets a stream that nobody had before. So
  the stream tells the consumers of a run apart: `issued_inj` for what was handed out,
  `run_streamsApart` for what is registered, and `issued_of_registered` leads from a registration
  to the consumer that was handed out for it. Tags do none of this; they can come back.
-/
import Almanac.Proofs.Broker.Balance

namespace Almanac.Broker

variable {β : Type}

namespace State

variable {s : State β}

/-! ## Registrations -/

/-- A consumer is registered on a queue. -/
def Registered (s : State β) (name : String) (r : Registration) : Prop :=
  ∃ q, s.queue? name = some q ∧ r ∈ q.consumers

theorem registered_setQueue {name other : String} {q : Queue β} {r : Registration}
    (h : (s.setQueue name q).Registered other r) :
    (name = other ∧ r ∈ q.consumers) ∨ s.Registered other r := by
  obtain ⟨q', hq', hr⟩ := h
  rw [queue?_setQueue] at hq'
  split at hq'
  · next hname =>
    obtain rfl := Option.some.inj hq'
    exact Or.inl ⟨hname, hr⟩
  · exact Or.inr ⟨q', hq', hr⟩

theorem registered_deliver {name other : String} {q : Queue β} {r : Registration}
    (h : (s.deliver name q).Registered other r) :
    (name = other ∧ r ∈ q.consumers) ∨ s.Registered other r := by
  obtain ⟨q', hq', hr⟩ := h
  rw [queue?_deliver] at hq'
  split at hq'
  · next hname =>
    obtain rfl := Option.some.inj hq'
    have hsublist := (s.dispatching q).run_consumers_sublist
    exact Or.inl ⟨hname, hsublist.mem hr⟩
  · exact Or.inr ⟨q', hq', hr⟩

/-- Delivering a queue of the broker with no more consumers than it has. -/
theorem registered_of_deliver {name other : String} {q q' : Queue β} {r : Registration}
    (hq : s.queue? name = some q) (h : (s.deliver name q').Registered other r)
    (hsubset : q'.consumers ⊆ q.consumers) : s.Registered other r := by
  rcases registered_deliver h with ⟨rfl, hr⟩ | hold
  · exact ⟨q, hq, hsubset hr⟩
  · exact hold

/-- Whoever is registered after a call was so before it, or has just been admitted. -/
theorem registered_perform (hs : s.Sound) {c : Call β} {name : String} {r : Registration}
    (h : (s.perform c).Registered name r) :
    s.Registered name r ∨
      ∃ settings q, c = .consume settings ∧ settings.queue = name ∧
        s.queue? settings.queue = some q ∧ r = s.registration q settings ∧
        (s.consume settings).1 = .ok ⟨r.tag, name, s.streams.length⟩ := by
  have heffect := effect_perform hs.names c
  generalize s.perform c = s' at heffect h
  cases heffect with
  | idle => exact Or.inl h
  | started => exact Or.inl h
  | stopped =>
      -- No queue has kept a consumer.
      obtain ⟨q, hq, hr⟩ := h
      have hmem := (List.mem_filter.mp (Table.mem_of_get? hq)).1
      obtain ⟨⟨name', q'⟩, -, heq⟩ := List.mem_map.mp hmem
      obtain ⟨-, rfl⟩ := Prod.mk.inj heq
      simp [Queue.abandoned] at hr
  | declared =>
      rcases registered_setQueue h with ⟨-, hr⟩ | hold
      · simp at hr
      · exact Or.inl hold
  | published hconnected hexchange hq =>
      exact Or.inl (registered_of_deliver hq h (List.Subset.refl _))
  | refused => exact Or.inl h
  | @consumed settings q hconnected hq hadmits =>
      rcases registered_deliver h with ⟨rfl, hr⟩ | hold
      · rcases List.mem_append.mp hr with hr | hr
        · exact Or.inl ⟨q, hq, hr⟩
        · obtain rfl := List.mem_singleton.mp hr
          refine Or.inr ⟨settings, q, rfl, rfl, hq, rfl, ?_⟩
          rw [consume_admitted hconnected hq hadmits]
      · exact Or.inl hold
  | discarded hcall hconnected hq =>
      rcases registered_setQueue h with ⟨rfl, hr⟩ | hold
      · exact Or.inl ⟨_, hq, hr⟩
      · exact Or.inl hold
  | returned hconnected hq => exact Or.inl (registered_of_deliver hq h (List.Subset.refl _))
  | @recovered order =>
      have hback := recoverIn_induction
        (P := fun e => e.Registered name r → s.Registered name r)
        (fun e other q hq ih hr => ih (registered_of_deliver hq hr (List.Subset.refl _))) order id
      exact Or.inl (hback h)
  | received => exact Or.inl h
  | closed => exact Or.inl h
  | removed =>
      obtain ⟨q, hq, hr⟩ := h
      rw [queue?, Table.get?_erase] at hq
      split at hq
      · simp at hq
      · exact Or.inl ⟨q, hq, hr⟩
  | cancelled hq =>
      exact Or.inl (registered_of_deliver hq h List.filter_sublist.subset)

/-- A registered consumer has one of the streams. -/
theorem Sound.stream_lt (hs : s.Sound) {name : String} {r : Registration}
    (h : s.Registered name r) : r.stream < s.streams.length := by
  obtain ⟨q, hq, hr⟩ := h
  exact (hs.queue name q hq).fed r hr

/-- A request to consume that is answered with a consumer names the next stream. -/
theorem stream_of_consume {settings : ConsumeSettings} {c : Consumer}
    (h : (s.consume settings).1 = .ok c) :
    c.queue = settings.queue ∧ c.stream = s.streams.length ∧
      (s.consume settings).2.streams.length = s.streams.length + 1 := by
  rcases consume_cases s settings with ⟨e, n, heq⟩ | ⟨q, hconnected, hq, hadmits⟩
  · rw [heq] at h
    simp at h
  · rw [consume_admitted hconnected hq hadmits] at h ⊢
    obtain rfl := Except.ok.inj h
    refine ⟨rfl, rfl, ?_⟩
    rw [deliver_streams_length]
    simp [withStream]

/-! ## Streams tell consumers apart -/

/-- No two registrations have one stream. -/
def StreamsApart (s : State β) : Prop :=
  ∀ name r name' r', s.Registered name r → s.Registered name' r' → r.stream = r'.stream →
    name = name' ∧ r = r'

theorem StreamsApart.perform (hapart : s.StreamsApart) (hs : s.Sound) (c : Call β) :
    (s.perform c).StreamsApart := by
  intro name r name' r' hr hr' hstream
  rcases registered_perform hs hr with hold | ⟨settings, q, rfl, rfl, hq, rfl, -⟩ <;>
    rcases registered_perform hs hr' with hold' | ⟨settings', q', hcall, rfl, hq', rfl, -⟩
  · exact hapart name r name' r' hold hold' hstream
  · -- The stream of the new one is beyond all that there were.
    have hlt := hs.stream_lt hold
    have hnew : r.stream = s.streams.length := hstream
    omega
  · have hlt := hs.stream_lt hold'
    have hnew : s.streams.length = r'.stream := hstream
    omega
  · obtain rfl := Call.consume.inj hcall
    obtain rfl := Option.some.inj (hq.symm.trans hq')
    exact ⟨rfl, rfl⟩

/-- At every point of every run, no two registrations have one stream. -/
theorem run_streamsApart (calls : List (Call β)) : (run calls).StreamsApart := by
  induction calls using List.reverseRecOn with
  | nil =>
      rintro name r name' r' ⟨q, hq, -⟩
      simp [queue?] at hq
  | append_singleton calls c ih =>
      rw [run_concat]
      exact ih.perform (run_sound calls) c

end State

/-! ## Consumers that were handed out -/

open State

/-- A consumer is the answer to a call of a run. -/
def Issued (calls : List (Call β)) (c : Consumer) : Prop :=
  ∃ before settings after, calls = before ++ .consume settings :: after ∧
    ((run before).consume settings).1 = .ok c

variable {calls : List (Call β)} {c : Consumer}

theorem issued_concat {x : Call β} :
    Issued (calls ++ [x]) c ↔
      Issued calls c ∨ ∃ settings, x = .consume settings ∧
        ((run calls).consume settings).1 = .ok c := by
  constructor
  · rintro ⟨before, settings, after, hcalls, hanswer⟩
    rcases List.eq_nil_or_concat after with rfl | ⟨after, y, rfl⟩
    · obtain ⟨rfl, hx⟩ := List.append_inj' hcalls rfl
      exact Or.inr ⟨settings, List.singleton_inj.mp hx, hanswer⟩
    · -- The call lies before the last one.
      have hsplit : calls ++ [x] = (before ++ .consume settings :: after) ++ [y] := by
        rw [hcalls, List.concat_eq_append, List.append_assoc, List.cons_append]
      obtain ⟨rfl, -⟩ := List.append_inj' hsplit rfl
      exact Or.inl ⟨before, settings, after, rfl, hanswer⟩
  · rintro (⟨before, settings, after, rfl, hanswer⟩ | ⟨settings, rfl, hanswer⟩)
    · exact ⟨before, settings, after ++ [x], by simp, hanswer⟩
    · exact ⟨calls, settings, [], rfl, hanswer⟩

/-- A consumer has one of the streams ever since it was handed out. -/
theorem Issued.stream_lt (h : Issued calls c) : c.stream < (run calls).streams.length := by
  induction calls using List.reverseRecOn with
  | nil =>
      obtain ⟨before, settings, after, hcalls, -⟩ := h
      simp at hcalls
  | append_singleton calls x ih =>
      rw [run_concat]
      rcases issued_concat.mp h with hold | ⟨settings, rfl, hanswer⟩
      · have hlt := ih hold
        have hmore := streams_length_le (run_sound calls) x
        omega
      · obtain ⟨-, hstream, hlength⟩ := stream_of_consume hanswer
        rw [perform, hlength]
        omega

/-- Consumers with one stream are the same consumer. -/
theorem issued_inj {d : Consumer} (hc : Issued calls c) (hd : Issued calls d)
    (h : d.stream = c.stream) : d = c := by
  induction calls using List.reverseRecOn with
  | nil =>
      obtain ⟨before, settings, after, hcalls, -⟩ := hc
      simp at hcalls
  | append_singleton calls x ih =>
      rcases issued_concat.mp hc with holdc | ⟨settings, rfl, hanswer⟩ <;>
        rcases issued_concat.mp hd with holdd | ⟨settings', hcall, hanswer'⟩
      · exact ih holdc holdd
      · have hlt := holdc.stream_lt
        have hnew := (stream_of_consume hanswer').2.1
        omega
      · have hlt := holdd.stream_lt
        have hnew := (stream_of_consume hanswer).2.1
        omega
      · obtain rfl := Call.consume.inj hcall
        exact Except.ok.inj (hanswer'.symm.trans hanswer)

/-- Every registration is that of a consumer that was handed out. -/
theorem issued_of_registered {name : String} {r : Registration}
    (h : (run calls).Registered name r) : Issued calls ⟨r.tag, name, r.stream⟩ := by
  induction calls using List.reverseRecOn with
  | nil =>
      obtain ⟨q, hq, -⟩ := h
      simp [queue?] at hq
  | append_singleton calls x ih =>
      rw [run_concat] at h
      rw [issued_concat]
      rcases registered_perform (run_sound calls) h with
        hold | ⟨settings, q, rfl, rfl, -, rfl, hanswer⟩
      · exact Or.inl (ih hold)
      · exact Or.inr ⟨settings, rfl, hanswer⟩

/-- The registration with the stream of a consumer has its queue and its tag. -/
theorem Issued.own (hc : Issued calls c) {name : String} {r : Registration}
    (h : (run calls).Registered name r) (hstream : r.stream = c.stream) :
    name = c.queue ∧ r.tag = c.tag := by
  have hsame := issued_inj hc (issued_of_registered h) hstream
  rw [← hsame]
  exact ⟨rfl, rfl⟩

end Almanac.Broker
