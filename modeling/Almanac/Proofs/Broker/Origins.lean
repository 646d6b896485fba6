/-
  Almanac.Proofs.Broker.Origins

  Where the turns of a queue come from. `Gives` says what a call has to be, and to find, to give a
  queue a turn. Declaring, joining, cancelling and stopping are calls of their own. A consumer is
  handed messages, and swept out, by whatever call makes the dispatch (`Dealt`), and it is swept out
  only when its stream is closed.

  Every turn of a call is given by it (`given_of_mem_turnsOf`), and so every turn of a run by one of
  its calls.
-/
import Almanac.Proofs.Broker.Leaving
import Almanac.Proofs.Broker.Recounted

namespace Almanac.Broker

variable {β : Type}

/-! ## Dispatching -/

/-- Who is swept out by a dispatch has closed its stream before. -/
theorem Dispatching.mem_turns {d : Dispatching β} {e : Turn} (h : e ∈ d.turns)
    (hfed : ∀ r ∈ d.queue.consumers, r.stream < d.streams.length) :
    (∃ r, e = .handed r) ∨ ∃ r, e = .swept r ∧ d.streams.Closed r.stream := by
  induction d using run_induction with
  | finished d hfin hrun =>
      rw [turns_of_none (turn?_of_finished hfin)] at h
      simp at h
  | round d after hround hrun ih =>
      have hsweeps := hround.sweeps hfed
      have hfed' : ∀ r ∈ after.queue.consumers, r.stream < after.streams.length := by
        intro r hr
        rw [hsweeps.length]
        exact hfed r (hsweeps.consumers hr)
      have hlater (hmem : e ∈ after.turns) :
          (∃ r, e = .handed r) ∨ ∃ r, e = .swept r ∧ d.streams.Closed r.stream := by
        refine (ih hmem hfed').imp_right ?_
        rintro ⟨r, rfl, hclosed⟩
        exact ⟨r, rfl, (hsweeps.closed r.stream).mp hclosed⟩
      cases hround with
      | @lost message ready index consumer hready hindex hconsumer hoffer =>
          rw [turns_of_some (turn?_of_lost hready hindex hconsumer hoffer)] at h
          rcases List.mem_cons.mp h with rfl | hmem
          · have hlt := hfed consumer (List.mem_of_getElem? hconsumer)
            exact Or.inr ⟨consumer, rfl, Streams.closed_of_offer hlt hoffer⟩
          · exact hlater hmem
      | @handed message ready index consumer streams hready hindex hconsumer hoffer =>
          rw [turns_of_some (turn?_of_handed hready hindex hconsumer hoffer)] at h
          rcases List.mem_cons.mp h with rfl | hmem
          · exact Or.inl ⟨consumer, rfl⟩
          · exact hlater hmem

namespace State

variable {s : State β} {name n : String} {e : Turn}

/-- A delivery neither closes nor opens a stream. -/
theorem closed_deliver {q : Queue β} (hfed : ∀ r ∈ q.consumers, r.stream < s.streams.length)
    (id : Nat) : (s.deliver n q).streams.Closed id ↔ s.streams.Closed id :=
  (Dispatching.run_sweeps (s.dispatching q) hfed).closed id

/-- The stream of a consumer that joins is open. -/
theorem closed_of_withStream {id : Nat} (h : s.withStream.streams.Closed id) :
    s.streams.Closed id := by
  obtain ⟨stream, hstream, hclosed⟩ := h
  rw [withStream, List.getElem?_append] at hstream
  split at hstream
  · exact ⟨stream, hstream, hclosed⟩
  · obtain rfl := List.mem_singleton.mp (List.mem_of_getElem? hstream)
    simp [Stream.fresh] at hclosed

/-- A turn that a dispatch can bring. -/
def Dealt (s : State β) (e : Turn) : Prop :=
  (∃ r, e = .handed r) ∨ ∃ r, e = .swept r ∧ s.streams.Closed r.stream

theorem Dealt.congr {s' : State β} (h : s.Dealt e)
    (hclosed : ∀ id, s.streams.Closed id → s'.streams.Closed id) : s'.Dealt e := by
  refine h.imp_right ?_
  rintro ⟨r, rfl, hr⟩
  exact ⟨r, rfl, hclosed r.stream hr⟩

theorem mem_turnsIn {before : List Turn} {q : Queue β} (h : e ∈ s.turnsIn name n before q)
    (hfed : ∀ r ∈ q.consumers, r.stream < s.streams.length) :
    n = name ∧ (e ∈ before ∨ s.Dealt e) := by
  rw [turnsIn] at h
  split at h
  · next hname =>
    refine ⟨hname, (List.mem_append.mp h).imp_right fun hmem => ?_⟩
    exact Dispatching.mem_turns hmem hfed
  · simp at h

theorem dealt_of_mem_turnsIn {q : Queue β} (h : e ∈ s.turnsIn name n [] q)
    (hfed : ∀ r ∈ q.consumers, r.stream < s.streams.length) : s.Dealt e := by
  rcases mem_turnsIn h hfed with ⟨-, hmem | hdealt⟩
  · simp at hmem
  · exact hdealt

theorem dealt_of_mem_turnsOfReturn (hs : s.Sound) (h : e ∈ s.turnsOfReturn name n) :
    s.Dealt e := by
  rw [turnsOfReturn] at h
  cases hq : s.queue? n with
  | none => simp [hq] at h
  | some q =>
      rw [hq] at h
      exact dealt_of_mem_turnsIn h (hs.queue n q hq).fed

theorem closed_recoverQueue (hs : s.Sound) (id : Nat) :
    (s.recoverQueue n).streams.Closed id ↔ s.streams.Closed id := by
  rw [recoverQueue_eq]
  cases hq : s.queue? n with
  | none => exact Iff.rfl
  | some q => exact closed_deliver (q := q.requeueIf fun _ _ => true) (hs.queue n q hq).fed id

theorem dealt_of_mem_turnsOfRecover (hs : s.Sound) {order : List String}
    (h : e ∈ s.turnsOfRecover name order) : s.Dealt e := by
  induction order generalizing s with
  | nil => simp [turnsOfRecover] at h
  | cons n order ih =>
      rw [turnsOfRecover] at h
      rcases List.mem_append.mp h with hmem | hmem
      · exact dealt_of_mem_turnsOfReturn hs hmem
      · have hdealt := ih (hs.recoverQueue n) hmem
        exact hdealt.congr fun id => (closed_recoverQueue hs id).mp

theorem dealt_of_mem_turnsOfRequeue (hs : s.Sound) {tag : Nat} {multiple : Bool}
    (h : e ∈ s.turnsOfRequeue name tag multiple) : s.Dealt e := by
  rw [turnsOfRequeue] at h
  split at h
  · cases hholder : s.holder? tag with
    | none => simp [hholder] at h
    | some found =>
        obtain ⟨n, q, owner⟩ := found
        obtain ⟨hq, -⟩ := holder?_eq_some hs.names hholder
        rw [hholder] at h
        exact dealt_of_mem_turnsIn h (hs.queue n q hq).fed
  · simp at h

/-! ## What gives a turn -/

/-- What a call has to be, and to find, to give a queue a turn. -/
def Gives (s : State β) (name : String) (c : Call β) : Turn → Prop
  | .opened settings => c = .declare settings ∧ settings.name = name ∧ s.queue? name = none
  | .joined r =>
    ∃ settings, c = .consume settings ∧ (s.consume settings).1 = .ok ⟨r.tag, name, r.stream⟩
  | .handed r => ∃ d, Entry.handed r d ∈ s.journalOf c ∧ d.routingKey = name
  | .swept r => s.streams.Closed r.stream
  | .cancelled r => c = .cancel name r.tag ∧ s.Registered name r
  | .stopped => c = .stop ∧ ∃ q, s.queue? name = some q

/-- Whoever is handed a message is so by the journal. -/
theorem handed_of_mem_turnsOf (hs : s.Sound) {c : Call β} {r : Registration}
    (h : .handed r ∈ s.turnsOf name c) : s.Gives name c (.handed r) := by
  have hreceives : r ∈ receiversOn name (s.journalOf c) := by
    rw [(recounts_perform hs name c).receivers]
    exact List.mem_filterMap.mpr ⟨.handed r, h, rfl⟩
  obtain ⟨entry, hentry, hreceiver⟩ := List.mem_filterMap.mp hreceives
  cases entry with
  | handed r' d =>
      rw [Entry.receiverOn?] at hreceiver
      split at hreceiver
      · next hkey =>
        obtain rfl := Option.some.inj hreceiver
        exact ⟨d, hentry, hkey⟩
      · simp at hreceiver
  | returned tag => simp [Entry.receiverOn?] at hreceiver
  | settled tag => simp [Entry.receiverOn?] at hreceiver

/-- Every turn of a call is given by it. -/
theorem given_of_mem_turnsOf (hs : s.Sound) {c : Call β} (h : e ∈ s.turnsOf name c) :
    s.Gives name c e := by
  have hgiven (hdealt : s.Dealt e) : s.Gives name c e := by
    rcases hdealt with ⟨r, rfl⟩ | ⟨r, rfl, hclosed⟩
    · exact handed_of_mem_turnsOf hs h
    · exact hclosed
  cases c with
  | start => simp [turnsOf] at h
  | stop =>
      rw [turnsOf] at h
      split at h
      · next hthere =>
        rw [Bool.and_eq_true, Option.isSome_iff_exists] at hthere
        obtain rfl := List.mem_singleton.mp h
        exact ⟨rfl, hthere.2⟩
      · simp at h
  | declare settings =>
      rw [turnsOf] at h
      split at h
      · next hfresh =>
        simp only [Bool.and_eq_true, Option.isNone_iff_eq_none, beq_iff_eq] at hfresh
        obtain ⟨⟨-, hnone⟩, rfl⟩ := hfresh
        obtain rfl := List.mem_singleton.mp h
        exact ⟨rfl, rfl, hnone⟩
      · simp at h
  | publish settings body =>
      apply hgiven
      rw [turnsOf] at h
      split at h
      · cases hq : s.queue? settings.routingKey with
        | none => simp [hq] at h
        | some q =>
            rw [hq] at h
            exact dealt_of_mem_turnsIn h (hs.queue _ q hq).fed
      · simp at h
  | consume settings =>
      rcases consume_cases s settings with ⟨e, n, heq⟩ | ⟨q, hconnected, hq, hadmits⟩
      · rw [turnsOf, heq] at h
        simp at h
      · have hanswer := congrArg Prod.fst (consume_admitted hconnected hq hadmits)
        rw [turnsOf, hanswer, hq] at h
        obtain ⟨rfl, hjoins | hdealt⟩ := mem_turnsIn h (hs.joined hq).fed
        · obtain rfl := List.mem_singleton.mp hjoins
          exact ⟨settings, rfl, hanswer⟩
        · exact hgiven (hdealt.congr fun _ => closed_of_withStream)
  | ack tag multiple => simp [turnsOf] at h
  | nack tag multiple requeue =>
      cases requeue with
      | true => exact hgiven (dealt_of_mem_turnsOfRequeue hs h)
      | false => simp [turnsOf] at h
  | recover order =>
      apply hgiven
      rw [turnsOf] at h
      split at h
      · exact dealt_of_mem_turnsOfRecover hs h
      · simp at h
  | receive c => simp [turnsOf] at h
  | close c => simp [turnsOf] at h
  | cancel n tag =>
      rw [turnsOf, turnsOfCancel] at h
      cases hq : s.queue? n with
      | none => simp [hq] at h
      | some q =>
          -- Whoever leaves by the call was registered, under its tag.
          have hleaves (hmem : e ∈ (q.consumers.filter (·.tag == tag)).map Turn.cancelled)
              (hname : n = name) : s.Gives name (.cancel n tag) e := by
            subst hname
            obtain ⟨r, hr, rfl⟩ := List.mem_map.mp hmem
            obtain ⟨hregistered, htag⟩ := List.mem_filter.mp hr
            obtain rfl := eq_of_beq htag
            exact ⟨rfl, q, hq, hregistered⟩
          rw [hq] at h
          dsimp only at h
          split at h
          · simp at h
          · split at h
            · split at h
              · next hname => exact hleaves h hname
              · simp at h
            · obtain ⟨hname, hmem | hdealt⟩ :=
                mem_turnsIn h ((hs.queue n q hq).without tag).fed
              · exact hleaves hmem hname
              · exact hgiven hdealt

/-- A turn of calls that are made one after the other is a turn of one of them. -/
theorem mem_turnsFrom {calls : List (Call β)} (h : e ∈ s.turnsFrom name calls) :
    ∃ before c after, calls = before ++ c :: after ∧ e ∈ (before.foldl perform s).turnsOf name c := by
  induction calls generalizing s with
  | nil => simp [turnsFrom] at h
  | cons c calls ih =>
      rw [turnsFrom] at h
      rcases List.mem_append.mp h with hmem | hmem
      · exact ⟨[], c, calls, rfl, hmem⟩
      · obtain ⟨before, c', after, rfl, hturn⟩ := ih hmem
        exact ⟨c :: before, c', after, rfl, hturn⟩

end State

open State

/-- Every turn of a run is given by one of its calls. -/
theorem given_of_mem_turns {calls : List (Call β)} {name : String} {e : Turn}
    (h : e ∈ turns name calls) :
    ∃ before c after, calls = before ++ c :: after ∧ (run before).Gives name c e := by
  obtain ⟨before, c, after, hcalls, hmem⟩ := mem_turnsFrom h
  exact ⟨before, c, after, hcalls, given_of_mem_turnsOf (run_sound before) hmem⟩

end Almanac.Broker
