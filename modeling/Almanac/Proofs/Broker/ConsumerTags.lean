/-
  Almanac.Proofs.Broker.ConsumerTags

  When the tags of a queue's consumers tell them apart. A consumer gets the tag that it asks for,
  if no other consumer of the queue has it, and a generated one otherwise; whether somebody has the
  generated one is not looked up. So a request can clash (`State.Clashes`): it is given a generated
  tag that a client has asked for before its turn came. Tags are different as long as no request
  clashes, and no longer (`TagsApart.perform`, `Clashes.notApart`), and none does unless a client
  asks for a tag that is yet to be generated (`Foresees`).

  While tags are different, the tag of a consumer stands for what was handed to that consumer
  and to nobody else (`TagsApart.owner_iff`). Two consumers of one tag are taken for one another:
  acknowledging with `multiple` and cancelling reach what the other one holds
  (`guessedTag_shared`).
-/
import Almanac.Proofs.Broker.Drained
import Almanac.Proofs.Broker.Recorded
import Almanac.Proofs.Broker.Registered
import Almanac.Proofs.Text.Decimal
import Mathlib

namespace Almanac.Broker

variable {β : Type}

/-- Generated tags of different numbers are different. -/
theorem generatedTag_inj {m n : Nat} (h : generatedTag m = generatedTag n) : m = n := by
  unfold generatedTag at h
  exact natText_inj (String.append_right_inj _ |>.mp h)

/-- The tags of the consumers of a queue. -/
def Queue.consumerTags (q : Queue β) : List String := q.consumers.map (·.tag)

/-- A new consumer gets the tag that it asks for, or else the generated one. -/
theorem Queue.tagFor_eq (q : Queue β) (wanted generated : String) :
    q.tagFor wanted generated =
      if wanted = "" ∨ wanted ∈ q.consumerTags then generated else wanted := by
  unfold tagFor
  have htaken : (q.consumers.any (·.tag == wanted)) = true ↔ wanted ∈ q.consumerTags := by
    simp [consumerTags]
  by_cases hwanted : wanted = "" ∨ wanted ∈ q.consumerTags
  · rw [if_pos hwanted, if_pos]
    rw [Bool.or_eq_true, htaken, String.isEmpty_iff]
    exact hwanted
  · rw [if_neg hwanted, if_neg]
    rw [Bool.or_eq_true, htaken, String.isEmpty_iff]
    exact hwanted

namespace State

variable {s : State β}

/-- The consumers of every queue have different tags. -/
def TagsApart (s : State β) : Prop := ∀ name q, s.queue? name = some q → q.consumerTags.Nodup

/-- A consumer is admitted and gets a generated tag that another consumer of the queue has. -/
def Clashes (s : State β) (settings : ConsumeSettings) : Prop :=
  s.connected = true ∧ ∃ q, s.queue? settings.queue = some q ∧ q.admits settings = true ∧
    (settings.consumer = "" ∨ settings.consumer ∈ q.consumerTags) ∧
    generatedTag (s.asked + 1) ∈ q.consumerTags

/-- The tag of a consumer that is admitted is taken when the request clashes. -/
theorem clashes_iff {settings : ConsumeSettings} {q : Queue β} (hconnected : s.connected = true)
    (hq : s.queue? settings.queue = some q) (hadmits : q.admits settings = true) :
    s.Clashes settings ↔ (s.registration q settings).tag ∈ q.consumerTags := by
  have htag : (s.registration q settings).tag =
      if settings.consumer = "" ∨ settings.consumer ∈ q.consumerTags
        then generatedTag (s.asked + 1) else settings.consumer :=
    q.tagFor_eq _ _
  rw [htag]
  constructor
  · rintro ⟨-, q', hq', -, hwanted, htaken⟩
    obtain rfl := Option.some.inj (hq.symm.trans hq')
    rwa [if_pos hwanted]
  · intro htaken
    by_cases hwanted : settings.consumer = "" ∨ settings.consumer ∈ q.consumerTags
    · rw [if_pos hwanted] at htaken
      exact ⟨hconnected, q, hq, hadmits, hwanted, htaken⟩
    · rw [if_neg hwanted] at htaken
      exact absurd (Or.inr htaken) hwanted

/-! ## Different tags -/

/-- No operation on a queue registers anybody. -/
theorem kept_nodup_consumerTags :
    Queue.Kept (fun q : Queue β => q.consumerTags.Nodup) fun q => q.consumerTags.Nodup where
  fresh _ := List.nodup_nil
  abandoned _ := List.nodup_nil
  discard _ _ hq := hq
  push _ _ hq := hq
  requeue _ _ hq := hq
  without _ _ hq := hq.sublist (List.filter_sublist.map _)
  dispatch d hd := hd.sublist (d.run_consumers_sublist.map _)

/-- A call that does not clash keeps tags different. -/
theorem TagsApart.perform (hs : s.TagsApart) (hsound : s.Sound) (c : Call β)
    (hclash : ∀ settings, c = .consume settings → ¬s.Clashes settings) :
    (s.perform c).TagsApart := by
  refine Each.perform kept_nodup_consumerTags hs hsound.names c ?_
  intro settings q hcall hconnected hq hadmits
  have hfree : (s.registration q settings).tag ∉ q.consumerTags := by
    intro htaken
    exact hclash settings hcall ((clashes_iff hconnected hq hadmits).mpr htaken)
  show (q.consumers ++ [s.registration q settings]).map (·.tag) |>.Nodup
  rw [List.map_append, List.nodup_append]
  refine ⟨hs _ q hq, List.nodup_singleton _, ?_⟩
  rintro tag htag _ hnew rfl
  rw [List.map_singleton, List.mem_singleton] at hnew
  exact hfree (hnew ▸ htag)

/-- A request that clashes leaves two consumers with one tag: nothing waits on a queue with a
    consumer, so that nobody is swept out. -/
theorem Clashes.notApart {settings : ConsumeSettings} (h : s.Clashes settings)
    (hdrained : s.Drained) : ¬(s.consume settings).2.TagsApart := by
  obtain ⟨hconnected, q, hq, hadmits, -, htaken⟩ := id h
  have htag := (clashes_iff hconnected hq hadmits).mp h
  have hready : q.ready = [] := by
    refine hdrained _ q hq ?_
    intro hnobody
    simp [Queue.consumerTags, hnobody] at htaken
  rw [consume_admitted hconnected hq hadmits]
  intro hapart
  have hnodup := hapart settings.queue _ (by rw [queue?_deliver, if_pos rfl])
  rw [Dispatching.run_of_finished (Or.inl hready)] at hnodup
  have hboth : (q.consumerTags ++ [(s.registration q settings).tag]).Nodup := by
    simpa [dispatching, Queue.consumerTags] using hnodup
  rw [List.nodup_append] at hboth
  exact hboth.2.2 _ htag _ (List.mem_singleton.mpr rfl) rfl

/-! ## Generated tags -/

/-- A client asks for a tag that is yet to be generated. -/
def Foresees (s : State β) (settings : ConsumeSettings) : Prop :=
  ∃ n, s.asked + 1 < n ∧ settings.consumer = generatedTag n

/-- Registered tags that could have been generated could have been so by now. -/
def Dated (s : State β) : Prop :=
  ∀ name r n, s.Registered name r → r.tag = generatedTag n → n ≤ s.asked

theorem asked_consume (s : State β) (settings : ConsumeSettings) :
    (s.consume settings).2.asked = if s.connected then s.asked + 1 else s.asked := by
  rw [consume_eq]
  cases hconnected : s.connected
  · rfl
  · simp only [Bool.not_true, Bool.false_eq_true, if_false, if_true]
    split
    · rfl
    · split <;> rfl

/-- Requests are only counted up. -/
theorem asked_le (hs : s.Sound) (c : Call β) : s.asked ≤ (s.perform c).asked := by
  have heffect := effect_perform hs.names c
  generalize s.perform c = s' at heffect ⊢
  cases heffect with
  | @refused settings e n hanswer =>
      have hasked := s.asked_consume settings
      rw [hanswer] at hasked
      have hn : n = if s.connected then s.asked + 1 else s.asked := hasked
      show s.asked ≤ n
      split at hn <;> omega
  | consumed => exact Nat.le_succ _
  | recovered =>
      exact recoverIn_induction (P := fun e => s.asked ≤ e.asked) (fun _ _ _ _ h => h) _
        (Nat.le_refl _)
  | idle => exact Nat.le_refl _
  | started => exact Nat.le_refl _
  | stopped => exact Nat.le_refl _
  | declared => exact Nat.le_refl _
  | published => exact Nat.le_refl _
  | discarded => exact Nat.le_refl _
  | returned => exact Nat.le_refl _
  | received => exact Nat.le_refl _
  | closed => exact Nat.le_refl _
  | removed => exact Nat.le_refl _
  | cancelled => exact Nat.le_refl _

theorem Dated.perform (hs : s.Dated) (hsound : s.Sound) (c : Call β)
    (hunforeseen : ∀ settings, c = .consume settings → ¬s.Foresees settings) :
    (s.perform c).Dated := by
  intro name r n hr htag
  rcases registered_perform hsound hr with
    hold | ⟨settings, q, rfl, rfl, hq, rfl, hanswer⟩
  · exact Nat.le_trans (hs name r n hold htag) (asked_le hsound c)
  · have hconnected : s.connected = true := by
      by_contra hclosed
      rw [consume_eq, if_pos (by simpa using hclosed)] at hanswer
      simp at hanswer
    have hasked : (s.perform (.consume settings)).asked = s.asked + 1 := by
      rw [State.perform, asked_consume, if_pos hconnected]
    rw [hasked]
    have htagFor : (s.registration q settings).tag =
        if settings.consumer = "" ∨ settings.consumer ∈ q.consumerTags
          then generatedTag (s.asked + 1) else settings.consumer :=
      q.tagFor_eq _ _
    rw [htagFor] at htag
    split at htag
    · exact Nat.le_of_eq (generatedTag_inj htag).symm
    · by_contra hlate
      exact hunforeseen settings rfl ⟨n, by omega, htag⟩

/-- The next generated tag is free as long as tags are dated. -/
theorem Dated.not_clashes (hs : s.Dated) (settings : ConsumeSettings) : ¬s.Clashes settings := by
  rintro ⟨-, q, hq, -, -, htaken⟩
  obtain ⟨r, hr, htag⟩ := List.mem_map.mp htaken
  have hle := hs settings.queue r (s.asked + 1) ⟨q, hq, hr⟩ htag
  omega

end State

/-! ## Consumer tags of a run -/

open State

variable {calls : List (Call β)}

/-- The tags of a run are different at every point of it when none of its requests clashes. -/
theorem tagsApart_iff (calls : List (Call β)) :
    (∀ before after, calls = before ++ after → (run before).TagsApart) ↔
      ∀ before settings after, calls = before ++ .consume settings :: after →
        ¬(run before).Clashes settings := by
  constructor
  · intro hapart before settings after hcalls hclash
    refine hclash.notApart (run_drained before) ?_
    have hnext := hapart (before ++ [.consume settings]) after (by simp [hcalls])
    rwa [run_concat] at hnext
  · intro hclash before
    induction before using List.reverseRecOn with
    | nil =>
        intro after _
        exact Each.fresh
    | append_singleton before c ih =>
        intro after hcalls
        rw [run_concat]
        refine (ih (c :: after) (by simp [hcalls])).perform (run_sound before) c ?_
        rintro settings rfl
        exact hclash before settings after (by simp [hcalls])

/-- Before any request that is foreseen, tags are dated. -/
theorem run_dated (hunforeseen : ∀ before settings after,
      calls = before ++ .consume settings :: after → ¬(run before).Foresees settings)
    {before after : List (Call β)} (hcalls : calls = before ++ after) : (run before).Dated := by
  induction before using List.reverseRecOn generalizing after with
  | nil =>
      rintro name r n ⟨q, hq, -⟩
      simp [queue?] at hq
  | append_singleton before c ih =>
      have hearlier : calls = before ++ c :: after := by simp [hcalls]
      rw [run_concat]
      refine (ih hearlier).perform (run_sound before) c ?_
      rintro settings rfl
      exact hunforeseen before settings after (by simp [hcalls])

/-- The delivery of a tag was handed to a consumer and to nobody else. -/
def HandedOnly (l : List (Entry β)) (c : Registration) (t : Nat) : Prop :=
  Hands l c t ∧ ∀ c', Hands l c' t → c' = c

/-- While tags are different, a delivery is owned by the tag of the consumer that it was handed
    to. -/
theorem State.TagsApart.owner_iff (hapart : (run calls).TagsApart) {name : String} {q : Queue β}
    (hq : (run calls).queue? name = some q) {c : Registration} (hc : c ∈ q.consumers)
    {e : Nat × Unacked β} (he : e ∈ q.unacked) :
    e.2.owner = c.tag ↔ HandedOnly (journal calls) c e.1 := by
  obtain ⟨c', hc', htag, hhands⟩ := run_ownedIn calls name q hq e he
  have hascending := (tells_run calls).tags.ascending
  constructor
  · intro howner
    obtain rfl : c' = c :=
      List.inj_on_of_nodup_map (hapart name q hq) hc' hc (htag.trans howner)
    exact ⟨hhands, fun c'' hc'' => hhands.unique hascending hc''⟩
  · rintro ⟨-, honly⟩
    rw [← honly c' hhands]
    exact htag.symm

/-- Consumer tags at every point of every run. The tags of the consumers of one queue are
    different throughout a run exactly if no request clashes, and none does if no client asks for
    a tag that is yet to be generated. While they are different, what is unsettled under the tag of
    a consumer is what was handed to that consumer and to no other; a settlement with `multiple`,
    a cancellation and the loss of a consumer go by this tag. -/
theorem consumer_tags_apart (calls : List (Call β)) :
    ((∀ before after, calls = before ++ after → (run before).TagsApart) ↔
      ∀ before settings after, calls = before ++ .consume settings :: after →
        ¬(run before).Clashes settings) ∧
    ((∀ before settings after, calls = before ++ .consume settings :: after →
        ¬(run before).Foresees settings) →
      ∀ before after, calls = before ++ after → (run before).TagsApart) ∧
    ((run calls).TagsApart → ∀ name q, (run calls).queue? name = some q →
      ∀ c ∈ q.consumers, ∀ e ∈ q.unacked,
        (e.2.owner = c.tag ↔ HandedOnly (journal calls) c e.1)) := by
  refine ⟨tagsApart_iff calls, ?_, ?_⟩
  · intro hunforeseen
    apply (tagsApart_iff calls).mpr
    intro before settings after hcalls
    exact (run_dated hunforeseen hcalls).not_clashes settings
  · intro hapart name q hq c hc e he
    exact hapart.owner_iff hq hc he

/-- A client asks for a generated tag before its turn; the next consumer is given it too. Each of
    the two is handed a message. -/
def guessedTag : List (Call String) :=
  [.start, .declare { name := "q" }, .consume { queue := "q", consumer := "ctag-2" },
    .consume { queue := "q", consumer := "" }, .publish { routingKey := "q" } "m",
    .publish { routingKey := "q" } "n"]

/-- The two consumers have one tag. When the second one acknowledges its own delivery and what came
    before it, the delivery of the first one is settled as well; and when one of them is cancelled,
    both are. -/
theorem guessedTag_shared :
    ¬(run guessedTag).TagsApart ∧
      Hands (journal guessedTag) ⟨"ctag-2", false, false, 0⟩ 1 ∧
      Hands (journal guessedTag) ⟨"ctag-2", false, false, 1⟩ 2 ∧
      (run guessedTag).unsettledTags = [1, 2] ∧
      ((run guessedTag).ack 2 true).2.unsettledTags = [] ∧
      ¬∃ r, ((run guessedTag).cancel "q" "ctag-2").Registered "q" r := by
  have hq : (run guessedTag).queue? "q" =
      some { settings := { name := "q" }, ready := [],
             consumers := [⟨"ctag-2", false, false, 0⟩, ⟨"ctag-2", false, false, 1⟩], cursor := 2,
             unacked := [(1, ⟨"ctag-2", ⟨"m", "application/json", "q", false⟩⟩),
               (2, ⟨"ctag-2", ⟨"n", "application/json", "q", false⟩⟩)] } := by cbv
  have hjournal : journal guessedTag =
      [.handed ⟨"ctag-2", false, false, 0⟩ ⟨⟨"m", "application/json", "q", false⟩, 1⟩,
        .handed ⟨"ctag-2", false, false, 1⟩ ⟨⟨"n", "application/json", "q", false⟩, 2⟩] := by cbv
  have hafter : ((run guessedTag).cancel "q" "ctag-2").queue? "q" =
      some { settings := { name := "q" },
             ready := [⟨"m", "application/json", "q", true⟩, ⟨"n", "application/json", "q", true⟩],
             consumers := [], cursor := 2, unacked := [] } := by cbv
  refine ⟨?_, ?_, ?_, by cbv, by cbv, ?_⟩
  · intro hapart
    have hnodup := hapart "q" _ hq
    simp [Queue.consumerTags] at hnodup
  · rw [hjournal]
    exact ⟨_, List.mem_cons_self, rfl⟩
  · rw [hjournal]
    exact ⟨_, List.mem_cons_of_mem _ List.mem_cons_self, rfl⟩
  · rintro ⟨r, q, hq', hr⟩
    obtain rfl := Option.some.inj (hafter.symm.trans hq')
    simp at hr

/-- No tag, a generated one that is taken, and one tag twice. -/
def repeatedTags : List (Call String) :=
  [.start, .declare { name := "q" }, .consume { queue := "q", consumer := "" },
    .consume { queue := "q", consumer := "ctag-1" }, .consume { queue := "q", consumer := "t" },
    .consume { queue := "q", consumer := "t" }, .publish { routingKey := "q" } "m",
    .publish { routingKey := "q" } "n"]

/-- All four consumers can be told apart: what is unsettled under the tag of the first one was
    handed to it alone. -/
theorem repeatedTags_apart :
    ∃ q, (run repeatedTags).queue? "q" = some q ∧
      q.consumerTags = ["ctag-1", "ctag-2", "t", "ctag-4"] ∧
      HandedOnly (journal repeatedTags) ⟨"ctag-1", false, false, 0⟩ 1 := by
  have hq : (run repeatedTags).queue? "q" =
      some { settings := { name := "q" }, ready := [],
             consumers := [⟨"ctag-1", false, false, 0⟩, ⟨"ctag-2", false, false, 1⟩,
               ⟨"t", false, false, 2⟩, ⟨"ctag-4", false, false, 3⟩],
             cursor := 2,
             unacked := [(1, ⟨"ctag-1", ⟨"m", "application/json", "q", false⟩⟩),
               (2, ⟨"ctag-2", ⟨"n", "application/json", "q", false⟩⟩)] } := by cbv
  have hkeys : (run repeatedTags).queues.keys = ["q"] := by cbv
  have hapart : (run repeatedTags).TagsApart := by
    intro name r hr
    have hname : name ∈ (run repeatedTags).queues.keys :=
      List.mem_map.mpr ⟨(name, r), Table.mem_of_get? hr, rfl⟩
    rw [hkeys, List.mem_singleton] at hname
    subst hname
    obtain rfl := Option.some.inj (hq.symm.trans hr)
    decide
  obtain ⟨-, -, hown⟩ := consumer_tags_apart repeatedTags
  refine ⟨_, hq, rfl, ?_⟩
  exact (hown hapart "q" _ hq ⟨"ctag-1", false, false, 0⟩ List.mem_cons_self
    (1, ⟨"ctag-1", ⟨"m", "application/json", "q", false⟩⟩) List.mem_cons_self).mp rfl

end Almanac.Broker
