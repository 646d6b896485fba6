/-
  Almanac.Proofs.Broker.Turns

  The turns of a queue, in the order in which they come. `Dispatching.turns` writes down the rounds
  of one dispatch, `State.turnsOf` one call, and `turns` a run.

  A dispatch goes through the rotation of its queue (`Dispatching.shows_run`), and whoever is handed
  a message by its turns is so by its journal (`Dispatching.receiversOn_journal`).
-/
import Almanac.Proofs.Broker.Recorded
import Almanac.Proofs.Broker.Rotation

namespace Almanac.Broker

variable {β : Type}

/-! ## Who is handed a message -/

/-- The consumer to which an entry hands a message of the queue of a name. -/
def Entry.receiverOn? (name : String) : Entry β → Option Registration
  | handed consumer d => if d.routingKey = name then some consumer else none
  | _ => none

/-- The consumers to which a journal hands messages of the queue of a name. -/
def receiversOn (name : String) (l : List (Entry β)) : List Registration :=
  l.filterMap (Entry.receiverOn? name)

theorem receiversOn_append (name : String) (l l' : List (Entry β)) :
    receiversOn name (l ++ l') = receiversOn name l ++ receiversOn name l' :=
  List.filterMap_append

@[simp] theorem receiversOn_returned (name : String) (gone : List Nat) :
    receiversOn name (gone.map Entry.returned : List (Entry β)) = [] := by
  simp [receiversOn, List.filterMap_map, Function.comp_def, Entry.receiverOn?]

@[simp] theorem receiversOn_settled (name : String) (gone : List Nat) :
    receiversOn name (gone.map Entry.settled : List (Entry β)) = [] := by
  simp [receiversOn, List.filterMap_map, Function.comp_def, Entry.receiverOn?]

/-! ## One dispatch -/

/-- A rotation is that of a queue. -/
structure Queue.Shows (q : Queue β) (t : Rotation) : Prop where
  settings : t.settings = some q.settings
  row : t.row = q.consumers
  cursor : t.cursor = q.cursor

/-- The messages of the queue do not matter. -/
theorem Queue.Shows.congr {q r : Queue β} {t : Rotation} (h : q.Shows t)
    (hsettings : r.settings = q.settings) (hconsumers : r.consumers = q.consumers)
    (hcursor : r.cursor = q.cursor) : r.Shows t where
  settings := by
    rw [hsettings]
    exact h.settings
  row := h.row.trans hconsumers.symm
  cursor := h.cursor.trans hcursor.symm

namespace Dispatching

/-- The turn of the next round of a dispatch, and the dispatch after it. -/
def turn? (d : Dispatching β) : Option (Turn × Dispatching β) :=
  match d.queue.ready with
  | [] => none
  | message :: ready =>
    let index := d.queue.cursor % d.queue.consumers.length
    match d.queue.consumers[index]? with
    | none => none
    | some consumer =>
      match d.streams.offer consumer.stream { message with tag := d.lastTag + 1 } with
      | none => some (.swept consumer, ⟨d.lastTag + 1, d.streams, d.afterLoss index consumer⟩)
      | some streams =>
        some (.handed consumer,
          ⟨d.lastTag + 1, streams, d.afterHandOut index consumer message ready⟩)

variable {d e : Dispatching β}

theorem turn?_of_finished (h : d.Finished) : d.turn? = none := by
  rcases h with hready | hnobody
  · simp [turn?, hready]
  · unfold turn?
    split
    · rfl
    · simp [hnobody]

theorem turn?_of_lost {message : Message β} {ready : List (Message β)} {index : Nat}
    {consumer : Registration} (hready : d.queue.ready = message :: ready)
    (hindex : index = d.queue.cursor % d.queue.consumers.length)
    (hconsumer : d.queue.consumers[index]? = some consumer)
    (hclosed : d.streams.offer consumer.stream { message with tag := d.lastTag + 1 } = none) :
    d.turn? = some (.swept consumer, ⟨d.lastTag + 1, d.streams, d.afterLoss index consumer⟩) := by
  subst hindex
  simp only [turn?, hready, hconsumer, hclosed]

theorem turn?_of_handed {message : Message β} {ready : List (Message β)} {index : Nat}
    {consumer : Registration} {streams : Streams β} (hready : d.queue.ready = message :: ready)
    (hindex : index = d.queue.cursor % d.queue.consumers.length)
    (hconsumer : d.queue.consumers[index]? = some consumer)
    (hoffer : d.streams.offer consumer.stream { message with tag := d.lastTag + 1 } =
      some streams) :
    d.turn? = some (.handed consumer,
      ⟨d.lastTag + 1, streams, d.afterHandOut index consumer message ready⟩) := by
  subst hindex
  simp only [turn?, hready, hconsumer, hoffer]

/-- Every turn is a round. -/
theorem round_of_turn? {turn : Turn} (h : d.turn? = some (turn, e)) : Round d e := by
  rcases run_cases d with ⟨hfin, -⟩ | ⟨f, hround, -⟩
  · rw [turn?_of_finished hfin] at h
    simp at h
  · cases hround with
    | lost hready hindex hconsumer hclosed =>
        rw [turn?_of_lost hready hindex hconsumer hclosed] at h
        obtain ⟨-, rfl⟩ := Prod.mk.inj (Option.some.inj h)
        exact .lost hready hindex hconsumer hclosed
    | handed hready hindex hconsumer hoffer =>
        rw [turn?_of_handed hready hindex hconsumer hoffer] at h
        obtain ⟨-, rfl⟩ := Prod.mk.inj (Option.some.inj h)
        exact .handed hready hindex hconsumer hoffer

/-- The turns of a dispatch. -/
def turns (d : Dispatching β) : List Turn :=
  match _h : d.turn? with
  | none => []
  | some (turn, e) => turn :: e.turns
termination_by (d.queue.consumers.length, d.queue.ready.length)
decreasing_by
  rcases (round_of_turn? _h).decreases with h | ⟨h, h'⟩
  · exact Prod.Lex.left _ _ h
  · rw [h]
    exact Prod.Lex.right _ h'

theorem turns_of_none (h : d.turn? = none) : d.turns = [] := by
  rw [turns]
  split
  · rfl
  · next turn e hsome => simp [h] at hsome

theorem turns_of_some {turn : Turn} (h : d.turn? = some (turn, e)) : d.turns = turn :: e.turns := by
  rw [turns]
  split
  · next hnone => simp [h] at hnone
  · next turn' e' hsome =>
    obtain ⟨rfl, rfl⟩ := Prod.mk.inj (Option.some.inj (h.symm.trans hsome))
    rfl

/-- The consumer at the turn of the queue is the one at the turn of its rotation. -/
theorem next?_of_shows {t : Rotation} (h : d.queue.Shows t) {index : Nat} {consumer : Registration}
    (hindex : index = d.queue.cursor % d.queue.consumers.length)
    (hconsumer : d.queue.consumers[index]? = some consumer) : t.next? = some consumer := by
  rw [Rotation.next?, h.row, h.cursor, ← hindex, hconsumer]

/-- A dispatch goes through the rotation of its queue. -/
theorem shows_run {t : Rotation} (ht : t.Sound) (h : d.queue.Shows t) :
    t.Follows d.turns ∧ d.run.queue.Shows (t.after d.turns) ∧
      (t.after d.turns).streams = t.streams := by
  induction d using run_induction generalizing t with
  | finished d hfin hrun =>
      rw [turns_of_none (turn?_of_finished hfin), hrun]
      exact ⟨trivial, h, rfl⟩
  | round d e hround hrun ih =>
      rw [hrun]
      cases hround with
      | @lost message ready index consumer hready hindex hconsumer hclosed =>
          rw [turns_of_some (turn?_of_lost hready hindex hconsumer hclosed)]
          have hnext := next?_of_shows h hindex hconsumer
          have hplace : t.row.idxOf consumer = index := by
            have hcursor := Rotation.pass_cursor ht hnext
            rw [h.row, h.cursor, ← hindex] at hcursor
            exact Nat.succ.inj hcursor
          have hturn : (d.afterLoss index consumer).Shows (t.apply (.swept consumer)) := by
            refine ⟨h.settings, ?_, ?_⟩
            · show t.row.erase consumer = d.queue.consumers.eraseIdx index
              rw [← h.row, List.erase_eq_eraseIdx_of_idxOf hplace]
            · exact congrArg (· + 1) hplace
          have hallows : t.Allows (.swept consumer) := hnext
          obtain ⟨hfollows, hshows, hstreams⟩ := ih (ht.apply hallows) hturn
          exact ⟨⟨hallows, hfollows⟩, hshows, hstreams⟩
      | @handed message ready index consumer streams hready hindex hconsumer hoffer =>
          rw [turns_of_some (turn?_of_handed hready hindex hconsumer hoffer)]
          have hnext := next?_of_shows h hindex hconsumer
          have hturn : (d.afterHandOut index consumer message ready).Shows
              (t.apply (.handed consumer)) := by
            refine ⟨h.settings, h.row, ?_⟩
            have hcursor := Rotation.pass_cursor ht hnext
            rwa [h.row, h.cursor, ← hindex] at hcursor
          have hallows : t.Allows (.handed consumer) := hnext
          obtain ⟨hfollows, hshows, hstreams⟩ := ih (ht.apply hallows) hturn
          exact ⟨⟨hallows, hfollows⟩, hshows, hstreams⟩

/-- A dispatch hands messages of its own queue, in turn. -/
theorem receiversOn_journal {n : String} (name : String)
    (h : d.queue.Sound n d.lastTag d.streams.length) :
    receiversOn name d.journal = if n = name then d.turns.filterMap Turn.handed? else [] := by
  induction d using run_induction with
  | finished d hfin hrun =>
      rw [journal_of_finished hfin, turns_of_none (turn?_of_finished hfin)]
      simp [receiversOn]
  | round d e hround hrun ih =>
      have hrest := ih (hround.sound h)
      cases hround with
      | @lost message ready index consumer hready hindex hconsumer hclosed =>
          rw [journal_of_lost hready hindex hconsumer hclosed, receiversOn_append,
            receiversOn_returned, List.nil_append, hrest,
            turns_of_some (turn?_of_lost hready hindex hconsumer hclosed)]
          rfl
      | @handed message ready index consumer streams hready hindex hconsumer hoffer =>
          have hkey : message.routingKey = n := by
            refine h.keyed message.label ?_
            simp [Queue.labels, Queue.readyLabels, hready]
          rw [journal_of_handed hready hindex hconsumer hoffer, receiversOn, List.filterMap_cons,
            turns_of_some (turn?_of_handed hready hindex hconsumer hoffer)]
          simp only [Entry.receiverOn?, hkey, List.filterMap_cons, Turn.handed?]
          rw [receiversOn] at hrest
          by_cases hname : n = name
          · simp only [if_pos hname] at hrest ⊢
            rw [hrest]
          · simp only [if_neg hname] at hrest ⊢
            rw [hrest]

end Dispatching

/-! ## The turns of a call -/

namespace State

/-- The turns of a queue when a queue is dispatched, after some turns that are not part of it. -/
def turnsIn (s : State β) (name n : String) (before : List Turn) (r : Queue β) : List Turn :=
  if n = name then before ++ (s.dispatching r).turns else []

/-- The turns when settling a tag returns deliveries. -/
def turnsOfRequeue (s : State β) (name : String) (tag : Nat) (multiple : Bool) : List Turn :=
  if s.connected then
    match s.holder? tag with
    | none => []
    | some (n, q, owner) => s.turnsIn name n [] (q.requeueIf (covers tag multiple owner))
  else []

/-- The turns when everything that is unsettled in one queue is returned. -/
def turnsOfReturn (s : State β) (name n : String) : List Turn :=
  match s.queue? n with
  | none => []
  | some q => s.turnsIn name n [] (q.requeueIf fun _ _ => true)

/-- The turns when everything is returned, one queue after the other. -/
def turnsOfRecover (s : State β) (name : String) : List String → List Turn
  | [] => []
  | n :: order => s.turnsOfReturn name n ++ (s.recoverQueue n).turnsOfRecover name order

/-- The turns when the registrations of a tag end. -/
def turnsOfCancel (s : State β) (name n tag : String) : List Turn :=
  match s.queue? n with
  | none => []
  | some q =>
    let gone := (q.consumers.filter (·.tag == tag)).map Turn.cancelled
    if (q.without tag).consumers.length == q.consumers.length then []
    else if (q.without tag).consumers.isEmpty && q.settings.autoDelete then
      if n = name then gone else []
    else s.turnsIn name n gone (q.without tag)

/-- The turns of the queue of a name in a call. -/
def turnsOf (s : State β) (name : String) : Call β → List Turn
  | .stop => if s.connected && (s.queue? name).isSome then [.stopped] else []
  | .declare settings =>
    if s.connected && (s.queue? settings.name).isNone && settings.name == name then
      [.opened settings]
    else []
  | .publish settings body =>
    if s.routes settings then
      match s.queue? settings.routingKey with
      | none => []
      | some q =>
        s.turnsIn name settings.routingKey [] { q with ready := q.ready ++ [message settings body] }
    else []
  | .consume settings =>
    match (s.consume settings).1, s.queue? settings.queue with
    | .ok _, some q =>
      s.withStream.turnsIn name settings.queue [.joined (s.registration q settings)]
        { q with consumers := q.consumers ++ [s.registration q settings] }
    | _, _ => []
  | .nack tag multiple true => s.turnsOfRequeue name tag multiple
  | .recover order => if s.connected then s.turnsOfRecover name order else []
  | .cancel n tag => s.turnsOfCancel name n tag
  | _ => []

/-- The turns of the queue of a name in calls that are made one after the other. -/
def turnsFrom (s : State β) (name : String) : List (Call β) → List Turn
  | [] => []
  | c :: calls => s.turnsOf name c ++ (s.perform c).turnsFrom name calls

theorem turnsFrom_append (s : State β) (name : String) (calls after : List (Call β)) :
    s.turnsFrom name (calls ++ after) =
      s.turnsFrom name calls ++ (calls.foldl perform s).turnsFrom name after := by
  induction calls generalizing s with
  | nil => rfl
  | cons c calls ih =>
      rw [List.cons_append, turnsFrom, turnsFrom, ih, List.append_assoc]
      rfl

end State

/-- The turns of the queue of a name in a run from a fresh broker. -/
def turns (name : String) (calls : List (Call β)) : List Turn :=
  ({} : State β).turnsFrom name calls

theorem turns_append (name : String) (calls after : List (Call β)) :
    turns name (calls ++ after) = turns name calls ++ (State.run calls).turnsFrom name after :=
  State.turnsFrom_append _ _ _ _

end Almanac.Broker
