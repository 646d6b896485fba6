/-
  Almanac.Proofs.Broker.Rotation

  The consumers of one queue, apart from everything else in the broker. A `Turn` is one thing that
  happens to them: the queue is declared, a consumer joins, it is handed a message, it is swept out
  by a dispatch or leaves by a cancellation, or the broker stops. A `Rotation` is what these leave
  behind: what the queue was declared with, who stands in the row, and where the cursor is.

  `Allows` says which turns can come next. By them nobody stands in the row twice (`Sound.apply`),
  and whoever has left does not come back (`notMem_after`).
-/
import Almanac.Broker.Queue
import Mathlib.Data.List.Nodup

namespace Almanac.Broker

/-- What can happen to the consumers of a queue. -/
inductive Turn
  | opened (settings : QueueSettings)
  | joined (r : Registration)
  | handed (r : Registration)
  /-- A dispatch finds the stream of the consumer closed. -/
  | swept (r : Registration)
  | cancelled (r : Registration)
  | stopped
deriving DecidableEq

/-- The consumer that gets a message by a turn. -/
def Turn.handed? : Turn → Option Registration
  | handed r => some r
  | _ => none

/-- What a queue is by its turns. -/
structure Rotation where
  /-- What the queue was declared with, if it is there. -/
  settings : Option QueueSettings := none
  row : List Registration := []
  cursor : Nat := 0
  /-- All consumers so far have smaller streams. -/
  streams : Nat := 0

namespace Rotation

/-- The consumer whose turn is next. -/
def next? (t : Rotation) : Option Registration := t.row[t.cursor % t.row.length]?

/-- The cursor goes behind a consumer. -/
def pass (t : Rotation) (r : Registration) : Rotation := { t with cursor := t.row.idxOf r + 1 }

/-- A consumer leaves the row, and the cursor stays. -/
def leave (t : Rotation) (r : Registration) : Rotation := { t with row := t.row.erase r }

/-- A queue without consumers goes, if it removes itself. -/
def expire (t : Rotation) : Rotation :=
  { t with settings := if t.row = [] then t.settings.filter (!·.autoDelete) else t.settings }

def apply (t : Rotation) : Turn → Rotation
  | .opened settings => { t with settings := some settings, row := [], cursor := 0 }
  | .joined r => { t with row := t.row ++ [r], streams := r.stream + 1 }
  | .handed r => t.pass r
  | .swept r => (t.pass r).leave r
  | .cancelled r => (t.leave r).expire
  | .stopped => { t with settings := t.settings.filter (·.durable), row := [] }

/-- Which turns can come next. -/
def Allows (t : Rotation) : Turn → Prop
  | .opened _ => t.settings = none
  | .joined r => t.settings.isSome = true ∧ t.streams ≤ r.stream
  | .handed r => t.next? = some r
  | .swept r => t.next? = some r
  | .cancelled r => r ∈ t.row
  | .stopped => t.settings.isSome = true

/-- After some turns. -/
def after (t : Rotation) (turns : List Turn) : Rotation := turns.foldl apply t

/-- After all turns so far, from before the queue was declared for the first time. -/
def of (turns : List Turn) : Rotation := ({} : Rotation).after turns

/-- Each of the turns can come when it comes. -/
def Follows (t : Rotation) : List Turn → Prop
  | [] => True
  | e :: turns => t.Allows e ∧ (t.apply e).Follows turns

variable {t : Rotation} {e : Turn} {turns turns' : List Turn}

@[simp] theorem after_nil (t : Rotation) : t.after [] = t := rfl

@[simp] theorem after_cons (t : Rotation) (e : Turn) (turns : List Turn) :
    t.after (e :: turns) = (t.apply e).after turns := rfl

theorem after_append (t : Rotation) (turns turns' : List Turn) :
    t.after (turns ++ turns') = (t.after turns).after turns' :=
  List.foldl_append

theorem follows_append :
    t.Follows (turns ++ turns') ↔ t.Follows turns ∧ (t.after turns).Follows turns' := by
  induction turns generalizing t with
  | nil => simp [Follows]
  | cons e turns ih => rw [List.cons_append, Follows, Follows, ih, after_cons, and_assoc]

/-! ## What every turn keeps -/

/-- Nobody stands in the row twice, and everybody in it has come already. -/
structure Sound (t : Rotation) : Prop where
  nodup : t.row.Nodup
  known : ∀ r ∈ t.row, r.stream < t.streams

theorem Sound.fresh : ({} : Rotation).Sound where
  nodup := List.nodup_nil
  known r hr := by simp at hr

/-- A turn that can come leaves nobody twice in the row. -/
theorem Sound.apply (ht : t.Sound) (hallows : t.Allows e) : (t.apply e).Sound := by
  cases e with
  | opened settings => exact ⟨List.nodup_nil, fun r hr => by simp [Rotation.apply] at hr⟩
  | joined r =>
      obtain ⟨-, hnew⟩ := hallows
      have hnot : r ∉ t.row := by
        intro hr
        have := ht.known r hr
        omega
      refine ⟨List.nodup_append_comm.mp (List.nodup_cons.mpr ⟨hnot, ht.nodup⟩), fun r' hr' => ?_⟩
      show r'.stream < r.stream + 1
      rcases List.mem_append.mp hr' with hold | hlast
      · have := ht.known r' hold
        omega
      · rw [List.mem_singleton.mp hlast]
        exact Nat.lt_succ_self _
  | handed r => exact ⟨ht.nodup, ht.known⟩
  | swept r => exact ⟨ht.nodup.erase r, fun r' hr' => ht.known r' (List.mem_of_mem_erase hr')⟩
  | cancelled r => exact ⟨ht.nodup.erase r, fun r' hr' => ht.known r' (List.mem_of_mem_erase hr')⟩
  | stopped => exact ⟨List.nodup_nil, fun r hr => by simp [Rotation.apply] at hr⟩

theorem Sound.after (ht : t.Sound) (hfollows : t.Follows turns) : (t.after turns).Sound := by
  induction turns generalizing t with
  | nil => exact ht
  | cons e turns ih => exact ih (ht.apply hfollows.1) hfollows.2

theorem streams_le (hallows : t.Allows e) : t.streams ≤ (t.apply e).streams := by
  cases e with
  | joined r => exact Nat.le_succ_of_le hallows.2
  | _ => exact Nat.le_refl _

/-- Who was there and has left does not come back: whoever joins is new. -/
theorem notMem_apply {x : Registration} (hknown : x.stream < t.streams) (hx : x ∉ t.row)
    (hallows : t.Allows e) : x ∉ (t.apply e).row := by
  cases e with
  | opened settings => simp [Rotation.apply]
  | joined r =>
      obtain ⟨-, hnew⟩ := hallows
      have hother : x ≠ r := by
        rintro rfl
        omega
      simpa [Rotation.apply, hother] using hx
  | handed r => exact hx
  | swept r => exact fun h => hx (List.mem_of_mem_erase h)
  | cancelled r => exact fun h => hx (List.mem_of_mem_erase h)
  | stopped => simp [Rotation.apply]

theorem notMem_after {x : Registration} (hknown : x.stream < t.streams) (hx : x ∉ t.row)
    (hfollows : t.Follows turns) : x ∉ (t.after turns).row := by
  induction turns generalizing t with
  | nil => exact hx
  | cons e turns ih =>
      have hle := streams_le hfollows.1
      exact ih (by omega) (notMem_apply hknown hx hfollows.1) hfollows.2

/-- A consumer stands behind those in front of it. -/
theorem Sound.idxOf_eq (ht : t.Sound) {front back : List Registration} {x : Registration}
    (hrow : t.row = front ++ x :: back) : t.row.idxOf x = front.length := by
  have hnodup := ht.nodup
  rw [hrow] at hnodup ⊢
  have hnot : x ∉ front := fun h => List.disjoint_of_nodup_append hnodup h List.mem_cons_self
  rw [List.idxOf_append_of_notMem hnot, List.idxOf_cons_self, Nat.add_zero]

/-- The consumer whose turn is next stands in the row. -/
theorem mem_row_of_next? {x : Registration} (h : t.next? = some x) : x ∈ t.row :=
  List.mem_of_getElem? h

/-- With nobody twice in the row, the cursor goes behind the place of the one whose turn it was. -/
theorem pass_cursor (ht : t.Sound) {x : Registration} (h : t.next? = some x) :
    (t.pass x).cursor = t.cursor % t.row.length + 1 := by
  obtain ⟨hlt, hx⟩ := List.getElem?_eq_some_iff.mp h
  rw [pass, ← hx, ht.nodup.idxOf_getElem]

theorem expire_of_row {r : Registration} (h : r ∈ t.row) : t.expire = t := by
  rw [expire, if_neg (List.ne_nil_of_mem h)]

/-- Some members leave by cancellations. Only with the last one can the row be empty. -/
theorem after_cancelled {gone : List Registration} (hrow : t.row.Nodup) (hnodup : gone.Nodup)
    (hgone : gone ⊆ t.row) :
    t.Follows (gone.map .cancelled) ∧
      (gone ≠ [] → t.after (gone.map .cancelled) =
        ({ t with row := t.row.filter (· ∉ gone) } : Rotation).expire) := by
  induction gone generalizing t with
  | nil => exact ⟨trivial, fun h => (h rfl).elim⟩
  | cons r gone ih =>
      obtain ⟨hnot, hrest⟩ := List.nodup_cons.mp hnodup
      obtain ⟨hr, hothers⟩ := List.cons_subset.mp hgone
      have hleft : gone ⊆ (t.apply (.cancelled r)).row := by
        intro z hz
        have hother : z ≠ r := by
          rintro rfl
          exact hnot hz
        exact (List.mem_erase_of_ne hother).mpr (hothers hz)
      obtain ⟨hfollows, hafter⟩ := ih (hrow.erase r) hrest hleft
      refine ⟨⟨hr, hfollows⟩, fun _ => ?_⟩
      have hfilter : (t.row.erase r).filter (· ∉ gone) = t.row.filter (· ∉ r :: gone) := by
        rw [hrow.erase_eq_filter, List.filter_filter]
        refine List.filter_congr fun z _ => ?_
        simp [bne, Bool.and_comm, Bool.beq_eq_decide_eq]
      rw [List.map_cons, after_cons, ← hfilter]
      cases gone with
      | nil => simp [apply, leave]
      | cons z gone =>
          have hstays : z ∈ (t.leave r).row := hleft List.mem_cons_self
          rw [hafter (List.cons_ne_nil _ _), apply, expire_of_row hstays]
          rfl

end Rotation

end Almanac.Broker
