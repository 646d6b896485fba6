/-
  Almanac.Proofs.Broker.Fairness

  How far a rotation is fair to those who stay in it. The cursor is a place in the row and not one
  of its members. When a member in front of it goes, the others move up and the cursor does not, so
  one of them is passed over (`Jumps`).

  `skipped_le_jumps` bounds by this how many members can be without a turn between two turns of one
  member. The proof is by a potential. Seen from that member, with the row in two parts in front of
  it and behind it, `owed` counts those whom the cursor has passed since, and those whom it will pass
  because it stands behind the end of the row. A turn that is no jump does not raise it
  (`owed_pass`, `owed_join`), a jump raises it by one at most (`owed_leave`), and at the second turn
  it counts all of them (`Waits.length_le`).
-/
import Almanac.Proofs.Broker.Rotation
import Mathlib.Data.List.Perm.Subperm

namespace Almanac.Broker

namespace Rotation

variable {t : Rotation} {e : Turn} {turns : List Turn}

/-! ## Jumps -/

/-- A turn by which the row moves up in front of the cursor. Whoever is swept out had the turn, so
    the cursor is behind. -/
def Jumps (t : Rotation) : Turn → Bool
  | .swept _ => true
  | .cancelled r => decide (t.row.idxOf r < t.cursor)
  | _ => false

/-- How many of the turns are jumps. -/
def jumps (t : Rotation) : List Turn → Nat
  | [] => 0
  | e :: turns => (if t.Jumps e then 1 else 0) + (t.apply e).jumps turns

/-! ## What the cursor has passed -/

section Passed

variable (p : Registration → Bool)

/-- One place more is one member more, or one more place behind the end. -/
theorem countP_take_succ_le (l : List Registration) (m : Nat) :
    (l.take (m + 1)).countP p + (m + 1 - l.length) ≤
      (l.take m).countP p + (m - l.length) + 1 := by
  rcases Nat.lt_or_ge m l.length with hlt | hge
  · have hone : l[m]?.toList.countP p ≤ 1 :=
      Nat.le_trans List.countP_le_length (by cases l[m]? <;> simp)
    rw [List.take_add_one, List.countP_append]
    omega
  · rw [List.take_of_length_le hge, List.take_of_length_le (Nat.le_succ_of_le hge)]
    omega

/-- When a member goes, one more may come to stand in front of a place, if it went in front of the
    place. -/
theorem countP_take_erase_le {l : List Registration} {y : Registration} (h : y ∈ l) (m : Nat) :
    ((l.erase y).take m).countP p + (m - (l.length - 1)) ≤
      (l.take m).countP p + (m - l.length) + (if l.idxOf y < m then 1 else 0) := by
  induction l generalizing m with
  | nil => simp at h
  | cons a l ih =>
      cases m with
      | zero => simp
      | succ m =>
          by_cases hfirst : a = y
          · subst hfirst
            have hsucc := countP_take_succ_le p l m
            simp only [List.erase_cons_head, List.idxOf_cons_self, List.take_succ_cons,
              List.countP_cons, List.length_cons, Nat.zero_lt_succ, if_true]
            omega
          · have hmem : y ∈ l := (List.mem_cons.mp h).resolve_left (Ne.symm hfirst)
            have hrest := ih hmem m
            have hpos : 0 < l.length := List.length_pos_of_mem hmem
            have hplace : (a :: l).idxOf y < m + 1 ↔ l.idxOf y < m := by
              rw [List.idxOf_cons_ne l hfirst]
              omega
            rw [List.erase_cons_tail (by simpa using hfirst)]
            simp only [List.take_succ_cons, List.countP_cons, List.length_cons, hplace]
            omega

/-- In a row in which one member has had its turn, with the others before and behind it: how many
    of those that count the cursor has passed since. It starts behind the member and comes round
    to it from the front. -/
def passed (front back : List Registration) (cursor : Nat) : Nat :=
  if cursor ≤ front.length then (front.take cursor).countP p + back.countP p
  else (back.take (cursor - front.length - 1)).countP p

/-- What the cursor has passed, and what it will pass by standing behind the end of the row. -/
def owed (front back : List Registration) (cursor : Nat) : Nat :=
  passed p front back cursor + (cursor - (front.length + 1 + back.length))

variable {p} {front back : List Registration} {x z : Registration} {k : Nat}

/-- Going round to the front passes no more than what was owed. -/
theorem passed_mod_le (k : Nat) :
    passed p front back (k % (front ++ x :: back).length) ≤ owed p front back k := by
  have hlength : (front ++ x :: back).length = front.length + 1 + back.length := by
    simp only [List.length_append, List.length_cons]
    omega
  rw [hlength, owed]
  rcases Nat.lt_or_ge k (front.length + 1 + back.length) with hlt | hge
  · rw [Nat.mod_eq_of_lt hlt]
    exact Nat.le_add_right _ _
  · have hwrap : k % (front.length + 1 + back.length) ≤ k - (front.length + 1 + back.length) := by
      rw [Nat.mod_eq_sub_mod hge]
      exact Nat.mod_le _ _
    have hall : passed p front back k = back.countP p := by
      rw [passed, if_neg (by omega), List.take_of_length_le (by omega)]
    rw [hall, passed]
    generalize k % (front.length + 1 + back.length) = i at hwrap ⊢
    split
    · have hfront : (front.take i).countP p ≤ i :=
        Nat.le_trans List.countP_le_length (List.length_take_le _ _)
      omega
    · have hback := (List.take_sublist (i - front.length - 1) back).countP_le (p := p)
      omega

/-- The cursor goes behind a member that does not count. -/
theorem owed_pass (hz : (front ++ x :: back)[k % (front ++ x :: back).length]? = some z)
    (hother : z ≠ x) (hcounts : p z = false) :
    owed p front back (k % (front ++ x :: back).length + 1) ≤ owed p front back k := by
  refine Nat.le_trans ?_ (passed_mod_le (x := x) k)
  generalize k % (front ++ x :: back).length = i at hz ⊢
  have hlt : i < front.length + 1 + back.length := by
    have := (List.getElem?_eq_some_iff.mp hz).1
    simp only [List.length_append, List.length_cons] at this
    omega
  rw [owed, Nat.sub_eq_zero_of_le hlt, Nat.add_zero, passed, passed]
  rcases Nat.lt_trichotomy i front.length with hfront | hhere | hback
  · rw [List.getElem?_append_left hfront] at hz
    rw [if_pos (by omega), if_pos (by omega), List.take_add_one, hz, List.countP_append]
    simp [hcounts]
  · -- The member itself stands there.
    rw [List.getElem?_append_right (by omega), hhere, Nat.sub_self] at hz
    exact absurd (Option.some.inj hz).symm hother
  · obtain ⟨j, rfl⟩ : ∃ j, i = front.length + 1 + j := ⟨i - (front.length + 1), by omega⟩
    have hplace : front.length + 1 + j - front.length = j + 1 := by omega
    rw [List.getElem?_append_right (by omega), hplace, List.getElem?_cons_succ] at hz
    have hnext : front.length + 1 + j + 1 - front.length - 1 = j + 1 := by omega
    have hthis : front.length + 1 + j - front.length - 1 = j := by omega
    rw [if_neg (by omega), if_neg (by omega), hnext, hthis, List.take_add_one, hz,
      List.countP_append]
    simp [hcounts]

/-- A new member that does not count comes to the end of the row. -/
theorem owed_join (hcounts : p z = false) (k : Nat) :
    owed p front (back ++ [z]) k ≤ owed p front back k := by
  have htake (m : Nat) : ((back ++ [z]).take m).countP p = (back.take m).countP p := by
    rw [List.take_append, List.countP_append]
    cases m - back.length <;> simp [hcounts]
  have hall : (back ++ [z]).countP p = back.countP p := by simp [hcounts]
  simp only [owed, passed, htake, hall, List.length_append, List.length_singleton]
  omega

/-- A member that does not count goes, and the cursor stays. -/
theorem owed_leave (hz : z ∈ front ++ x :: back) (hother : z ≠ x) (hcounts : p z = false)
    (k : Nat) :
    ∃ front' back', (front ++ x :: back).erase z = front' ++ x :: back' ∧
      owed p front' back' k ≤
        owed p front back k + (if (front ++ x :: back).idxOf z < k then 1 else 0) := by
  by_cases hfront : z ∈ front
  · refine ⟨front.erase z, back, List.erase_append_left _ hfront, ?_⟩
    have hlength : (front.erase z).length = front.length - 1 := List.length_erase_of_mem hfront
    have hpos : 0 < front.length := List.length_pos_of_mem hfront
    have hplace : (front ++ x :: back).idxOf z = front.idxOf z := List.idxOf_append_of_mem hfront
    have hin : front.idxOf z < front.length := List.idxOf_lt_length_iff.mpr hfront
    rw [hplace, owed, owed, passed, passed, hlength]
    rcases Nat.lt_trichotomy k front.length with hbefore | hat | hbehind
    · have herase := countP_take_erase_le p hfront k
      rw [if_pos (by omega), if_pos (by omega)]
      omega
    · -- The cursor has just come to the member, and now stands behind it.
      have hnone : k - (front.length - 1) - 1 = 0 := by omega
      rw [if_neg (by omega), hnone]
      simp only [List.take_zero, List.countP_nil]
      omega
    · have hsucc := countP_take_succ_le p back (k - front.length - 1)
      have hplace' : k - (front.length - 1) - 1 = k - front.length - 1 + 1 := by omega
      rw [if_neg (by omega), if_neg (by omega), if_pos (by omega), hplace']
      omega
  · have hback : z ∈ back := by simpa [hfront, hother] using hz
    refine ⟨front, back.erase z, ?_, ?_⟩
    · rw [List.erase_append_right _ hfront, List.erase_cons_tail (by simpa using hother.symm)]
    · have hlength : (back.erase z).length = back.length - 1 := List.length_erase_of_mem hback
      have hpos : 0 < back.length := List.length_pos_of_mem hback
      have hplace : (front ++ x :: back).idxOf z = back.idxOf z + 1 + front.length := by
        rw [List.idxOf_append_of_notMem hfront, List.idxOf_cons_ne _ hother.symm]
        omega
      rw [hplace, owed, owed, passed, passed, hlength]
      split
      · have hall := (List.perm_cons_erase hback).countP_eq p
        simp only [List.countP_cons, hcounts] at hall
        omega
      · have herase := countP_take_erase_le p hback (k - front.length - 1)
        have hsame : back.idxOf z < k - front.length - 1 ↔
            back.idxOf z + 1 + front.length < k := by omega
        simp only [hsame] at herase
        omega

end Passed

/-! ## Between two turns of one member -/

/-- A member stands in the row all the time. -/
def Keeps (t : Rotation) (y : Registration) : List Turn → Prop
  | [] => y ∈ t.row
  | e :: turns => y ∈ t.row ∧ (t.apply e).Keeps y turns

/-- Since a member had its turn, no more than `n` of some others have been passed. -/
def Waits (t : Rotation) (x : Registration) (ys : List Registration) (n : Nat) : Prop :=
  ∃ front back, t.row = front ++ x :: back ∧
    owed (fun r => decide (r ∈ ys)) front back t.cursor ≤ n

variable {x y z : Registration} {ys : List Registration} {n : Nat}

theorem Keeps.mem (h : t.Keeps y turns) : y ∈ t.row := by
  cases turns with
  | nil => exact h
  | cons e turns => exact h.1

theorem Keeps.mem_after (h : t.Keeps y turns) : y ∈ (t.after turns).row := by
  induction turns generalizing t with
  | nil => exact h
  | cons e turns ih => exact ih h.2

/-- A member that has just had its turn: nobody has been passed since. -/
theorem waits_pass (ht : t.Sound) (hx : x ∈ t.row) : (t.pass x).Waits x ys 0 := by
  obtain ⟨front, back, hrow⟩ := List.append_of_mem hx
  refine ⟨front, back, hrow, ?_⟩
  have hcursor : (t.pass x).cursor = front.length + 1 := by
    rw [pass, ht.idxOf_eq hrow]
  have hnone : front.length + 1 - front.length - 1 = 0 := by omega
  rw [hcursor, owed, passed, if_neg (by omega), hnone, List.take_zero, List.countP_nil]
  omega

theorem Waits.pass (h : t.Waits x ys n) (ht : t.Sound) (hnext : t.next? = some z) (hother : z ≠ x)
    (hz : z ∉ ys) : (t.pass z).Waits x ys n := by
  obtain ⟨front, back, hrow, howed⟩ := h
  refine ⟨front, back, hrow, ?_⟩
  have hplace : (front ++ x :: back)[t.cursor % (front ++ x :: back).length]? = some z := by
    rw [← hrow]
    exact hnext
  rw [pass_cursor ht hnext, hrow]
  exact Nat.le_trans (owed_pass hplace hother (by simpa using hz)) howed

theorem Waits.leave (h : t.Waits x ys n) (hmem : z ∈ t.row) (hother : z ≠ x) (hz : z ∉ ys) :
    (t.leave z).Waits x ys (n + if t.row.idxOf z < t.cursor then 1 else 0) := by
  obtain ⟨front, back, hrow, howed⟩ := h
  rw [hrow] at hmem ⊢
  obtain ⟨front', back', herase, hleft⟩ :=
    owed_leave (p := fun r => decide (r ∈ ys)) hmem hother (by simpa using hz) t.cursor
  refine ⟨front', back', ?_, Nat.le_trans hleft (Nat.add_le_add_right howed _)⟩
  rw [Rotation.leave, hrow, herase]

/-- A turn of somebody else passes one of the others only by a jump. -/
theorem Waits.apply (h : t.Waits x ys n) (ht : t.Sound) (hallows : t.Allows e)
    (hx : x ∈ (t.apply e).row) (hturn : e ≠ .handed x)
    (hys : ∀ y ∈ ys, y ∈ t.row ∧ y ∈ (t.apply e).row ∧ e ≠ .handed y) :
    (t.apply e).Waits x ys (n + if t.Jumps e then 1 else 0) := by
  -- Whoever leaves is neither the member nor one of the others.
  have hgone {z : Registration} (hrow : (t.apply e).row = t.row.erase z) : z ≠ x ∧ z ∉ ys := by
    rw [hrow] at hx hys
    refine ⟨?_, fun hz => ?_⟩
    · rintro rfl
      exact ht.nodup.not_mem_erase hx
    · exact ht.nodup.not_mem_erase (hys z hz).2.1
  cases e with
  | opened settings => simp [Rotation.apply] at hx
  | joined r =>
      obtain ⟨front, back, hrow, howed⟩ := h
      have hnew : r ∉ ys := by
        intro hr
        have hlt := ht.known r (hys r hr).1
        have hle := hallows.2
        omega
      refine ⟨front, back ++ [r], ?_, ?_⟩
      · simp [Rotation.apply, hrow]
      · exact Nat.le_trans (owed_join (by simpa using hnew) t.cursor) howed
  | handed z =>
      have hother : z ≠ x := fun hsame => hturn (hsame ▸ rfl)
      have hz : z ∉ ys := fun hz => (hys z hz).2.2 rfl
      exact h.pass ht hallows hother hz
  | swept z =>
      obtain ⟨hother, hz⟩ := hgone rfl
      have hmem : z ∈ t.row := mem_row_of_next? hallows
      have hbehind : (t.pass z).row.idxOf z < (t.pass z).cursor := Nat.lt_succ_self _
      have hleft := (h.pass ht hallows hother hz).leave hmem hother hz
      rwa [if_pos hbehind] at hleft
  | cancelled z =>
      obtain ⟨hother, hz⟩ := hgone rfl
      have hleft : (t.apply (.cancelled z)).Waits x ys
          (n + if t.row.idxOf z < t.cursor then 1 else 0) := h.leave hallows hother hz
      simpa only [Jumps, decide_eq_true_eq] using hleft
  | stopped => simp [Rotation.apply] at hx

theorem Waits.after (h : t.Waits x ys n) (ht : t.Sound) (hfollows : t.Follows turns)
    (hx : x ∈ (t.after turns).row) (hturn : .handed x ∉ turns)
    (hys : ∀ y ∈ ys, t.Keeps y turns ∧ .handed y ∉ turns) :
    (t.after turns).Waits x ys (n + t.jumps turns) := by
  induction turns generalizing t n with
  | nil => exact h
  | cons e turns ih =>
      obtain ⟨hallows, hrest⟩ := hfollows
      -- The member is still there at the end, so it has not left by now.
      have hmem : x ∈ (t.apply e).row := by
        by_contra hnot
        obtain ⟨front, back, hrow, -⟩ := h
        have hlt := ht.known x (by simp [hrow])
        have hle := streams_le hallows
        exact notMem_after (by omega) hnot hrest hx
      rw [List.mem_cons, not_or] at hturn
      have hnow : ∀ y ∈ ys, y ∈ t.row ∧ y ∈ (t.apply e).row ∧ e ≠ .handed y := by
        intro y hy
        obtain ⟨⟨hin, hkeeps⟩, hmissed⟩ := hys y hy
        rw [List.mem_cons, not_or] at hmissed
        exact ⟨hin, hkeeps.mem, Ne.symm hmissed.1⟩
      have hlater : ∀ y ∈ ys, (t.apply e).Keeps y turns ∧ .handed y ∉ turns := by
        intro y hy
        obtain ⟨⟨-, hkeeps⟩, hmissed⟩ := hys y hy
        rw [List.mem_cons, not_or] at hmissed
        exact ⟨hkeeps, hmissed.2⟩
      have hstep := h.apply ht hallows hmem (Ne.symm hturn.1) hnow
      rw [jumps, ← Nat.add_assoc]
      exact ih hstep (ht.apply hallows) hrest hx hturn.2 hlater

/-- When the turn of the member comes again, all of the others have been passed. -/
theorem Waits.length_le (h : t.Waits x ys n) (ht : t.Sound) (hnext : t.next? = some x)
    (hnodup : ys.Nodup) (hys : ∀ y ∈ ys, y ≠ x ∧ y ∈ t.row) : ys.length ≤ n := by
  obtain ⟨front, back, hrow, howed⟩ := h
  have hplace : t.cursor % (front ++ x :: back).length = front.length := by
    have hcursor := pass_cursor ht hnext
    rw [Rotation.pass, ht.idxOf_eq hrow, hrow] at hcursor
    exact (Nat.succ.inj hcursor).symm
  have hpassed : passed (fun r => decide (r ∈ ys)) front back
      (t.cursor % (front ++ x :: back).length) ≤
        owed (fun r => decide (r ∈ ys)) front back t.cursor := passed_mod_le t.cursor
  rw [hplace, passed, if_pos (Nat.le_refl _), List.take_length, ← List.countP_append,
    List.countP_eq_length_filter] at hpassed
  have hsubset : ys ⊆ (front ++ back).filter fun r => decide (r ∈ ys) := by
    intro y hy
    obtain ⟨hother, hmem⟩ := hys y hy
    rw [hrow] at hmem
    simpa [hother, hy] using hmem
  have hlength := (hnodup.subperm hsubset).length_le
  omega

/-- Between two turns of one member, those who stay and have no turn are no more than the jumps. -/
theorem skipped_le_jumps (ht : t.Sound)
    (hfollows : t.Follows (.handed x :: turns ++ [.handed x])) (hturn : .handed x ∉ turns)
    (hnodup : ys.Nodup)
    (hys : ∀ y ∈ ys, y ≠ x ∧ (t.apply (.handed x)).Keeps y turns ∧ .handed y ∉ turns) :
    ys.length ≤ (t.apply (.handed x)).jumps turns := by
  obtain ⟨⟨hfirst, hbetween⟩, hnext, -⟩ := follows_append.mp hfollows
  have hstart : (t.apply (.handed x)).Waits x ys 0 := waits_pass ht (mem_row_of_next? hfirst)
  have hsound := ht.apply hfirst
  have hend := hstart.after hsound hbetween (mem_row_of_next? hnext) hturn fun y hy => (hys y hy).2
  rw [Nat.zero_add] at hend
  apply hend.length_le (hsound.after hbetween) hnext hnodup
  intro y hy
  obtain ⟨hother, hkeeps, -⟩ := hys y hy
  exact ⟨hother, hkeeps.mem_after⟩

end Rotation

end Almanac.Broker
