/-
  Almanac.Proofs.Time.Order

  The order of instants, and how rounding down to the second goes with it. The instants of
  one second lie between its start and the start of the next, so a whole second comes
  after an instant as soon as it comes after the second of that instant. Rounding down takes
  away what an instant has beyond its second, which never leads out of time (`sub?_subsecond`),
  and it keeps the order (`floorSecond_mono`).
-/
import Almanac.Time.Instant

namespace Almanac.Instant

variable {a b c : Instant}

theorem le_refl (a : Instant) : a ≤ a := Int.le_refl _

theorem le_of_eq (h : a = b) : a ≤ b := h ▸ le_refl a

theorem le_of_lt (h : a < b) : a ≤ b := Int.le_of_lt h

theorem le_trans (hab : a ≤ b) (hbc : b ≤ c) : a ≤ c := Int.le_trans hab hbc

theorem lt_irrefl (a : Instant) : ¬a < a := Int.lt_irrefl _

theorem lt_of_le_of_lt (hab : a ≤ b) (hbc : b < c) : a < c := Int.lt_of_le_of_lt hab hbc

theorem lt_of_lt_of_le (hab : a < b) (hbc : b ≤ c) : a < c := Int.lt_of_lt_of_le hab hbc

theorem lt_or_ge (a b : Instant) : a < b ∨ b ≤ a := Int.lt_or_le _ _

theorem not_lt : ¬a < b ↔ b ≤ a := Int.not_lt

/-! ## Seconds -/

/-- Where the start of a second is in the order of time. -/
theorem rank_floorSecond (t : Instant) :
    t.floorSecond.rank =
      (t.day * 86400 + t.second) * 2000000000 + if 1000000000 ≤ t.frac then 1000000000 else 0 := by
  simp only [rank, floorSecond]
  split <;> rfl

theorem floorSecond_le (t : Instant) : t.floorSecond ≤ t := by
  rw [le_iff_rank, rank_floorSecond, rank]
  split <;> omega

@[simp] theorem floorSecond_floorSecond (t : Instant) :
    t.floorSecond.floorSecond = t.floorSecond := by
  refine rank_inj ?_
  simp only [floorSecond, rank]
  by_cases hleap : 1000000000 ≤ t.frac <;> simp [hleap]

/-- A whole second lies behind an instant as soon as it lies behind its second. -/
theorem floorSecond_lt_iff {t : Instant} :
    a.floorSecond < t.floorSecond ↔ a < t.floorSecond := by
  -- Instants of one second differ by less than a second, leap or not.
  have hfrac := a.frac_lt
  have hfrac' := t.frac_lt
  rw [lt_iff_rank, lt_iff_rank, rank_floorSecond, rank_floorSecond, rank]
  split <;> split <;> omega

/-- A whole second is not behind an instant as soon as it is not behind its second. -/
theorem le_floorSecond_iff {t : Instant} :
    t.floorSecond ≤ a.floorSecond ↔ t.floorSecond ≤ a := by
  rw [← not_lt, ← not_lt, lt_iff_rank, lt_iff_rank, rank_floorSecond, rank_floorSecond, rank]
  have hfrac := a.frac_lt
  have hfrac' := t.frac_lt
  split <;> split <;> omega

theorem floorSecond_mono (h : a ≤ b) : a.floorSecond ≤ b.floorSecond :=
  le_floorSecond_iff.mpr (le_trans (floorSecond_le a) h)

/-- Rounding down is going back by the part of a second, in a leap second too. -/
theorem sub?_subsecond (t : Instant) :
    t.sub? ((t.frac % 1000000000 : Nat) : Int) = some t.floorSecond := by
  have hsecond := t.second_lt
  have hfrac := t.frac_lt
  have hfirst := t.day_ge
  have hlast := t.day_le
  -- Less than a second goes back no whole second.
  have hseconds : Span.seconds (-((t.frac % 1000000000 : Nat) : Int)) = 0 := by
    rw [Span.seconds, Int.neg_tdiv, Int.tdiv_eq_ediv_of_nonneg (by omega)]
    omega
  have hnanos : Span.subsecond (-((t.frac % 1000000000 : Nat) : Int)) =
      -((t.frac % 1000000000 : Nat) : Int) := by
    rw [Span.subsecond, Int.neg_tmod, Int.tmod_eq_of_lt (by omega) (by omega)]
  unfold sub? add?
  dsimp only
  rw [hseconds, hnanos]
  by_cases hleap : 1000000000 ≤ t.frac
  · have hminute := t.leap_ends_minute hleap
    have hrest : ((t.frac : Int) + -((t.frac % 1000000000 : Nat) : Int)).toNat = 1000000000 := by
      omega
    rw [if_pos ⟨hleap, rfl, by omega⟩, hrest, of?, dif_pos ⟨by omega, by omega, by omega, by omega⟩]
    simp [floorSecond, hleap]
  · rw [if_neg (by omega)]
    simp only [hleap, if_false, false_and]
    have hzero : (t.frac : Int) + -((t.frac % 1000000000 : Nat) : Int) = 0 := by omega
    rw [hzero, of?, dif_pos ⟨by omega, by omega, by omega, by omega⟩]
    simp only [floorSecond, hleap, if_false, Option.some.injEq, mk.injEq]
    omega

end Almanac.Instant
