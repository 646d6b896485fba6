/-
  Almanac.Time.Instant

  Instants of UTC: a day, a second of that day, and a fraction in nanoseconds. A
  fraction of a whole second or more is a leap second, which extends the last
  second of a minute.

  `Instant.rank` is the place of an instant in the order of time; comparison,
  windows and the watermark of the scheduler all rest on it. Durations (`Span`)
  are signed counts of nanoseconds.
-/
import Almanac.Time.Civil

namespace Almanac

/-! ## Spans -/

/-- A signed duration, counted in nanoseconds. -/
abbrev Span := Int

namespace Span

def ofSeconds (s : Int) : Span := s * 1000000000

def ofDays (d : Int) : Span := ofSeconds (d * 86400)

/-- The whole seconds of a span, cut towards zero. -/
def seconds (s : Span) : Int := Int.tdiv s 1000000000

/-- What `seconds` leaves over; it has the sign of the span. -/
def subsecond (s : Span) : Int := Int.tmod s 1000000000

/-- The longest span: 2^63 - 1 milliseconds. -/
def longest : Span := 9223372036854775807 * 1000000

/-- The sum of two spans, cut to the longest one. -/
def addSaturating (a b : Span) : Span := if a + b ≤ longest then a + b else longest

end Span

/-! ## Instants -/

/-- An instant of UTC between `minDay` and `maxDay`. -/
structure Instant where
  /-- Days since 1970-01-01. -/
  day : Int
  /-- Second of the day. -/
  second : Nat
  /-- Nanoseconds within the second; from one second on it is a leap second. -/
  frac : Nat
  second_lt : second < 86400
  frac_lt : frac < 2000000000
  leap_ends_minute : 1000000000 ≤ frac → second % 60 = 59
  day_ge : minDay ≤ day
  day_le : day ≤ maxDay
deriving DecidableEq

namespace Instant

/-- The instant with these parts, if there is one. -/
def of? (day : Int) (second frac : Nat) : Option Instant :=
  if h : second < 86400 ∧ frac < 2000000000 ∧
      (1000000000 ≤ frac → second % 60 = 59) ∧ minDay ≤ day ∧ day ≤ maxDay then
    some ⟨day, second, frac, h.1, h.2.1, h.2.2.1, h.2.2.2.1, h.2.2.2.2⟩
  else none

/-- The first instant: -262143-01-01T00:00:00Z. -/
def first : Instant := ⟨minDay, 0, 0, by decide, by decide, by decide, by decide, by decide⟩

/-- The last instant that is not a leap second: +262142-12-31T23:59:59.999999999Z. -/
def last : Instant :=
  ⟨maxDay, 86399, 999999999, by decide, by decide, by decide, by decide, by decide⟩

instance : Inhabited Instant := ⟨first⟩

/-! ## Order -/

/-- The place of an instant in the order of time: day, then second, then fraction. -/
def rank (t : Instant) : Int :=
  (t.day * 86400 + t.second) * 2000000000 + t.frac

instance : LE Instant := ⟨fun a b => a.rank ≤ b.rank⟩
instance : LT Instant := ⟨fun a b => a.rank < b.rank⟩
instance (a b : Instant) : Decidable (a ≤ b) := inferInstanceAs (Decidable (a.rank ≤ b.rank))
instance (a b : Instant) : Decidable (a < b) := inferInstanceAs (Decidable (a.rank < b.rank))

theorem le_iff_rank {a b : Instant} : a ≤ b ↔ a.rank ≤ b.rank := Iff.rfl
theorem lt_iff_rank {a b : Instant} : a < b ↔ a.rank < b.rank := Iff.rfl

/-- Instants of equal rank are equal. -/
theorem rank_inj {a b : Instant} (h : a.rank = b.rank) : a = b := by
  obtain ⟨d, s, f, hs, hf, _, _, _⟩ := a
  obtain ⟨d', s', f', hs', hf', _, _, _⟩ := b
  simp only [rank] at h
  have hd : d = d' := by omega
  have hsec : s = s' := by omega
  have hfr : f = f' := by omega
  subst hd hsec hfr
  rfl

/-! ## Dates and Unix time -/

def date (t : Instant) : Date := Date.ofDay t.day

/-- Midnight that begins a day of the supported range. -/
def ofDate? (d : Date) : Option Instant :=
  if d.Valid then of? d.toDay 0 0 else none

/-- Seconds since 1970-01-01T00:00:00Z; a leap second counts as the second before it. -/
def unixSeconds (t : Instant) : Int := t.day * 86400 + t.second

/-- The instant of a count of Unix seconds and a fraction. -/
def ofUnix? (seconds : Int) (frac : Nat) : Option Instant :=
  of? (seconds / 86400) (seconds % 86400).toNat frac

/-! ## Rounding down -/

/-- The instant at the start of its second; a leap second is a second of its own. -/
def floorSecond (t : Instant) : Instant where
  day := t.day
  second := t.second
  frac := if 1000000000 ≤ t.frac then 1000000000 else 0
  second_lt := t.second_lt
  frac_lt := by split <;> decide
  leap_ends_minute h := by
    split at h
    · exact t.leap_ends_minute (by assumption)
    · simp at h
  day_ge := t.day_ge
  day_le := t.day_le

def dayStart (t : Instant) : Instant where
  day := t.day
  second := 0
  frac := 0
  second_lt := by decide
  frac_lt := by decide
  leap_ends_minute h := by simp at h
  day_ge := t.day_ge
  day_le := t.day_le

/-! ## Moving by spans and months -/

/-- The instant a span later. Inside a leap second the sum may stay in it; going
    forward out of one passes its extra second, going backward does not. -/
def add? (t : Instant) (s : Span) : Option Instant :=
  let secs := s.seconds
  let nanos := s.subsecond
  let leap := 1000000000 ≤ t.frac
  if leap ∧ secs = 0 ∧ (t.frac : Int) + nanos < 2000000000 then
    of? t.day t.second (t.frac + nanos).toNat
  else
    let whole : Int := t.second + (if leap ∧ secs < 0 then 1 else 0) + secs
    let frac : Int := (if leap then (t.frac : Int) - 1000000000 else t.frac) + nanos
    let whole := whole + frac / 1000000000
    of? (t.day + whole / 86400) (whole % 86400).toNat
      (frac % 1000000000).toNat

def sub? (t : Instant) (s : Span) : Option Instant := t.add? (-s)

/-- The span from `b` to `a`. A leap second between two times of day counts once; the
    dates add whole days of 86400 seconds. -/
def since (a b : Instant) : Span :=
  let leap : Int :=
    if b.second < a.second then (if 1000000000 ≤ b.frac then 1 else 0)
    else if a.second < b.second then (if 1000000000 ≤ a.frac then -1 else 0)
    else 0
  Span.ofSeconds ((a.day - b.day) * 86400 + a.second - b.second + leap)
    + ((a.frac : Int) - b.frac)

/-- The same time of day `months` calendar months later (earlier when negative). -/
def addMonths? (t : Instant) (months : Int) : Option Instant :=
  of? (t.date.addMonths months).toDay t.second t.frac

/-- The instant `months` calendar months before `now`, or the first one when there is none. -/
def monthsEarlier (now : Instant) (months : Nat) : Instant :=
  (now.addMonths? (-months)).getD first

end Instant

end Almanac
