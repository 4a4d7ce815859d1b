import SchemaMigration.Time.Instant

/-!
# SchemaMigration.Proofs.Time.Calendar

Instants on the line of time.

* `Instant.sinceEpoch` : the nanoseconds between the start of 1970 and an instant.
* `Instant.InCalendar` : the times from the first to the last year of the calendar, by its dates.
* `Instant.IsMoment`, `Instant.IsPlain` : the instants that there are, and those outside a leap
  second, which `IsPlain.ext` says are told apart by their times.
* `Instant.ofMicros?_eq_some_iff`, `Instant.ofMicros?_eq_none_iff` : a count of microseconds has an
  instant just where the calendar reaches, and it is that time to the nanosecond.
-/

namespace SchemaMigration
namespace Instant

variable {instant other : Instant}

def sinceEpoch (instant : Instant) : Int := instant.seconds * 1000000000 + instant.nanos

def nanosecondsOfDay : Int := 86400 * 1000000000

/-- From the start of the first year to the end of the last one. -/
def InCalendar (nanoseconds : Int) : Prop :=
  Date.days ⟨Date.yearRange.1, 1, 1⟩ * nanosecondsOfDay ≤ nanoseconds ∧
    nanoseconds < (Date.days ⟨Date.yearRange.2, 12, 31⟩ + 1) * nanosecondsOfDay

theorem inCalendar_iff {n : Int} :
    InCalendar n ↔ -8334601228800000000000 ≤ n ∧ n < 8210266876800000000000 := by
  have hfirst : Date.days ⟨Date.yearRange.1, 1, 1⟩ = -96465292 := by decide
  have hlast : Date.days ⟨Date.yearRange.2, 12, 31⟩ = 95026236 := by decide
  rw [InCalendar, hfirst, hlast, nanosecondsOfDay]
  omega

instance (n : Int) : Decidable (InCalendar n) := decidable_of_iff _ inCalendar_iff.symm

/-- Outside a leap second. -/
def IsPlain (instant : Instant) : Prop := instant.nanos < 1000000000

instance (instant : Instant) : Decidable instant.IsPlain := Nat.decLt _ _

/-- An instant of the calendar. A leap second goes on for a second billion of nanoseconds. -/
structure IsMoment (instant : Instant) : Prop where
  inCalendar : InCalendar (instant.seconds * 1000000000)
  nanos_lt : instant.nanos < 2000000000

theorem IsPlain.ext (h : instant.IsPlain) (hother : other.IsPlain)
    (htime : instant.sinceEpoch = other.sinceEpoch) : instant = other := by
  obtain ⟨seconds, nanos⟩ := instant
  obtain ⟨seconds', nanos'⟩ := other
  simp only [IsPlain, sinceEpoch] at h hother htime
  have hseconds : seconds = seconds' := by omega
  have hnanos : nanos = nanos' := by omega
  rw [hseconds, hnanos]

theorem micros_eq (instant : Instant) : instant.micros = instant.sinceEpoch.fdiv 1000 := by
  rw [Int.fdiv_eq_ediv_of_nonneg _ (by decide), micros, sinceEpoch]
  omega

theorem inRange_iff {seconds : Int} :
    inRange seconds = true ↔ InCalendar (seconds * 1000000000) := by
  rw [inCalendar_iff, inRange, firstSecond, lastSecond, Bool.and_eq_true, decide_eq_true_eq,
    decide_eq_true_eq]
  omega

/-- The second of a microsecond and the microsecond itself are both in the calendar or both not. -/
theorem inRange_micros_iff {micros : Int} :
    inRange (micros.fdiv 1000000) = true ↔ InCalendar (micros * 1000) := by
  rw [inRange_iff, inCalendar_iff, inCalendar_iff, Int.fdiv_eq_ediv_of_nonneg _ (by decide)]
  omega

theorem ofMicros?_eq_some_iff {micros : Int} :
    ofMicros? micros = some instant ↔
      InCalendar (micros * 1000) ∧ instant.IsPlain ∧ instant.sinceEpoch = micros * 1000 := by
  let read : Instant := ⟨micros.fdiv 1000000, (micros.fmod 1000000).toNat * 1000⟩
  have hplain : read.IsPlain := by
    show (micros.fmod 1000000).toNat * 1000 < 1000000000
    rw [Int.fmod_eq_emod_of_nonneg _ (by decide)]
    omega
  have htime : read.sinceEpoch = micros * 1000 := by
    show micros.fdiv 1000000 * 1000000000 + ((micros.fmod 1000000).toNat * 1000 : Nat) = _
    rw [Int.fdiv_eq_ediv_of_nonneg _ (by decide), Int.fmod_eq_emod_of_nonneg _ (by decide)]
    omega
  rw [ofMicros?, ← inRange_micros_iff]
  split
  · rename_i hrange
    refine ⟨fun h => ?_, fun ⟨_, hp, ht⟩ => ?_⟩
    · cases h
      exact ⟨hrange, hplain, htime⟩
    · rw [hp.ext hplain (ht.trans htime.symm)]
  · rename_i hrange
    exact ⟨nofun, fun h => absurd h.1 hrange⟩

theorem ofMicros?_eq_none_iff {micros : Int} :
    ofMicros? micros = none ↔ ¬ InCalendar (micros * 1000) := by
  rw [ofMicros?, ← inRange_micros_iff]
  split
  · rename_i hrange
    exact ⟨nofun, fun h => absurd hrange h⟩
  · rename_i hrange
    exact ⟨fun _ => hrange, fun _ => rfl⟩

end Instant
end SchemaMigration
