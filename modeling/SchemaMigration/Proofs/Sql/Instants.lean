import SchemaMigration.Proofs.Time.Calendar
import SchemaMigration.Sql.Cell

/-!
# SchemaMigration.Proofs.Sql.Instants

Instants on their way into the database and back.

* `ReadsMicros` : what is relied on of a calendar that reads counts of microseconds as instants.
* `Cell.valueBy` : a cell as it is read with such a calendar.
* `Value.Fits` : the values that there are, with integers of 64 bits and instants of the calendar.
* `clamp64_of_inCalendar`, `not_inCalendar_clamp64` : a product is cut down to 64 bits only where no
  calendar reaches, and what it is cut down to is out of reach as well.
* `valueBy_of_ne_nanosecond`, `isInstantAt_nanosecond` : so a count is read as its instant just
  where the calendar reaches.

`instants_cross` : values come back as they were bound, instants to the microsecond, and a timestamp
of any unit is read as the instant that it is, or as nothing.
-/

namespace SchemaMigration
namespace Sql

open Instant (InCalendar inCalendar_iff)

/-- A number of 64 bits. -/
def Fits64 (n : Int) : Prop := IntegerType.big.holds n = true

instance (n : Int) : Decidable (Fits64 n) := inferInstanceAs (Decidable (_ = true))

theorem fits64_iff {n : Int} :
    Fits64 n ↔ -9223372036854775808 ≤ n ∧ n ≤ 9223372036854775807 := by
  have hhalf : (Nat.pow 2 (IntegerType.big.bits - 1) : Nat) = 9223372036854775808 := by decide
  have hsigned : IntegerType.big.isSigned = true := rfl
  rw [Fits64, IntegerType.holds, if_pos hsigned, hhalf, Bool.and_eq_true, decide_eq_true_eq,
    decide_eq_true_eq]
  omega

/-- The nanoseconds in one unit. -/
def TimeUnit.nanoseconds : TimeUnit → Int
  | .second => 1000000000
  | .millisecond => 1000000
  | .microsecond => 1000
  | .nanosecond => 1

/-- A reading of counts of microseconds as instants, which succeeds on the whole calendar and
nowhere else. -/
structure ReadsMicros (read : Int → Option Instant) : Prop where
  isSome_iff : ∀ micros, Fits64 micros → ((read micros).isSome = true ↔ InCalendar (micros * 1000))
  time : ∀ micros instant, Fits64 micros → read micros = some instant →
    instant.IsPlain ∧ instant.sinceEpoch = micros * 1000

theorem readsMicros_ofMicros? : ReadsMicros Instant.ofMicros? where
  isSome_iff micros _ := by
    rw [Option.isSome_iff_ne_none, ne_eq, Instant.ofMicros?_eq_none_iff, Decidable.not_not]
  time micros instant _ h := (Instant.ofMicros?_eq_some_iff.mp h).2

/-- The values that there are. -/
def Value.Fits : Value → Prop
  | .int number => Fits64 number
  | .timestamp instant => instant.IsMoment
  | _ => True

/-- Whether a value is the instant at a time. -/
def Value.IsInstantAt (value : Value) (nanoseconds : Int) : Prop :=
  ∃ instant, value = .timestamp instant ∧ instant.IsPlain ∧ instant.sinceEpoch = nanoseconds

/-- Outside leap seconds a time has one instant. -/
theorem Value.IsInstantAt.eq_timestamp {value : Value} {time : Int} {instant : Instant}
    (h : value.IsInstantAt time) (hplain : instant.IsPlain) (htime : instant.sinceEpoch = time) :
    value = .timestamp instant := by
  obtain ⟨read, rfl, hread, hsame⟩ := h
  rw [hread.ext hplain (hsame.trans htime.symm)]

theorem fits64_micros {instant : Instant} (h : instant.IsMoment) :
    Fits64 (instant.seconds * 1000000) ∧ Fits64 instant.micros := by
  have hseconds := inCalendar_iff.mp h.inCalendar
  have hnanos := h.nanos_lt
  rw [fits64_iff, fits64_iff, Instant.micros]
  omega

namespace Cell

/-- A cell as it is read with any calendar. -/
def valueBy (read : Int → Option Instant) : Cell → Value
  | .timestamp unit count =>
    match read (microseconds unit count) with
    | some instant => .timestamp instant
    | none => .null
  | cell => cell.value

theorem valueBy_ofMicros? (cell : Cell) : cell.valueBy Instant.ofMicros? = cell.value := by
  cases cell <;> rfl

/-! ## Counts of microseconds -/

variable {read : Int → Option Instant} {unit : TimeUnit} {count n : Int}

theorem fits64_clamp64 (n : Int) : Fits64 (clamp64 n) := by
  rw [fits64_iff, clamp64]
  omega

theorem clamp64_of_inCalendar (h : InCalendar (n * 1000)) : clamp64 n = n := by
  rw [inCalendar_iff] at h
  rw [clamp64]
  omega

/-- Both ends of 64 bits are beyond the calendar. -/
theorem not_inCalendar_clamp64 (h : ¬ InCalendar (n * 1000)) : ¬ InCalendar (clamp64 n * 1000) := by
  rw [inCalendar_iff] at h ⊢
  rw [clamp64]
  omega

/-- Cutting off toward zero keeps a number between itself and zero. -/
theorem tdiv_mul_bounds (n : Int) :
    min n 0 ≤ n.tdiv 1000 * 1000 ∧ n.tdiv 1000 * 1000 ≤ max n 0 := by
  have hsign : Int.sign 1000 = 1 := rfl
  rw [Int.tdiv_eq_ediv, hsign]
  split <;> omega

theorem fits64_microseconds (unit : TimeUnit) (h : Fits64 count) :
    Fits64 (microseconds unit count) := by
  cases unit with
  | second => exact fits64_clamp64 _
  | millisecond => exact fits64_clamp64 _
  | microsecond => exact h
  | nanosecond =>
    obtain ⟨hlow, hhigh⟩ := tdiv_mul_bounds count
    rw [fits64_iff] at h
    rw [microseconds, fits64_iff]
    omega

/-- Seconds, milliseconds and microseconds are whole microseconds, cut down to 64 bits. -/
theorem exists_microseconds (hunit : unit ≠ .nanosecond) (h : Fits64 count) :
    ∃ n, n * 1000 = count * unit.nanoseconds ∧ microseconds unit count = clamp64 n := by
  cases unit with
  | second => exact ⟨count * 1000000, by rw [TimeUnit.nanoseconds]; omega, rfl⟩
  | millisecond => exact ⟨count * 1000, by rw [TimeUnit.nanoseconds]; omega, rfl⟩
  | microsecond =>
    refine ⟨count, rfl, ?_⟩
    rw [fits64_iff] at h
    rw [microseconds, clamp64]
    omega
  | nanosecond => exact absurd rfl hunit

/-! ## Reading -/

theorem isInstantAt_of_inCalendar (unit : TimeUnit) (hread : ReadsMicros read) (h : Fits64 count)
    (hin : InCalendar (microseconds unit count * 1000)) :
    ((Cell.timestamp unit count).valueBy read).IsInstantAt (microseconds unit count * 1000) := by
  have hfits := fits64_microseconds unit h
  obtain ⟨instant, hinstant⟩ := Option.isSome_iff_exists.mp ((hread.isSome_iff _ hfits).mpr hin)
  refine ⟨instant, ?_, hread.time _ instant hfits hinstant⟩
  rw [valueBy, hinstant]

theorem valueBy_of_not_inCalendar (hread : ReadsMicros read) (h : Fits64 count)
    (hout : ¬ InCalendar (microseconds unit count * 1000)) :
    (Cell.timestamp unit count).valueBy read = .null := by
  have hnone := mt (hread.isSome_iff _ (fits64_microseconds unit h)).mp hout
  rw [valueBy, Option.not_isSome_iff_eq_none.mp hnone]

theorem valueBy_of_ne_nanosecond (hread : ReadsMicros read) (hunit : unit ≠ .nanosecond)
    (h : Fits64 count) :
    if InCalendar (count * unit.nanoseconds) then
      ((Cell.timestamp unit count).valueBy read).IsInstantAt (count * unit.nanoseconds)
    else (Cell.timestamp unit count).valueBy read = .null := by
  obtain ⟨n, hexact, hmicros⟩ := exists_microseconds hunit h
  rw [← hexact]
  split
  · rename_i hin
    have hsame : microseconds unit count = n := hmicros.trans (clamp64_of_inCalendar hin)
    rw [← hsame] at hin ⊢
    exact isInstantAt_of_inCalendar unit hread h hin
  · rename_i hout
    refine valueBy_of_not_inCalendar hread h ?_
    rw [hmicros]
    exact not_inCalendar_clamp64 hout

/-- A count of nanoseconds does not reach the end of the calendar. -/
theorem isInstantAt_nanosecond (hread : ReadsMicros read) (h : Fits64 count) :
    ((Cell.timestamp .nanosecond count).valueBy read).IsInstantAt (count.tdiv 1000 * 1000) := by
  refine isInstantAt_of_inCalendar .nanosecond hread h ?_
  obtain ⟨hlow, hhigh⟩ := tdiv_mul_bounds count
  rw [fits64_iff] at h
  rw [microseconds, inCalendar_iff]
  omega

theorem valueBy_ofValue {value : Value} (hfits : value.Fits)
    (hvalue : ∀ instant, value ≠ .timestamp instant) : (ofValue value).valueBy read = value := by
  cases value with
  | null => rfl
  | bool flag => rfl
  | int number =>
    have hnumber : IntegerType.big.holds number = true := hfits
    show integerValue .big number = _
    rw [integerValue, if_neg (by decide), if_pos hnumber]
  | text content => rfl
  | timestamp instant => exact absurd rfl (hvalue instant)

/-- An instant outside a leap second is in the calendar with all of its second. -/
theorem isInstantAt_ofValue (hread : ReadsMicros read) {instant : Instant} (h : instant.IsMoment)
    (hplain : instant.IsPlain) :
    ((ofValue (.timestamp instant)).valueBy read).IsInstantAt
      (instant.sinceEpoch.fdiv 1000 * 1000) := by
  have hin : InCalendar (instant.micros * 1000) := by
    have hseconds := inCalendar_iff.mp h.inCalendar
    rw [Instant.IsPlain] at hplain
    rw [inCalendar_iff, Instant.micros]
    omega
  have hback := isInstantAt_of_inCalendar .microsecond hread (fits64_micros h).2 hin
  rw [← Instant.micros_eq]
  exact hback

end Cell

/-- What is bound comes back: instants as the microsecond they are in, everything else as it was. A
timestamp that is read is the instant that the count says, or nothing where the calendar does not
reach; nanoseconds, whose calendar never ends, are cut off toward zero. No number on the way takes
more than 64 bits. -/
theorem instants_cross :
    ReadsMicros Instant.ofMicros? ∧
      (∀ cell : Cell, cell.valueBy Instant.ofMicros? = cell.value) ∧
      ∀ read, ReadsMicros read →
        (∀ value : Value, value.Fits → (∀ instant, value ≠ .timestamp instant) →
          (Cell.ofValue value).valueBy read = value) ∧
        (∀ instant : Instant, instant.IsMoment → instant.IsPlain →
          ((Cell.ofValue (.timestamp instant)).valueBy read).IsInstantAt
            (instant.sinceEpoch.fdiv 1000 * 1000)) ∧
        (∀ unit count, Fits64 count → unit ≠ .nanosecond →
          if InCalendar (count * unit.nanoseconds) then
            ((Cell.timestamp unit count).valueBy read).IsInstantAt (count * unit.nanoseconds)
          else (Cell.timestamp unit count).valueBy read = .null) ∧
        (∀ count, Fits64 count →
          ((Cell.timestamp .nanosecond count).valueBy read).IsInstantAt
            (count.tdiv 1000 * 1000)) ∧
        (∀ instant : Instant, instant.IsMoment →
          Fits64 (instant.seconds * 1000000) ∧ Fits64 instant.micros) ∧
        ∀ unit count, Fits64 count → Fits64 (Cell.microseconds unit count) := by
  refine ⟨readsMicros_ofMicros?, Cell.valueBy_ofMicros?, fun read hread => ⟨
    fun value hfits hvalue => Cell.valueBy_ofValue hfits hvalue,
    fun instant hmoment hplain => Cell.isInstantAt_ofValue hread hmoment hplain,
    fun unit count hcount hunit => Cell.valueBy_of_ne_nanosecond hread hunit hcount,
    fun count hcount => Cell.isInstantAt_nanosecond hread hcount,
    fun instant hmoment => fits64_micros hmoment,
    fun unit count hcount => Cell.fits64_microseconds unit hcount⟩⟩

/-- Half a microsecond before 1970 is bound as the last microsecond before it, and the last second
that a count can hold is none of the calendar, although its microseconds are cut down. -/
theorem instants_cross_ends :
    Cell.value (Cell.ofValue (.int (-9223372036854775808))) = .int (-9223372036854775808) ∧
      Cell.value (Cell.ofValue (.timestamp ⟨-1, 999999500⟩)) = .timestamp ⟨-1, 999999000⟩ ∧
      Cell.value (.timestamp .second (-1)) = .timestamp ⟨-1, 0⟩ ∧
      Cell.value (.timestamp .second 9223372036854775807) = .null ∧
      Cell.value (.timestamp .nanosecond (-1500)) = .timestamp ⟨-1, 999999000⟩ ∧
      Fits64 (Cell.microseconds .second 9223372036854775807) := by
  have hread := instants_cross.1
  have hvalue := instants_cross.2.1
  obtain ⟨hsame, hinstant, hexact, hnanos, -, hfits⟩ :=
    instants_cross.2.2 Instant.ofMicros? hread
  have hlast : Fits64 9223372036854775807 := by decide
  refine ⟨?_, ?_, ?_, ?_, ?_, hfits _ _ hlast⟩
  · rw [← hvalue]
    exact hsame _ (show Fits64 _ by decide) nofun
  · rw [← hvalue]
    have hback := hinstant ⟨-1, 999999500⟩ ⟨by decide, by decide⟩ (by decide)
    exact hback.eq_timestamp (by decide) (by decide)
  · rw [← hvalue]
    have hshown := hexact .second (-1) (by decide) (by decide)
    rw [if_pos (by decide)] at hshown
    exact hshown.eq_timestamp (by decide) (by decide)
  · rw [← hvalue]
    have hshown := hexact .second 9223372036854775807 hlast (by decide)
    rwa [if_neg (by decide)] at hshown
  · rw [← hvalue]
    exact (hnanos (-1500) (by decide)).eq_timestamp (by decide) (by decide)

end Sql
end SchemaMigration
