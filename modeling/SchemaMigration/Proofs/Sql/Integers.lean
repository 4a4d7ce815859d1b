import SchemaMigration.Proofs.Sql.Instants

/-!
# SchemaMigration.Proofs.Sql.Integers

Integers on their way out of the database.

A number that 64 bits hold is read as itself, whatever the type of its cell, and any other as its
digits. The widest unsigned type is left out of this: its numbers come as a text for people, small
ones as well.

* `Spells` : digits in base ten, without a zero in front, and their number.
* `IsDecimal` : the text of a number in base ten.
* `isDecimal_toString`, `IsDecimal.inj` : each number has such a text, and no two have the same.
* `IntegerType.IsWide` : the types with numbers that 64 bits do not hold.
* `Cell.integerValue_of_ne`, `Cell.integerValue_unsignedHuge` : how integer cells are read.

`integers_read` : what is read of every integer cell, and where a number is found in a row.
-/

namespace SchemaMigration
namespace Sql

/-! ## Digits -/

/-- Digits in base ten, without a zero in front, and their number. -/
structure Spells (digits : List Char) (n : Nat) : Prop where
  ne_nil : digits ≠ []
  isDigit : ∀ c ∈ digits, c.isDigit = true
  number : Nat.ofDigitChars 10 digits 0 = n
  head : digits.head? = some '0' → digits = ['0']

/-- The text of a number in base ten, behind a sign if it is negative. -/
def IsDecimal (n : Int) (text : String) : Prop :=
  ∃ digits, Spells digits n.natAbs ∧ text.toList = (if n < 0 then ['-'] else []) ++ digits

theorem digitChar_eq_zero {n : Nat} (h : n < 10) : n.digitChar = '0' ↔ n = 0 := by
  revert n
  decide

/-- A number of two digits or more begins as its tenth does. -/
theorem head?_toDigits {n : Nat} (h : 10 ≤ n) :
    (Nat.toDigits 10 n).head? = (Nat.toDigits 10 (n / 10)).head? := by
  have hsplit : Nat.toDigits 10 (n / 10) ++ Nat.toDigits 10 (n % 10) = Nat.toDigits 10 n := by
    rw [Nat.toDigits_append_toDigits (by omega) (by omega) (by omega)]
    congr 1
    omega
  rw [← hsplit, List.head?_append]
  cases hfront : Nat.toDigits 10 (n / 10) with
  | nil => exact absurd hfront Nat.toDigits_ne_nil
  | cons c rest => rfl

theorem head?_toDigits_ne_zero {n : Nat} (h : 0 < n) : (Nat.toDigits 10 n).head? ≠ some '0' := by
  induction n using Nat.strongRecOn with
  | ind n ih =>
    by_cases hn : n < 10
    · have hzero := mt (digitChar_eq_zero hn).mp (by omega)
      simpa [Nat.toDigits_of_lt_base hn] using hzero
    · rw [head?_toDigits (by omega)]
      exact ih (n / 10) (by omega) (by omega)

theorem spells_toDigits (n : Nat) : Spells (Nat.toDigits 10 n) n where
  ne_nil := Nat.toDigits_ne_nil
  isDigit c hc := Nat.isDigit_of_mem_toDigits (by omega) (by omega) hc
  number := Nat.ofDigitChars_toDigits (by omega) (by omega)
  head h := by
    rcases Nat.eq_zero_or_pos n with rfl | hn
    · simp
    · exact absurd h (head?_toDigits_ne_zero hn)

theorem isDecimal_toString (n : Int) : IsDecimal n (toString n) := by
  cases n with
  | ofNat m =>
    refine ⟨Nat.toDigits 10 m, spells_toDigits m, ?_⟩
    have hsign : ¬ Int.ofNat m < 0 := Int.not_lt.mpr (Int.natCast_nonneg m)
    rw [if_neg hsign]
    exact Nat.toList_repr
  | negSucc m =>
    refine ⟨Nat.toDigits 10 (m + 1), spells_toDigits (m + 1), ?_⟩
    have hsign : Int.negSucc m < 0 := by omega
    rw [if_pos hsign]
    show ("-" ++ (m + 1).repr).toList = _
    simp

/-- A sign is no digit. -/
theorem Spells.cons_minus_ne {digits digits' : List Char} {n : Nat} (h : Spells digits n) :
    digits ≠ '-' :: digits' := by
  rintro rfl
  have hminus := h.isDigit '-' List.mem_cons_self
  revert hminus
  decide

theorem Spells.inj {digits : List Char} {m n : Nat} (h : Spells digits m) (h' : Spells digits n) :
    m = n := h.number.symm.trans h'.number

/-- The number can be read off its text. -/
theorem IsDecimal.inj {text : String} {m n : Int} (h : IsDecimal m text) (h' : IsDecimal n text) :
    m = n := by
  obtain ⟨digits, hm, htext⟩ := h
  obtain ⟨digits', hn, htext'⟩ := h'
  rw [htext] at htext'
  by_cases hsm : m < 0 <;> by_cases hsn : n < 0 <;> simp [hsm, hsn] at htext'
  · subst htext'
    have hsame := hm.inj hn
    omega
  · exact absurd htext'.symm hn.cons_minus_ne
  · exact absurd htext' hm.cons_minus_ne
  · subst htext'
    have hsame := hm.inj hn
    omega

/-! ## Types -/

/-- A type of more than 64 bits, or of 64 bits without a sign. -/
def IntegerType.IsWide (type : IntegerType) : Prop :=
  type = .huge ∨ type = .unsignedBig ∨ type = .unsignedHuge

theorem IntegerType.holds_iff {type : IntegerType} {n : Int} :
    type.holds n = true ↔
      if type.isSigned then n < Nat.pow 2 (type.bits - 1) ∧ -(Nat.pow 2 (type.bits - 1) : Int) ≤ n
      else 0 ≤ n ∧ n < Nat.pow 2 type.bits := by
  rw [holds]
  split
  · rw [Bool.and_eq_true, decide_eq_true_eq, decide_eq_true_eq]
  · rw [Bool.and_eq_true, decide_eq_true_eq, decide_eq_true_eq]

theorem fits64_of_holds {type : IntegerType} {n : Int} (hwide : ¬ type.IsWide)
    (h : type.holds n = true) : Fits64 n := by
  rw [IntegerType.holds_iff] at h
  rw [fits64_iff]
  cases type <;> simp [IntegerType.IsWide] at hwide <;>
    simp [IntegerType.isSigned, IntegerType.bits] at h <;> omega

theorem IntegerType.isWide_iff {type : IntegerType} :
    type.IsWide ↔ ∃ n, type.holds n = true ∧ ¬ Fits64 n := by
  constructor
  · intro hwide
    refine ⟨9223372036854775808, ?_, by decide⟩
    rcases hwide with rfl | rfl | rfl <;> decide
  · rintro ⟨n, h, hfits⟩
    exact Classical.byContradiction fun hwide => hfits (fits64_of_holds hwide h)

namespace Cell

theorem integerValue_of_ne {type : IntegerType} (htype : type ≠ .unsignedHuge) (n : Int) :
    (Cell.integer type n).value = if Fits64 n then .int n else .text (toString n) := by
  rw [value, integerValue, if_neg htype]
  rfl

theorem integerValue_unsignedHuge (n : Int) :
    (Cell.integer .unsignedHuge n).value = .text ("UHugeInt(" ++ toString n ++ ")") := by
  simp [value, integerValue, described, IntegerType.name]

end Cell

theorem Row.int_of_cell {row : Row} {column : Nat} {value : Value}
    (h : row.cells[column]? = some value) :
    (∀ n, value = .int n → row.int column = .ok n) ∧
    (∀ text, value = .text text → row.int column = .error ⟨column, .int, .value value⟩) := by
  refine ⟨?_, ?_⟩
  · rintro n rfl
    simp [Row.int, Row.read, Row.get, h]
  · rintro text rfl
    simp [Row.int, Row.read, Row.get, h]

/-- A cell of every integer type but the widest unsigned one is read as its number if 64 bits hold
it, and as the text of its digits if they do not, which only the wide types let happen. A cell of
the widest unsigned type is read as a text that names the type, whether its number is small or not.
So a number is found in a row where 64 bits hold it and the cell is of another type, and a complaint
about the cell anywhere else. -/
theorem integers_read {type : IntegerType} {n : Int} (h : type.holds n = true) :
    (type ≠ .unsignedHuge → Fits64 n → (Cell.integer type n).value = .int n) ∧
    (type ≠ .unsignedHuge → ¬ Fits64 n →
      ∃ text, IsDecimal n text ∧ (Cell.integer type n).value = .text text) ∧
    (type = .unsignedHuge → ∃ text, IsDecimal n text ∧
      (Cell.integer type n).value = .text ("UHugeInt(" ++ text ++ ")")) ∧
    (¬ Fits64 n → type.IsWide) ∧
    ∀ (row : Row) (column : Nat), row.cells[column]? = some (Cell.integer type n).value →
      row.int column =
        if type ≠ .unsignedHuge ∧ Fits64 n then .ok n
        else .error ⟨column, .int, .value (Cell.integer type n).value⟩ := by
  refine ⟨?_, ?_, ?_, ?_, ?_⟩
  · intro htype hfits
    rw [Cell.integerValue_of_ne htype, if_pos hfits]
  · intro htype hfits
    refine ⟨toString n, isDecimal_toString n, ?_⟩
    rw [Cell.integerValue_of_ne htype, if_neg hfits]
  · rintro rfl
    exact ⟨toString n, isDecimal_toString n, Cell.integerValue_unsignedHuge n⟩
  · intro hfits
    exact IntegerType.isWide_iff.mpr ⟨n, h, hfits⟩
  · intro row column hcell
    obtain ⟨hint, htext⟩ := Row.int_of_cell hcell
    by_cases htype : type = .unsignedHuge
    · subst htype
      rw [if_neg (fun hand => hand.1 rfl)]
      exact htext _ (Cell.integerValue_unsignedHuge n)
    · by_cases hfits : Fits64 n
      · rw [if_pos ⟨htype, hfits⟩]
        exact hint n (by rw [Cell.integerValue_of_ne htype, if_pos hfits])
      · rw [if_neg (fun hand => hfits hand.2)]
        exact htext (toString n) (by rw [Cell.integerValue_of_ne htype, if_neg hfits])

/-- The last number of 64 bits and the ones next to their ends, in the types that reach so far. -/
theorem integers_read_ends :
    (Cell.integer .unsignedBig 9223372036854775807).value = .int 9223372036854775807 ∧
    (∃ text, IsDecimal 9223372036854775808 text ∧
      (Cell.integer .unsignedBig 9223372036854775808).value = .text text) ∧
    (Cell.integer .huge (-9223372036854775808)).value = .int (-9223372036854775808) ∧
    (∃ text, IsDecimal (-9223372036854775809) text ∧
      (Cell.integer .huge (-9223372036854775809)).value = .text text) ∧
    (Row.mk [(Cell.integer .tiny (-128)).value]).int 0 = .ok (-128) := by
  have hlast : IntegerType.unsignedBig.holds 9223372036854775807 = true := by decide
  have hnext : IntegerType.unsignedBig.holds 9223372036854775808 = true := by decide
  have hfirst : IntegerType.huge.holds (-9223372036854775808) = true := by decide
  have hbefore : IntegerType.huge.holds (-9223372036854775809) = true := by decide
  have hsmall : IntegerType.tiny.holds (-128) = true := by decide
  refine ⟨(integers_read hlast).1 (by decide) (by decide),
    (integers_read hnext).2.1 (by decide) (by decide),
    (integers_read hfirst).1 (by decide) (by decide),
    (integers_read hbefore).2.1 (by decide) (by decide), ?_⟩
  obtain ⟨-, -, -, -, hrow⟩ := integers_read hsmall
  exact hrow ⟨[_]⟩ 0 rfl

/-- A number of the widest unsigned type is lost, although 64 bits hold it. -/
theorem not_integers_kept :
    ¬ ∀ (type : IntegerType) (n : Int), type.holds n = true → Fits64 n →
      (Cell.integer type n).value = .int n ∧
        (Row.mk [(Cell.integer type n).value]).int 0 = .ok n := by
  intro hkept
  have hfive := (hkept .unsignedHuge 5 (by decide) (by decide)).1
  rw [Cell.integerValue_unsignedHuge] at hfive
  cases hfive

end Sql
end SchemaMigration
