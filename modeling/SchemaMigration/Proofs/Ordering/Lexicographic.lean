import Mathlib.Data.List.Sort
import Mathlib.Data.String.Basic

/-!
# SchemaMigration.Proofs.Ordering.Lexicographic

Pairs of a number and a text in order: by the number, and by the text where that is equal. The log
is in this order, and so are roots and successors.

* `orderLe` : the order, which is total.
* `mergeSort_orderLe_congr` : to sort a list it does not matter how it was arranged.
-/

namespace SchemaMigration

/-- By number, and by text where that is equal. -/
def orderLe (a b : Int × String) : Bool :=
  a.1 < b.1 || (a.1 == b.1 && decide (a.2 ≤ b.2))

theorem orderLe_iff {a b : Int × String} :
    orderLe a b = true ↔ a.1 < b.1 ∨ a.1 = b.1 ∧ a.2 ≤ b.2 := by
  simp [orderLe]

theorem orderLe_trans (a b c : Int × String) (hab : orderLe a b = true)
    (hbc : orderLe b c = true) : orderLe a c = true := by
  rw [orderLe_iff] at hab hbc ⊢
  rcases hab with hab | ⟨hab, hab'⟩ <;> rcases hbc with hbc | ⟨hbc, hbc'⟩
  · exact .inl (hab.trans hbc)
  · exact .inl (hbc ▸ hab)
  · exact .inl (hab ▸ hbc)
  · exact .inr ⟨hab.trans hbc, hab'.trans hbc'⟩

theorem orderLe_total (a b : Int × String) : (orderLe a b || orderLe b a) = true := by
  rw [Bool.or_eq_true, orderLe_iff, orderLe_iff]
  rcases lt_trichotomy a.1 b.1 with h | h | h
  · exact .inl (.inl h)
  · rcases le_total a.2 b.2 with h' | h'
    · exact .inl (.inr ⟨h, h'⟩)
    · exact .inr (.inr ⟨h.symm, h'⟩)
  · exact .inr (.inl h)

theorem orderLe_antisymm {a b : Int × String} (hab : orderLe a b = true)
    (hba : orderLe b a = true) : a = b := by
  rw [orderLe_iff] at hab hba
  have hfst : a.1 = b.1 := by omega
  have hsnd : a.2 = b.2 := by
    rcases hab with hab | ⟨-, hab⟩
    · omega
    rcases hba with hba | ⟨-, hba⟩
    · omega
    exact le_antisymm hab hba
  exact Prod.ext hfst hsnd

/-- A list has one sorted permutation. -/
theorem mergeSort_orderLe_eq {l l' : List (Int × String)} (hp : l.Perm l')
    (hs : l'.Pairwise fun a b => orderLe a b = true) : l.mergeSort orderLe = l' :=
  ((List.mergeSort_perm l orderLe).trans hp).eq_of_pairwise
    (fun _ _ _ _ hab hba => orderLe_antisymm hab hba)
    (List.pairwise_mergeSort orderLe_trans orderLe_total l) hs

theorem mergeSort_orderLe_congr {l l' : List (Int × String)} (hp : l.Perm l') :
    l.mergeSort orderLe = l'.mergeSort orderLe :=
  mergeSort_orderLe_eq (hp.trans (List.mergeSort_perm l' orderLe).symm)
    (List.pairwise_mergeSort orderLe_trans orderLe_total l')

end SchemaMigration
