import Mathlib.Data.Prod.Lex
import Mathlib.Data.List.Nodup

/-!
# SchemaMigration.Proofs.Ordering.Turn

Breadth-first orders, said by positions alone.

An item has predecessors along a relation. Its turn is the position of the predecessor that stands
last, together with a key of its own. In a breadth-first order the roots stand in front, and of two
other items the one with the smaller turn stands first. The positions that turns refer to are those
in the order itself; even so the rule leaves only one order.

* `lastPosition`, `turn` : the position of the last predecessor, and what decides between items.
* `BreadthFirst` : the rule.
* `BreadthFirst.idxOf_lt_idxOf` : in such an order predecessors stand before their successors.
* `BreadthFirst.eq` : two such orders of the same items are equal.
-/

namespace SchemaMigration

section Position

variable {α : Type} [DecidableEq α] (r : α → α → Prop) [DecidableRel r]

/-- The greatest position of a predecessor; 0 where there is none. -/
def lastPosition (order : List α) (v : α) : Nat :=
  ((order.filter (r · v)).map (order.idxOf ·)).max?.getD 0

/-- What decides between two items that have predecessors: where the last of these stands, and
then a key. -/
def turn {β : Type} (key : α → β) (order : List α) (v : α) : Nat ×ₗ β :=
  toLex (lastPosition r order v, key v)

variable {r} {order : List α} {u v : α} {n : Nat}

theorem idxOf_le_lastPosition (hu : u ∈ order) (h : r u v) :
    order.idxOf u ≤ lastPosition r order v := by
  refine List.le_max?_getD_of_mem (List.mem_map_of_mem (f := (order.idxOf ·)) ?_)
  simp [hu, h]

/-- Where there is a predecessor, one of them stands at the last position. -/
theorem exists_last (hu : u ∈ order) (h : r u v) :
    ∃ p ∈ order, r p v ∧ order.idxOf p = lastPosition r order v := by
  cases hmax : ((order.filter (r · v)).map (order.idxOf ·)).max? with
  | none =>
    rw [List.max?_eq_none_iff, List.map_eq_nil_iff, List.filter_eq_nil_iff] at hmax
    exact absurd (decide_eq_true h) (hmax u hu)
  | some last =>
    obtain ⟨p, hp, hlast⟩ := List.mem_map.mp (List.max?_mem hmax)
    simp only [List.mem_filter, decide_eq_true_eq] at hp
    refine ⟨p, hp.1, hp.2, ?_⟩
    rw [lastPosition, hmax, Option.getD_some, hlast]

/-- Items behind an order that are no predecessors do not matter. -/
theorem lastPosition_append {behind : List α} (h : ∀ p ∈ behind, ¬ r p v) :
    lastPosition r (order ++ behind) v = lastPosition r order v := by
  have hnone : behind.filter (r · v) = [] := by
    rw [List.filter_eq_nil_iff]
    intro p hp
    simpa using h p hp
  have hsame : (order.filter (r · v)).map (fun p => (order ++ behind).idxOf p) =
      (order.filter (r · v)).map (order.idxOf ·) :=
    List.map_congr_left fun p hp => List.idxOf_append_of_mem (List.mem_filter.mp hp).1
  rw [lastPosition, List.filter_append, hnone, List.append_nil, hsame, lastPosition]

theorem lastPosition_congr {s : α → α → Prop} [DecidableRel s] (h : ∀ a b, r a b ↔ s a b) :
    lastPosition r order v = lastPosition s order v := by
  simp only [lastPosition, h]

end Position

/-- The roots stand in front, and of two other items the one with the smaller turn stands first. -/
structure BreadthFirst {α β : Type} [DecidableEq α] [LT β] (r : α → α → Prop) [DecidableRel r]
    (key : α → β) (roots order : List α) : Prop where
  roots_first : roots <+: order
  by_turn : ∀ u ∈ order, ∀ v ∈ order, u ∉ roots → v ∉ roots →
    (order.idxOf u < order.idxOf v ↔ turn r key order u < turn r key order v)

section Rule

variable {α β : Type} [DecidableEq α] [LinearOrder β] {r : α → α → Prop} [DecidableRel r]
  {key : α → β} {roots order : List α}

/-- Every item that is no root has a predecessor in the list, and all its predecessors are in the
list; no item is its own predecessor. -/
structure Grounded (r : α → α → Prop) (roots order : List α) : Prop where
  nodup : order.Nodup
  exists_predecessor : ∀ v ∈ order, v ∉ roots → ∃ u, r u v
  predecessor_mem : ∀ {u v}, r u v → v ∈ order → u ∈ order
  no_root : ∀ {u v}, r u v → v ∉ roots
  irrefl : ∀ v ∈ order, ¬ r v v

omit [DecidableEq α] [DecidableRel r] in
theorem Grounded.perm {order' : List α} (h : Grounded r roots order) (hp : order.Perm order') :
    Grounded r roots order' where
  nodup := hp.nodup_iff.mp h.nodup
  exists_predecessor v hv := h.exists_predecessor v (hp.mem_iff.mpr hv)
  predecessor_mem hr hv := hp.mem_iff.mp (h.predecessor_mem hr (hp.mem_iff.mpr hv))
  no_root := h.no_root
  irrefl v hv := h.irrefl v (hp.mem_iff.mpr hv)

namespace BreadthFirst

/-- A list that stands by turns is in the order of turns, position by position. -/
theorem of_pairwise
    (hfirst : roots <+: order)
    (h : order.Pairwise fun u v => u ∉ roots → v ∉ roots →
      turn r key order u < turn r key order v) :
    BreadthFirst r key roots order where
  roots_first := hfirst
  by_turn := by
    have hbefore : ∀ u ∈ order, ∀ v ∈ order, u ∉ roots → v ∉ roots →
        order.idxOf u < order.idxOf v → turn r key order u < turn r key order v := by
      intro u hu v hv hur hvr hlt
      have hall := List.pairwise_iff_getElem.mp h _ _ (List.idxOf_lt_length_of_mem hu)
        (List.idxOf_lt_length_of_mem hv) hlt
      rw [List.getElem_idxOf, List.getElem_idxOf] at hall
      exact hall hur hvr
    intro u hu v hv hur hvr
    refine ⟨hbefore u hu v hv hur hvr, fun hturn => ?_⟩
    rcases Nat.lt_trichotomy (order.idxOf u) (order.idxOf v) with hlt | heq | hgt
    · exact hlt
    · obtain rfl := (List.idxOf_inj hu).mp heq
      exact absurd hturn (lt_irrefl _)
    · exact absurd hturn (lt_asymm (hbefore v hv u hu hvr hur hgt))

theorem idxOf_lt_length_iff (hf : roots <+: order) {v : α} :
    order.idxOf v < roots.length ↔ v ∈ roots := by
  obtain ⟨rest, rfl⟩ := hf
  by_cases hv : v ∈ roots
  · rw [List.idxOf_append_of_mem hv]
    exact iff_of_true (List.idxOf_lt_length_of_mem hv) hv
  · rw [List.idxOf_append_of_notMem hv]
    exact iff_of_false (by omega) hv

/-- No item stands before one of its predecessors. -/
theorem idxOf_lt_idxOf (h : BreadthFirst r key roots order) (hg : Grounded r roots order) {u v : α}
    (hr : r u v) (hv : v ∈ order) : order.idxOf u < order.idxOf v := by
  by_contra hlt
  -- a predecessor that stands behind has itself a predecessor that stands behind it, and so on
  induction hn : order.length - order.idxOf u using Nat.strong_induction_on generalizing u v with
  | _ n ih =>
    have hu := hg.predecessor_mem hr hv
    have hne : order.idxOf v ≠ order.idxOf u := by
      intro heq
      obtain rfl := (List.idxOf_inj hv).mp heq
      exact hg.irrefl v hv hr
    have hpos : order.idxOf u < order.length := List.idxOf_lt_length_of_mem hu
    by_cases hroot : u ∈ roots
    · have hfront := (idxOf_lt_length_iff h.roots_first).mpr hroot
      have hback := mt (idxOf_lt_length_iff h.roots_first).mp (hg.no_root hr)
      omega
    · have hturn := (h.by_turn v hv u hu (hg.no_root hr) hroot).mp (by omega)
      have hle : lastPosition r order v ≤ lastPosition r order u := by
        rcases Prod.Lex.lt_iff.mp hturn with hlt' | ⟨heq, -⟩
        · exact hlt'.le
        · exact heq.le
      obtain ⟨w, hw⟩ := hg.exists_predecessor u hu hroot
      obtain ⟨p, hp, hpu, hlast⟩ := exists_last (hg.predecessor_mem hw hu) hw
      have hbehind := idxOf_le_lastPosition hu hr
      have hpne : order.idxOf p ≠ order.idxOf u := by
        intro heq
        obtain rfl := (List.idxOf_inj hp).mp heq
        exact hg.irrefl p hp hpu
      exact ih (order.length - order.idxOf p) (by omega) hpu hu (by omega) rfl

omit [LinearOrder β] [DecidableRel r] in
/-- Where two orders agree in front of a position, what stands there has one position. -/
theorem idxOf_eq_of_agree {order' : List α} (hn : order'.Nodup) {n : Nat}
    (hsame : ∀ i < n, order[i]? = order'[i]?) {v : α} (hv : v ∈ order)
    (hlt : order.idxOf v < n) : order'.idxOf v = order.idxOf v := by
  have hget : order'[order.idxOf v]? = some v := by
    rw [← hsame _ hlt]
    exact List.getElem?_idxOf hv
  obtain ⟨hi, hgeti⟩ := List.getElem?_eq_some_iff.mp hget
  have hidx := hn.idxOf_getElem _ hi
  rwa [hgeti] at hidx

/-- Where two orders agree in front of a position, the item that one of them has there has the same
turn in both: its predecessors stand in front. -/
theorem turn_eq (h : BreadthFirst r key roots order) (hg : Grounded r roots order)
    {order' : List α} (hp : order.Perm order') {n : Nat}
    (hsame : ∀ i < n, order[i]? = order'[i]?) {v : α} (hv : v ∈ order) (hvn : order.idxOf v = n)
    (hroot : v ∉ roots) : turn r key order v = turn r key order' v := by
  have hidx : ∀ p, r p v → order'.idxOf p = order.idxOf p := by
    intro p hpv
    have hlt := h.idxOf_lt_idxOf hg hpv hv
    exact idxOf_eq_of_agree (hg.perm hp).nodup hsame (hg.predecessor_mem hpv hv) (by omega)
  obtain ⟨u, hu⟩ := hg.exists_predecessor v hv hroot
  have hmem := hg.predecessor_mem hu hv
  obtain ⟨p, hpm, hpv, hlast⟩ := exists_last hmem hu
  obtain ⟨q, hqm, hqv, hlast'⟩ := exists_last (hp.mem_iff.mp hmem) hu
  have hle := idxOf_le_lastPosition (hp.mem_iff.mp hpm) hpv
  have hle' := idxOf_le_lastPosition (hp.mem_iff.mpr hqm) hqv
  rw [hidx p hpv] at hle
  rw [hidx q hqv] at hlast'
  have heq : lastPosition r order v = lastPosition r order' v := by omega
  rw [turn, turn, heq]

/-- Of two orders that agree in front of a position, neither has anything else there than the
other: it would come before that by its turn, and the other way round. -/
theorem eq_of_agree (h : BreadthFirst r key roots order) (hg : Grounded r roots order)
    {order' : List α} (h' : BreadthFirst r key roots order') (hp : order.Perm order') {n : Nat}
    (hsame : ∀ i < n, order[i]? = order'[i]?) {u v : α} (hu : u ∈ order) (hv : v ∈ order')
    (hun : order.idxOf u = n) (hvn : order'.idxOf v = n) : u = v := by
  have hg' := hg.perm hp
  have hv' := hp.mem_iff.mpr hv
  have hu' := hp.mem_iff.mp hu
  by_cases hroot : n < roots.length
  · -- among the roots, which both orders have in front
    obtain ⟨rest, rfl⟩ := h.roots_first
    obtain ⟨rest', rfl⟩ := h'.roots_first
    have hgetu := List.getElem?_idxOf hu
    have hgetv := List.getElem?_idxOf hv
    rw [hun, List.getElem?_append_left hroot] at hgetu
    rw [hvn, List.getElem?_append_left hroot] at hgetv
    exact Option.some.inj (hgetu.symm.trans hgetv)
  · by_contra hne
    have hur : u ∉ roots := fun hr =>
      hroot (hun ▸ (idxOf_lt_length_iff h.roots_first).mpr hr)
    have hvr : v ∉ roots := fun hr =>
      hroot (hvn ▸ (idxOf_lt_length_iff h'.roots_first).mpr hr)
    have huv : order.idxOf u < order.idxOf v := by
      rcases Nat.lt_trichotomy (order.idxOf v) n with hlt | heq | hgt
      · have := idxOf_eq_of_agree hg'.nodup hsame hv' hlt
        omega
      · exact absurd ((List.idxOf_inj hu).mp (hun.trans heq.symm)) hne
      · omega
    have hvu : order'.idxOf v < order'.idxOf u := by
      rcases Nat.lt_trichotomy (order'.idxOf u) n with hlt | heq | hgt
      · have := idxOf_eq_of_agree hg.nodup (fun i hi => (hsame i hi).symm) hu' hlt
        omega
      · exact absurd ((List.idxOf_inj hv).mp (hvn.trans heq.symm)) (Ne.symm hne)
      · omega
    have hturn := (h.by_turn u hu v hv' hur hvr).mp huv
    have hturn' := (h'.by_turn v hv u hu' hvr hur).mp hvu
    rw [h.turn_eq hg hp hsame hu hun hur,
      ← h'.turn_eq hg' hp.symm (fun i hi => (hsame i hi).symm) hv hvn hvr] at hturn
    exact lt_asymm hturn hturn'

/-- The rule leaves one order. -/
theorem eq (h : BreadthFirst r key roots order) (hg : Grounded r roots order) {order' : List α}
    (h' : BreadthFirst r key roots order') (hp : order.Perm order') : order = order' := by
  refine List.ext_getElem? fun n => ?_
  induction n using Nat.strong_induction_on with
  | _ n ih =>
    by_cases hn : n < order.length
    · have hn' : n < order'.length := hp.length_eq ▸ hn
      rw [List.getElem?_eq_getElem hn, List.getElem?_eq_getElem hn']
      exact congrArg some (h.eq_of_agree hg h' hp ih (List.getElem_mem hn) (List.getElem_mem hn')
        (hg.nodup.idxOf_getElem n hn) ((hg.perm hp).nodup.idxOf_getElem n hn'))
    · have hn' : order'.length ≤ n := by
        rw [← hp.length_eq]
        omega
      rw [List.getElem?_eq_none (by omega), List.getElem?_eq_none hn']

theorem congr {s : α → α → Prop} [DecidableRel s] (h : ∀ a b, r a b ↔ s a b) :
    BreadthFirst r key roots order ↔ BreadthFirst s key roots order := by
  have hturn : ∀ v, turn r key order v = turn s key order v := fun v => by
    rw [turn, turn, lastPosition_congr h]
  refine ⟨fun hr => ⟨hr.roots_first, ?_⟩, fun hs => ⟨hs.roots_first, ?_⟩⟩
  · simpa only [hturn] using hr.by_turn
  · simpa only [hturn] using hs.by_turn

end BreadthFirst
end Rule
end SchemaMigration
