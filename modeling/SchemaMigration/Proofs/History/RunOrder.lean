import SchemaMigration.Proofs.History.StoredEntry
import SchemaMigration.Proofs.Ordering.Lexicographic

/-!
# SchemaMigration.Proofs.History.RunOrder

The order of the entries of a log: by run order, and by name where that is equal.

* `namesByOrder` : the names of stored entries in this order.
* `Placed` : every run order is the position of the entry's name in a list of names.
* `inPlace` : entries moved to these positions.

`Placed.namesByOrder` : entries in their places come in the order of the list.
-/

namespace SchemaMigration

open Sql Database

def StoredEntry.place (e : StoredEntry) : Int × String := (e.runOrder, e.name)

def namesByOrder (entries : List StoredEntry) : List String :=
  ((entries.map StoredEntry.place).mergeSort orderLe).map (·.2)

variable {names : List String} {entries : List StoredEntry}

theorem namesByOrder_perm (entries : List StoredEntry) :
    (namesByOrder entries).Perm (entries.map (·.name)) := by
  have hperm := (List.mergeSort_perm (entries.map StoredEntry.place) orderLe).map (·.2)
  rw [List.map_map] at hperm
  exact hperm

/-! ## Places -/

/-- Every run order is the position of the entry's name. -/
def Placed (names : List String) (entries : List StoredEntry) : Prop :=
  ∀ e ∈ entries, e.name ∈ names ∧ e.runOrder = names.idxOf e.name

def inPlace (names : List String) (entries : List StoredEntry) : List StoredEntry :=
  entries.map fun e => { e with runOrder := names.idxOf e.name }

theorem names_inPlace (names : List String) (entries : List StoredEntry) :
    (inPlace names entries).map (·.name) = entries.map (·.name) := by
  rw [inPlace, List.map_map]
  rfl

theorem placed_inPlace (h : ∀ e ∈ entries, e.name ∈ names) :
    Placed names (inPlace names entries) := by
  intro e he
  obtain ⟨old, hold, rfl⟩ := List.mem_map.mp he
  exact ⟨h old hold, rfl⟩

theorem pairwise_idxOf (hn : names.Nodup) :
    names.Pairwise fun a b => names.idxOf a < names.idxOf b := by
  rw [List.pairwise_iff_getElem]
  intro i j hi hj hij
  rw [hn.idxOf_getElem i hi, hn.idxOf_getElem j hj]
  exact hij

theorem Placed.namesByOrder (h : Placed names entries) (hn : names.Nodup)
    (hd : (entries.map (·.name)).Nodup) :
    namesByOrder entries = names.filter (· ∈ entries.map (·.name)) := by
  let kept := names.filter (· ∈ entries.map (·.name))
  let places := kept.map fun name => ((names.idxOf name : Int), name)
  have hsorted : places.Pairwise fun a b => orderLe a b = true := by
    refine List.pairwise_map.mpr (((pairwise_idxOf hn).filter _).imp fun {a b} hab => ?_)
    exact orderLe_iff.mpr (.inl (Int.ofNat_lt.mpr hab))
  have hperm : (entries.map StoredEntry.place).Perm places := by
    have hplaces : places.Nodup :=
      (hn.filter _).map fun a b hab => congrArg Prod.snd hab
    have hentries : (entries.map StoredEntry.place).Nodup := by
      refine List.Nodup.of_map (·.2) ?_
      rw [List.map_map]
      exact hd
    refine (List.perm_ext_iff_of_nodup hentries hplaces).mpr fun place => ?_
    constructor
    · intro hmem
      obtain ⟨e, he, rfl⟩ := List.mem_map.mp hmem
      obtain ⟨hname, horder⟩ := h e he
      refine List.mem_map.mpr ⟨e.name, ?_, by rw [StoredEntry.place, horder]⟩
      exact List.mem_filter.mpr ⟨hname, decide_eq_true (List.mem_map_of_mem he)⟩
    · intro hmem
      obtain ⟨name, hname, rfl⟩ := List.mem_map.mp hmem
      obtain ⟨e, he, rfl⟩ := List.mem_map.mp (of_decide_eq_true (List.mem_filter.mp hname).2)
      exact List.mem_map.mpr ⟨e, he, by rw [StoredEntry.place, (h e he).2]⟩
  rw [SchemaMigration.namesByOrder, mergeSort_orderLe_eq hperm hsorted, List.map_map]
  exact List.map_id _

theorem Placed.runOrder_nodup (h : Placed names entries) (hd : (entries.map (·.name)).Nodup) :
    (entries.map (·.runOrder)).Nodup := by
  rw [List.Nodup, List.pairwise_map] at hd ⊢
  refine hd.imp_of_mem fun {a b} ha hb hne heq => hne ?_
  rw [(h a ha).2, (h b hb).2, Int.ofNat_inj] at heq
  have ha' := List.idxOf_lt_length_of_mem (h a ha).1
  have hb' := List.idxOf_lt_length_of_mem (h b hb).1
  rw [← List.getElem_idxOf ha', ← List.getElem_idxOf hb']
  simp only [heq]

end SchemaMigration
