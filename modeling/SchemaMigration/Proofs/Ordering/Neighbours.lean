import SchemaMigration.Proofs.Ordering.Clusters

/-!
# SchemaMigration.Proofs.Ordering.Neighbours

The direct neighbours of a migration.

A graph keeps each edge once, whichever declaration it came from and however often it was made, and
its two tables are read off these edges. So a name stands among the neighbours of another as often
as the edge between them stands in the graph: once or never.

* `Built.count_edges` : how often the edge between two names stands in a graph.
* `Built.count_previous`, `Built.count_next` : both tables count edges.
* `Built.previous_eq_nil_iff` : a migration has nothing before it exactly if it is a root.

`build_neighbours` puts them together.
-/

namespace SchemaMigration

open SchemaMigration.Digraph

namespace MigrationGraph

variable {migrations : List Migration} {graph : MigrationGraph}

/-! ## Sorting -/

theorem byNaturalOrder_perm (items : List Migration) : (byNaturalOrder items).Perm items :=
  List.mergeSort_perm items _

theorem byNaturalOrder_sorted (items : List Migration) :
    (byNaturalOrder items).Pairwise fun m m' => m.naturalOrder ≤ m'.naturalOrder := by
  have hsorted := List.pairwise_mergeSort (keyLe_trans Migration.naturalOrder)
    (keyLe_total Migration.naturalOrder) items
  exact hsorted.imp of_decide_eq_true

/-! ## Counting -/

/-- A graph has the edge between two names once if it is declared, and not at all otherwise. -/
theorem Built.count_edges (hb : Built migrations graph) (a b : Name) :
    (RunsBefore migrations a b → graph.graph.edges.count (a, b) = 1) ∧
    (¬ RunsBefore migrations a b → graph.graph.edges.count (a, b) = 0) := by
  constructor
  · intro h
    exact List.count_eq_one_of_mem hb.wf.edges_nodup ((hb.edge_iff a b).mpr h)
  · intro h
    exact List.count_eq_zero.mpr fun he => h ((hb.edge_iff a b).mp he)

/-- Looking up the names that a graph knows, and sorting what is found, loses none of them. -/
theorem Built.found_perm (hb : Built migrations graph) {names : List Name}
    (h : ∀ name ∈ names, name ∈ graph.graph.vertices) :
    ((byNaturalOrder (names.filterMap graph.get?)).map (·.name)).Perm names := by
  have hget : graph.get? = findMigration? migrations := by
    funext name
    rw [get?, hb.migrations_eq]
  have hfound : (names.filterMap (findMigration? migrations)).map (·.name) = names :=
    map_name_filterMap_find fun name hn => hb.vertices_eq ▸ h name hn
  have hperm := (byNaturalOrder_perm (names.filterMap graph.get?)).map (·.name)
  rw [hget] at hperm ⊢
  rwa [hfound] at hperm

theorem Built.previous_perm (hb : Built migrations graph) (name : Name) :
    ((graph.previous name).map (·.name)).Perm (graph.graph.predecessors name) :=
  hb.found_perm fun _ h => hb.wf.source_mem (mem_predecessors.mp h)

theorem Built.next_perm (hb : Built migrations graph) (name : Name) :
    ((graph.next name).map (·.name)).Perm (graph.graph.successors name) :=
  hb.found_perm fun _ h => hb.wf.target_mem (mem_successors.mp h)

theorem Built.count_previous (hb : Built migrations graph) (a b : Name) :
    ((graph.previous b).map (·.name)).count a = graph.graph.edges.count (a, b) := by
  rw [(hb.previous_perm b).count_eq, count_predecessors]

theorem Built.count_next (hb : Built migrations graph) (a b : Name) :
    ((graph.next a).map (·.name)).count b = graph.graph.edges.count (a, b) := by
  rw [(hb.next_perm a).count_eq, count_successors]

/-! ## Neighbours and clusters -/

theorem Built.mem_of_neighbour (hb : Built migrations graph) {name : Name} {m : Migration}
    (h : m ∈ graph.previous name ∨ m ∈ graph.next name) : m ∈ migrations := by
  simp only [previous, next, (byNaturalOrder_perm _).mem_iff, List.mem_filterMap] at h
  rw [← hb.migrations_eq]
  rcases h with ⟨other, -, hm⟩ | ⟨other, -, hm⟩
  · exact List.mem_of_find?_eq_some hm
  · exact List.mem_of_find?_eq_some hm

theorem Built.previous_eq_nil_iff (hb : Built migrations graph) {cluster : Cluster}
    (hc : cluster ∈ graph.clusters) {name : Name} (hname : name ∈ cluster.members) :
    graph.previous name = [] ↔ name ∈ cluster.roots := by
  have hnil : graph.previous name = [] ↔ graph.graph.predecessors name = [] := by
    rw [← List.map_eq_nil_iff (f := (·.name)), ← List.length_eq_zero_iff,
      (hb.previous_perm name).length_eq, List.length_eq_zero_iff]
  rw [hnil, (hb.describes hc).mem_roots, List.eq_nil_iff_forall_not_mem]
  simp only [hname, true_and]
  exact forall_congr' fun other => not_congr (mem_predecessors.trans (hb.edge_iff other name))

/-- The direct neighbours of the names of a graph. One name stands once among those before another
if it is declared, at either end, to run before it, and not at all otherwise; and it stands there as
often as the other stands among those after it. What is listed are migrations of the graph, sorted
by natural order. Each migration is in one cluster, and has nothing before it exactly if it is one
of the roots there. -/
theorem build_neighbours (h : build migrations = .ok graph) :
    (∀ a b,
      (RunsBefore migrations a b → ((graph.previous b).map (·.name)).count a = 1) ∧
      (¬ RunsBefore migrations a b → a ∉ (graph.previous b).map (·.name))) ∧
    (∀ a b, (a ∈ (graph.previous b).map (·.name) ↔ b ∈ (graph.next a).map (·.name)) ∧
      ((graph.previous b).map (·.name)).count a = ((graph.next a).map (·.name)).count b) ∧
    (∀ name,
      ((graph.previous name).Pairwise fun m m' => m.naturalOrder ≤ m'.naturalOrder) ∧
      ((graph.next name).Pairwise fun m m' => m.naturalOrder ≤ m'.naturalOrder)) ∧
    (∀ name, ∀ m, m ∈ graph.previous name ∨ m ∈ graph.next name → m ∈ migrations) ∧
    (∀ m ∈ migrations, ∃! cluster, cluster ∈ graph.clusters ∧ m.name ∈ cluster.members) ∧
    (∀ cluster ∈ graph.clusters, ∀ name ∈ cluster.members,
      graph.previous name = [] ↔ name ∈ cluster.roots) := by
  have hb := built_of_build h
  refine ⟨fun a b => ⟨?_, ?_⟩, fun a b => ⟨?_, ?_⟩, ?_, ?_, fun m hm => ?_, ?_⟩
  · intro hab
    rw [hb.count_previous]
    exact (hb.count_edges a b).1 hab
  · intro hab
    rw [← List.count_eq_zero, hb.count_previous]
    exact (hb.count_edges a b).2 hab
  · rw [← List.count_pos_iff, ← List.count_pos_iff, hb.count_previous, hb.count_next]
  · rw [hb.count_previous, hb.count_next]
  · intro name
    exact ⟨byNaturalOrder_sorted _, byNaturalOrder_sorted _⟩
  · intro name m hm
    exact hb.mem_of_neighbour hm
  · obtain ⟨cluster, hc, hmem⟩ := hb.exists_cluster_of_mem (List.mem_map_of_mem hm)
    exact ⟨cluster, ⟨hc, hmem⟩, fun other ⟨ho, hmem'⟩ => hb.cluster_unique ho hc hmem' hmem⟩
  · intro cluster hc name hname
    exact hb.previous_eq_nil_iff hc hname

theorem build_neighbours_diamond : ∃ graph, build diamond = .ok graph ∧
    ((graph.previous ⟨"c", by decide⟩).map (·.name)).count ⟨"a", by decide⟩ = 1 ∧
    ⟨"c", by decide⟩ ∈ (graph.next ⟨"a", by decide⟩).map (·.name) ∧
    ⟨"b", by decide⟩ ∉ (graph.previous ⟨"c", by decide⟩).map (·.name) := by
  have hok : (build diamond).isOk = true := by cbv
  cases h : build diamond with
  | error e => rw [h] at hok; cases hok
  | ok graph =>
    obtain ⟨hprevious, hnext, -⟩ := build_neighbours h
    -- the edge is declared at both ends, and twice at one of them
    have hac : RunsBefore diamond ⟨"a", by decide⟩ ⟨"c", by decide⟩ :=
      ⟨diamond[1], by decide, .inr ⟨rfl, by decide⟩⟩
    have hbc : ¬ RunsBefore diamond ⟨"b", by decide⟩ ⟨"c", by decide⟩ := by
      simp only [RunsBefore]
      decide
    have hcount := (hprevious ⟨"a", by decide⟩ ⟨"c", by decide⟩).1 hac
    refine ⟨graph, rfl, hcount, (hnext _ _).1.mp ?_, (hprevious _ _).2 hbc⟩
    rw [← List.count_pos_iff, hcount]
    exact Nat.one_pos

end MigrationGraph
end SchemaMigration
