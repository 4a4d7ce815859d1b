import SchemaMigration.Proofs.Ordering.Build

/-!
# SchemaMigration.Proofs.Ordering.ExecutionOrder

The order in which the migrations of a graph run.

Each cluster is a permutation of its component in which no edge leads backwards, and an edge never
leaves a component; so the clusters one after the other, however they are sorted, are a
permutation of the names in which no edge leads backwards.

* `Built.orderedNames_perm`, `Built.precedes_of_runsBefore`: these two facts.
* `Built.takeOrdered_eq`: handing the migrations over takes them in the order that is shown.
* `build_ok_order`: all of it for a list of migrations, with what the sweeps pass through.
-/

namespace SchemaMigration

open SchemaMigration.Digraph

/-- `a` stands before `b` in a list of names. -/
def Precedes (names : List Name) (a b : Name) : Prop := [a, b].Sublist names

theorem precedes_or_precedes {names : List Name} {a b : Name} (ha : a ∈ names) (hb : b ∈ names)
    (hab : a ≠ b) : Precedes names a b ∨ Precedes names b a := by
  obtain ⟨front, back, rfl⟩ := List.append_of_mem ha
  rcases List.mem_append.mp hb with hb | hb
  · refine .inr ?_
    exact (List.singleton_sublist.mpr hb).append (List.singleton_sublist.mpr List.mem_cons_self)
  · refine .inl ?_
    have hback : b ∈ back := (List.mem_cons.mp hb).resolve_left (Ne.symm hab)
    exact ((List.singleton_sublist.mpr hback).cons_cons a).trans (List.sublist_append_right _ _)

namespace MigrationGraph

variable {migrations : List Migration} {graph : MigrationGraph}

/-- Each cluster of a graph is what a component became. -/
theorem Built.isClusterOf (hb : Built migrations graph) {cluster : Cluster}
    (hc : cluster ∈ graph.clusters) :
    ∃ members ∈ graph.graph.components, IsClusterOf migrations graph.graph members cluster := by
  obtain ⟨clusters, hall, heq⟩ := hb.ordered
  rw [heq, List.mem_mergeSort] at hc
  have hflip := List.Forall₂.flip (R := flip (IsClusterOf migrations graph.graph)) hall
  exact exists_of_forall₂ hflip hc

theorem Built.exists_cluster (hb : Built migrations graph) {members : List Name}
    (hm : members ∈ graph.graph.components) :
    ∃ cluster ∈ graph.clusters, IsClusterOf migrations graph.graph members cluster := by
  obtain ⟨clusters, hall, heq⟩ := hb.ordered
  rw [heq]
  obtain ⟨cluster, hc, hof⟩ := exists_of_forall₂ hall hm
  exact ⟨cluster, List.mem_mergeSort.mpr hc, hof⟩

theorem Built.members_perm (hb : Built migrations graph) {members : List Name} {cluster : Cluster}
    (hm : members ∈ graph.graph.components)
    (hc : IsClusterOf migrations graph.graph members cluster) : cluster.members.Perm members := by
  obtain ⟨hr, heq⟩ := hc.rooted hb.wf hm
  rw [heq]
  exact sweep_perm hr _

theorem flatMap_members_perm {components : List (List Name)} {clusters : List Cluster}
    (h : List.Forall₂ (fun members cluster => cluster.members.Perm members) components clusters) :
    (clusters.flatMap (·.members)).Perm components.flatten := by
  induction h with
  | nil => exact .refl _
  | cons hp _ ih =>
    rw [List.flatMap_cons, List.flatten_cons]
    exact hp.append ih

/-- The clusters are permutations of the components, sorted by their keys. -/
theorem Built.ordered_perm (hb : Built migrations graph) : ∃ clusters,
    List.Forall₂ (fun members cluster => cluster.members.Perm members) graph.graph.components
      clusters ∧ graph.clusters = clusters.mergeSort fun a b => a.key ≤ b.key := by
  obtain ⟨clusters, hall, heq⟩ := hb.ordered
  refine ⟨clusters, ?_, heq⟩
  exact ((List.forall₂_and_left _ _).mpr ⟨fun _ hm => hm, hall⟩).imp
    fun members cluster ⟨hm, hc⟩ => hb.members_perm hm hc

theorem Built.orderedNames_perm (hb : Built migrations graph) :
    graph.orderedNames.Perm (migrations.map (·.name)) := by
  obtain ⟨clusters, hperm, heq⟩ := hb.ordered_perm
  rw [orderedNames, heq, ← hb.vertices_eq]
  refine ((List.mergeSort_perm clusters _).flatMap_right _).trans ?_
  exact (flatMap_members_perm hperm).trans (components_perm graph.graph)

theorem Built.orderedNames_nodup (hb : Built migrations graph) : graph.orderedNames.Nodup :=
  hb.orderedNames_perm.symm.nodup hb.names_nodup

theorem Built.precedes_of_runsBefore (hb : Built migrations graph) {a b : Name}
    (h : RunsBefore migrations a b) : Precedes graph.orderedNames a b := by
  have he : graph.graph.Edge a b := (hb.edge_iff a b).mpr h
  obtain ⟨members, hm, ha⟩ := exists_component (hb.wf.source_mem he)
  have hbm : b ∈ members := mem_component_of_neighbour hb.wf hm ha (mem_neighbours.mpr (.inl he))
  obtain ⟨cluster, hcluster, hc⟩ := hb.exists_cluster hm
  have hperm := hb.members_perm hm hc
  have hne : a ≠ b := by
    rintro rfl
    exact hb.acyclic ⟨a, .single h⟩
  have hcl : Precedes cluster.members a b := by
    rcases precedes_or_precedes (hperm.mem_iff.mpr ha) (hperm.mem_iff.mpr hbm) hne with hp | hp
    · exact hp
    · obtain ⟨hr, heq⟩ := hc.rooted hb.wf hm
      rw [heq] at hp
      exact absurd he ((sweep_ordered hr _).forall_sublist hp)
  refine List.Sublist.trans hcl ?_
  rw [orderedNames, List.flatMap_def]
  exact List.sublist_flatten_of_mem (List.mem_map_of_mem hcluster)

/-! ## Handing the migrations over -/

theorem findMigration?_filter {store : List Migration} {taken name : Name} (h : name ≠ taken) :
    findMigration? (store.filter (·.name ≠ taken)) name = findMigration? store name := by
  rw [findMigration?, findMigration?, List.find?_filter]
  congr 1
  funext m
  by_cases hm : m.name = name
  · subst hm; simp [h]
  · simp [hm]

/-- Taking migrations out of a store by distinct names finds the same ones as looking them up. -/
theorem takeByName_eq {names : List Name} (hn : names.Nodup) (store : List Migration) :
    takeByName store names = names.filterMap (findMigration? store) := by
  induction names generalizing store with
  | nil => rfl
  | cons name rest ih =>
    obtain ⟨hname, hrest⟩ := List.nodup_cons.mp hn
    rw [takeByName, List.filterMap_cons]
    cases hf : findMigration? store name with
    | none => exact ih hrest store
    | some m =>
      dsimp only
      rw [ih hrest]
      congr 1
      refine List.filterMap_congr fun other ho => findMigration?_filter ?_
      rintro rfl
      exact hname ho

theorem findMigration?_of_mem {name : Name} (h : name ∈ migrations.map (·.name)) :
    ∃ m, findMigration? migrations name = some m ∧ m.name = name := by
  obtain ⟨m, hm, rfl⟩ := List.mem_map.mp h
  cases hf : findMigration? migrations m.name with
  | none =>
    have := List.find?_eq_none.mp hf m hm
    simp at this
  | some other => exact ⟨other, rfl, by simpa using List.find?_some hf⟩

theorem map_name_filterMap_find {names : List Name}
    (h : ∀ name ∈ names, name ∈ migrations.map (·.name)) :
    (names.filterMap (findMigration? migrations)).map (·.name) = names := by
  induction names with
  | nil => rfl
  | cons name rest ih =>
    rw [List.forall_mem_cons] at h
    obtain ⟨m, hm, hname⟩ := findMigration?_of_mem h.1
    rw [List.filterMap_cons, hm]
    dsimp only
    rw [List.map_cons, ih h.2, hname]

theorem Built.orderedMigrations_eq (hb : Built migrations graph) :
    graph.orderedMigrations = graph.orderedNames.filterMap (findMigration? migrations) := by
  rw [orderedMigrations, ← hb.migrations_eq]
  rfl

theorem Built.map_name_orderedMigrations (hb : Built migrations graph) :
    graph.orderedMigrations.map (·.name) = graph.orderedNames := by
  rw [hb.orderedMigrations_eq]
  exact map_name_filterMap_find fun name hn => hb.orderedNames_perm.mem_iff.mp hn

theorem Built.takeOrdered_eq (hb : Built migrations graph) :
    graph.takeOrdered = graph.orderedMigrations := by
  rw [takeOrdered, takeByName_eq hb.orderedNames_nodup]
  rfl

/-- A list of migrations whose graph can be built runs in an order that has each name once and
keeps every constraint. The migrations that are handed over are those that are shown. While a
cluster is put in order, an edge is only crossed to a vertex that still waits for a predecessor,
and by the time that the queue is empty all members have been emitted. -/
theorem build_ok_order (h : build migrations = .ok graph) :
    graph.orderedNames.Perm (migrations.map (·.name)) ∧ graph.orderedNames.Nodup ∧
    (∀ m ∈ migrations,
      (∀ target ∈ m.parameters.runAfter, Precedes graph.orderedNames target m.name) ∧
      (∀ target ∈ m.parameters.runBefore, Precedes graph.orderedNames m.name target)) ∧
    graph.takeOrdered = graph.orderedMigrations ∧
    graph.orderedMigrations.map (·.name) = graph.orderedNames ∧
    ∀ cluster ∈ graph.clusters, ∃ members ∈ graph.graph.components,
      orderComponent migrations graph.graph members = .ok cluster ∧
      (∀ v left sweep,
        Passes graph.graph (comesFirst migrations) cluster.roots (v :: left) sweep →
          0 < graph.graph.pending sweep v) ∧
      ∃ sweep, Passes graph.graph (comesFirst migrations) cluster.roots [] sweep ∧
        sweep.queue = [] ∧ sweep.emitted = cluster.members ∧ cluster.members.Perm members := by
  have hb := built_of_build h
  refine ⟨hb.orderedNames_perm, hb.orderedNames_nodup, ?_, hb.takeOrdered_eq,
    hb.map_name_orderedMigrations, ?_⟩
  · intro m hm
    constructor
    · intro target ht
      exact hb.precedes_of_runsBefore ⟨m, hm, .inl ⟨rfl, ht⟩⟩
    · intro target ht
      exact hb.precedes_of_runsBefore ⟨m, hm, .inr ⟨rfl, ht⟩⟩
  · intro cluster hcluster
    obtain ⟨members, hm, hc⟩ := hb.isClusterOf hcluster
    obtain ⟨hr, heq⟩ := hc.rooted hb.wf hm
    refine ⟨members, hm, hc, ?_, ?_⟩
    · intro v left sweep hp
      exact hp.pending_pos hr
    · obtain ⟨sweep, hp, hq, hs⟩ := sweep_finishes hr (comesFirst migrations)
      exact ⟨sweep, hp, hq, hs.trans heq.symm, hb.members_perm hm hc⟩

/-- Four migrations in a diamond, some edges declared twice or at both ends, and a fifth. -/
def diamond : List Migration :=
  [.bare ⟨"d", by decide⟩ 0 [⟨"b", by decide⟩, ⟨"c", by decide⟩] [],
    .bare ⟨"a", by decide⟩ 1 [] [⟨"c", by decide⟩],
    .bare ⟨"e", by decide⟩ 2 [] [],
    .bare ⟨"b", by decide⟩ 3 [⟨"a", by decide⟩] [],
    .bare ⟨"c", by decide⟩ 4 [⟨"a", by decide⟩, ⟨"a", by decide⟩] []]

theorem build_ok_order_diamond : ∃ graph, build diamond = .ok graph ∧
    graph.orderedNames.Perm (diamond.map (·.name)) ∧
      Precedes graph.orderedNames ⟨"c", by decide⟩ ⟨"d", by decide⟩ := by
  have hok : (build diamond).isOk = true := by cbv
  cases h : build diamond with
  | error e => rw [h] at hok; cases hok
  | ok graph =>
    obtain ⟨hperm, -, horder, -⟩ := build_ok_order h
    have hd := horder _ (List.mem_cons_self (a := _) (l := _))
    exact ⟨graph, rfl, hperm, hd.1 _ (by decide)⟩

end MigrationGraph
end SchemaMigration
