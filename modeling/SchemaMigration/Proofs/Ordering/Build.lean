import Mathlib.Data.List.Permutation
import SchemaMigration.Proofs.Ordering.Component
import SchemaMigration.Proofs.Ordering.Declaration
import SchemaMigration.Proofs.Ordering.RootSearch
import SchemaMigration.Proofs.Ordering.Sweep
import SchemaMigration.Proofs.Ordering.Walk

/-!
# SchemaMigration.Proofs.Ordering.Build

What comes of building a graph.

* `MigrationGraph.Built`: what holds of a graph that was built from a list of migrations.
* `build_cases`: the four outcomes, each with what it says about the list.
* `build_diagnosis`: each error arises exactly when the list has the fault that it names and none
  of those that are looked for before it, and a reported cycle is one.
-/

namespace SchemaMigration

open SchemaMigration.Digraph

variable {migrations : List Migration} {g : Digraph Name}

theorem exists_of_forall₂ {α β : Type} {r : α → β → Prop} {as : List α} {bs : List β}
    (h : List.Forall₂ r as bs) {a : α} (ha : a ∈ as) : ∃ b ∈ bs, r a b := by
  induction h with
  | nil => cases ha
  | cons hr _ ih =>
    rcases List.mem_cons.mp ha with rfl | ha
    · exact ⟨_, List.mem_cons_self, hr⟩
    · obtain ⟨b, hb, hab⟩ := ih ha
      exact ⟨b, List.mem_cons_of_mem _ hb, hab⟩

/-- The cluster that a component becomes. -/
def IsClusterOf (migrations : List Migration) (g : Digraph Name) (members : List Name)
    (cluster : Cluster) : Prop :=
  orderComponent migrations g members = .ok cluster

theorem orderComponents_eq (migrations : List Migration) (g : Digraph Name)
    (components : List (List Name)) :
    (∃ clusters, orderComponents migrations g components = .ok clusters ∧
      List.Forall₂ (IsClusterOf migrations g) components clusters) ∨
    ∃ members ∈ components, ∃ walk, g.roots members = .error walk ∧
      orderComponents migrations g components = .error walk := by
  induction components with
  | nil => exact .inl ⟨[], rfl, .nil⟩
  | cons members rest ih =>
    cases hc : orderComponent migrations g members with
    | error walk =>
      refine .inr ⟨members, List.mem_cons_self, walk, ?_, by rw [orderComponents, hc]⟩
      rw [orderComponent] at hc
      split at hc
      · rename_i hroots
        cases hc
        exact hroots
      · cases hc
    | ok cluster =>
      rcases ih with ⟨clusters, hok, hall⟩ | ⟨other, ho, walk, hroots, herr⟩
      · exact .inl ⟨cluster :: clusters, by rw [orderComponents, hc, hok], .cons hc hall⟩
      · refine .inr ⟨other, List.mem_cons_of_mem members ho, walk, hroots, ?_⟩
        rw [orderComponents, hc, herr]

/-- The roots and the members of a cluster are those of its component, in order. -/
theorem IsClusterOf.rooted (wf : g.WellFormed) {members : List Name} {cluster : Cluster}
    (hm : members ∈ g.components) (h : IsClusterOf migrations g members cluster) :
    Rooted g members cluster.roots ∧
      cluster.members = g.sweep (comesFirst migrations) cluster.roots members.length := by
  rw [IsClusterOf, orderComponent] at h
  split at h
  · cases h
  · rename_i found hroots
    cases h
    have hsource : ∀ {u v}, g.Edge u v → v ∈ members → u ∈ members := fun he hv =>
      mem_component_of_neighbour wf hm hv (mem_neighbours.mpr (.inr he))
    obtain ⟨hacc, hn, hmem⟩ := roots_ok wf.vertices_nodup hsource hroots
    have hsort := List.mergeSort_perm found (comesFirst migrations)
    refine ⟨⟨component_nodup wf.vertices_nodup hm, hsource, ?_, hacc, hsort.symm.nodup hn, ?_⟩, rfl⟩
    · intro u v he hu
      exact mem_component_of_neighbour wf hm hu (mem_neighbours.mpr (.inl he))
    · intro v
      rw [hsort.mem_iff, hmem]

/-- What holds of a graph that was built from a list of migrations. -/
structure MigrationGraph.Built (migrations : List Migration) (graph : MigrationGraph) : Prop where
  names_nodup : (migrations.map (·.name)).Nodup
  known : Known migrations
  migrations_eq : graph.migrations = migrations
  vertices_eq : graph.graph.vertices = migrations.map (·.name)
  wf : graph.graph.WellFormed
  edge_iff : ∀ a b, graph.graph.Edge a b ↔ RunsBefore migrations a b
  ordered : ∃ clusters, List.Forall₂ (IsClusterOf migrations graph.graph)
    graph.graph.components clusters ∧
      graph.clusters = clusters.mergeSort fun a b => a.key ≤ b.key

theorem wellFormed_ofDeclared {edges : List (Name × Name)}
    (hn : (migrations.map (·.name)).Nodup) (hknown : Known migrations)
    (hedges : ∀ a b, (a, b) ∈ edges ↔ RunsBefore migrations a b) :
    (Digraph.ofDeclared (migrations.map (·.name)) edges).WellFormed ∧
      ∀ a b, (Digraph.ofDeclared (migrations.map (·.name)) edges).Edge a b ↔
        RunsBefore migrations a b := by
  have hedge : ∀ a b, (Digraph.ofDeclared (migrations.map (·.name)) edges).Edge a b ↔
      RunsBefore migrations a b := by
    intro a b
    rw [← hedges, Edge, ofDeclared, List.mem_eraseDups]
  refine ⟨⟨hn, nodup_eraseDups _, ?_, ?_⟩, hedge⟩
  · intro a b he
    obtain ⟨m, hm, ⟨-, ha⟩ | ⟨rfl, -⟩⟩ := (hedge a b).mp he
    · exact hknown m hm .runAfter a ha
    · exact List.mem_map_of_mem hm
  · intro a b he
    obtain ⟨m, hm, ⟨rfl, -⟩ | ⟨-, hb⟩⟩ := (hedge a b).mp he
    · exact List.mem_map_of_mem hm
    · exact hknown m hm .runBefore b hb

namespace MigrationGraph

/-- Building ends in one of four ways. -/
theorem build_cases (migrations : List Migration) :
    (∃ name, build migrations = .error (.duplicateMigration name) ∧
      ¬ (migrations.map (·.name)).Nodup) ∨
    ((migrations.map (·.name)).Nodup ∧ ¬ Known migrations ∧ ∃ name constraint target,
      build migrations = .error (.unknownReference name constraint target)) ∨
    ((migrations.map (·.name)).Nodup ∧ Known migrations ∧ ∃ walk,
      build migrations = .error (.circularDependency walk) ∧
        IsCircuit (RunsBefore migrations) walk) ∨
    ∃ graph, build migrations = .ok graph ∧ Built migrations graph := by
  cases hrep : firstRepeat? [] (migrations.map (·.name)) with
  | some name =>
    refine .inl ⟨name, by rw [build, hrep], fun hn => ?_⟩
    have hnone := firstRepeat?_eq_none.mpr ⟨hn, fun _ _ => List.not_mem_nil⟩
    rw [hrep] at hnone
    cases hnone
  | none =>
    have hn := (firstRepeat?_eq_none.mp hrep).1
    rcases declaredEdges_eq (migrations.map (·.name)) migrations with
      ⟨edges, hok, hedges, hknown⟩ | ⟨m, hm, constraint, target, ht, hunknown, herr⟩
    · obtain ⟨wf, hedge⟩ := wellFormed_ofDeclared hn hknown hedges
      have hrel : (ofDeclared (migrations.map (·.name)) edges).Edge = RunsBefore migrations := by
        funext a b
        exact propext (hedge a b)
      rcases orderComponents_eq migrations (ofDeclared (migrations.map (·.name)) edges)
        (ofDeclared (migrations.map (·.name)) edges).components with
        ⟨clusters, hclusters, hall⟩ | ⟨members, hmem, walk, hroots, herr⟩
      · refine .inr (.inr (.inr ⟨_, by rw [build, hrep, hok]; dsimp only; rw [hclusters], ?_⟩))
        exact ⟨hn, hknown, rfl, rfl, wf, hedge, clusters, hall, rfl⟩
      · refine .inr (.inr (.inl ⟨hn, hknown, walk, ?_, ?_⟩))
        · rw [build, hrep, hok]
          dsimp only
          rw [herr]
        · rw [← hrel]
          exact roots_error wf (fun v hv => mem_vertices_of_mem_component hmem hv) hroots
    · refine .inr (.inl ⟨hn, fun hknown => ?_, m.name, constraint, target, ?_⟩)
      · exact hunknown (hknown m hm constraint target ht)
      · rw [build, hrep, herr]

theorem built_of_build {graph : MigrationGraph} (h : build migrations = .ok graph) :
    Built migrations graph := by
  rcases build_cases migrations with ⟨_, he, -⟩ | ⟨-, -, _, _, _, he⟩ | ⟨-, -, _, he, -⟩ |
    ⟨graph', hok, hb⟩
  · rw [h] at he; cases he
  · rw [h] at he; cases he
  · rw [h] at he; cases he
  · rw [h] at hok; cases hok; exact hb

theorem Built.acc {graph : MigrationGraph} (hb : Built migrations graph) {v : Name}
    (hv : v ∈ graph.graph.vertices) : Acc (RunsBefore migrations) v := by
  have hrel : graph.graph.Edge = RunsBefore migrations := by
    funext a b
    exact propext (hb.edge_iff a b)
  obtain ⟨clusters, hall, -⟩ := hb.ordered
  obtain ⟨members, hm, hvm⟩ := exists_component hv
  obtain ⟨cluster, -, hc⟩ := exists_of_forall₂ hall hm
  rw [← hrel]
  exact (hc.rooted hb.wf hm).1.acc v hvm

theorem Built.acyclic {graph : MigrationGraph} (hb : Built migrations graph) :
    ¬ ∃ a, Relation.TransGen (RunsBefore migrations) a a := by
  rintro ⟨a, ha⟩
  obtain ⟨b, hab, -⟩ := Relation.TransGen.head'_iff.mp ha
  exact not_transGen_self (hb.acc (hb.wf.source_mem ((hb.edge_iff a b).mpr hab))) ha

/-- Which error the building of a graph ends in, if any. Names are compared first, then
constraints are resolved, then cycles are searched for. The cycle of the report, cut at its arrows,
is a circuit of the declared relation in the direction of execution. -/
theorem build_diagnosis (migrations : List Migration) :
    ((∃ name, build migrations = .error (.duplicateMigration name)) ↔
      ¬ (migrations.map (·.name)).Nodup) ∧
    ((∃ name constraint target,
        build migrations = .error (.unknownReference name constraint target)) ↔
      (migrations.map (·.name)).Nodup ∧ ¬ Known migrations) ∧
    ((∃ walk, build migrations = .error (.circularDependency walk)) ↔
      (migrations.map (·.name)).Nodup ∧ Known migrations ∧
        ∃ name, Relation.TransGen (RunsBefore migrations) name name) ∧
    ((∃ graph, build migrations = .ok graph) ↔
      (migrations.map (·.name)).Nodup ∧ Known migrations ∧
        ¬ ∃ name, Relation.TransGen (RunsBefore migrations) name name) ∧
    ∀ walk, build migrations = .error (.circularDependency walk) →
      IsCircuit (RunsBefore migrations) walk ∧
        Text.pieces " -> " (InputError.walkText walk) = walk.map (·.text) := by
  rcases build_cases migrations with ⟨name, h, hn⟩ | ⟨hn, hk, name, constraint, target, h⟩ |
    ⟨hn, hk, walk, h, hc⟩ | ⟨graph, h, hb⟩
  · rw [h]
    simp [hn]
  · rw [h]
    simp [hn, hk]
  · rw [h]
    have hne : walk ≠ [] := by
      rintro rfl
      exact absurd hc.two_le_length (by decide)
    simp [hn, hk, hc.transGen, hc, pieces_walkText hne]
  · rw [h]
    simp [hb.names_nodup, hb.known, hb.acyclic]

/-- Two migrations in a cycle, with a third one that runs before both. -/
def cycleWithRoot : List Migration :=
  [.bare ⟨"root", by decide⟩ 0 [] [⟨"left", by decide⟩, ⟨"right", by decide⟩],
    .bare ⟨"left", by decide⟩ 1 [⟨"right", by decide⟩] [],
    .bare ⟨"right", by decide⟩ 2 [⟨"left", by decide⟩] []]

theorem build_diagnosis_cycleWithRoot :
    build cycleWithRoot = .error (.circularDependency
        [⟨"right", by decide⟩, ⟨"left", by decide⟩, ⟨"right", by decide⟩]) ∧
      IsCircuit (RunsBefore cycleWithRoot)
        [⟨"right", by decide⟩, ⟨"left", by decide⟩, ⟨"right", by decide⟩] := by
  have h : build cycleWithRoot = .error (.circularDependency
      [⟨"right", by decide⟩, ⟨"left", by decide⟩, ⟨"right", by decide⟩]) := by cbv
  exact ⟨h, ((build_diagnosis cycleWithRoot).2.2.2.2 _ h).1⟩

end MigrationGraph
end SchemaMigration
