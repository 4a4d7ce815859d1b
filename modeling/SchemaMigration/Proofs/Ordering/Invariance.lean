import SchemaMigration.Proofs.Ordering.Connection
import SchemaMigration.Proofs.Ordering.ExecutionOrder
import SchemaMigration.Proofs.Ordering.Lexicographic

/-!
# SchemaMigration.Proofs.Ordering.Invariance

What the graph of some migrations depends on: their names, their natural orders and the relation
that they declare. It does not depend on the order of the list, on the end at which an edge is
declared, or on how often it is. Two things may: which fault an error reports where there are
several, and the place of clusters with equal keys.

* `SameDeclarations` : lists of migrations that declare the same.
* `SameKind` : both built, or both refused with errors of one kind.
* `SameDeclarations.agrees` : the graphs have the same vertices and the same edges.
* `SameDeclarations.cluster_eq` : components with a common member become the same cluster.
* `clusters_eq` : where keys differ, the clusters are the same, in the same order.
* `Built.keysDiffer` : they do where natural orders are distinct.

`build_congr` puts them together.
-/

namespace SchemaMigration

open SchemaMigration.Digraph

/-- The same names, the same natural order for each of them, and the same declared edges. -/
structure SameDeclarations (migrations migrations' : List Migration) : Prop where
  distinct : (migrations.map (·.name)).Nodup
  names : (migrations.map (·.name)).Perm (migrations'.map (·.name))
  orders : ∀ m ∈ migrations, ∀ m' ∈ migrations', m.name = m'.name →
    m.naturalOrder = m'.naturalOrder
  runsBefore : ∀ a b, RunsBefore migrations a b ↔ RunsBefore migrations' a b

/-- Both graphs are built, or both lists are refused with errors of one kind. Where names are
distinct there are two kinds. -/
inductive SameKind :
    Except InputError MigrationGraph → Except InputError MigrationGraph → Prop where
  | built (graph graph' : MigrationGraph) : SameKind (.ok graph) (.ok graph')
  | unknown (name target name' target' : Name) (constraint constraint' : Constraint) :
    SameKind (.error (.unknownReference name constraint target))
      (.error (.unknownReference name' constraint' target'))
  | circular (walk walk' : List Name) :
    SameKind (.error (.circularDependency walk)) (.error (.circularDependency walk'))

variable {migrations migrations' : List Migration} {g : Digraph Name} {members : List Name}
  {cluster : Cluster}

/-- All names in constraints are known if all declared edges have both ends in the list. So this
is a matter of names and edges alone. -/
theorem known_iff : Known migrations ↔ ∀ a b, RunsBefore migrations a b →
    a ∈ migrations.map (·.name) ∧ b ∈ migrations.map (·.name) := by
  constructor
  · rintro h a b ⟨m, hm, ⟨rfl, ha⟩ | ⟨rfl, hb⟩⟩
    · exact ⟨h m hm .runAfter a ha, List.mem_map_of_mem hm⟩
    · exact ⟨List.mem_map_of_mem hm, h m hm .runBefore b hb⟩
  · intro h m hm constraint target ht
    cases constraint with
    | runAfter => exact (h target m.name ⟨m, hm, .inl ⟨rfl, ht⟩⟩).1
    | runBefore => exact (h m.name target ⟨m, hm, .inr ⟨rfl, ht⟩⟩).2

/-! ## Natural orders -/

theorem orderOf_of_not_mem {name : Name} (h : name ∉ migrations.map (·.name)) :
    orderOf migrations name = 0 := by
  have hnone : findMigration? migrations name = none := by
    refine List.find?_eq_none.mpr fun m hm hname => h ?_
    exact List.mem_map.mpr ⟨m, hm, of_decide_eq_true hname⟩
  rw [orderOf, hnone]

/-- Where natural orders are distinct, they tell names apart. -/
theorem orderOf_inj (hn : (migrations.map (·.naturalOrder)).Nodup) {a b : Name}
    (ha : a ∈ migrations.map (·.name)) (hb : b ∈ migrations.map (·.name))
    (h : orderOf migrations a = orderOf migrations b) : a = b := by
  obtain ⟨m, hm, rfl⟩ := MigrationGraph.findMigration?_of_mem ha
  obtain ⟨m', hm', rfl⟩ := MigrationGraph.findMigration?_of_mem hb
  rw [orderOf, orderOf, hm, hm'] at h
  have hsame := List.inj_on_of_nodup_map hn (List.mem_of_find?_eq_some hm)
    (List.mem_of_find?_eq_some hm') h
  rw [hsame]

/-! ## Sorting names -/

/-- What names are sorted by. -/
def placeOf (migrations : List Migration) (name : Name) : Int × String :=
  (orderOf migrations name, name.text)

theorem placeOf_injective (migrations : List Migration) :
    Function.Injective (placeOf migrations) := fun _ _ h =>
  Name.text_injective (congrArg Prod.snd h)

theorem comesFirst_eq (migrations : List Migration) (a b : Name) :
    comesFirst migrations a b = orderLe (placeOf migrations a) (placeOf migrations b) := by
  rw [Bool.eq_iff_iff, orderLe_iff]
  dsimp only [placeOf]
  rw [Int.ofNat_lt, Int.natCast_inj]
  simp [comesFirst, Name.le]

/-- To sort names it does not matter how they were arranged. -/
theorem mergeSort_comesFirst_congr (migrations : List Migration) {l l' : List Name}
    (hp : l.Perm l') :
    l.mergeSort (comesFirst migrations) = l'.mergeSort (comesFirst migrations) := by
  have hsort : ∀ l : List Name, (l.mergeSort (comesFirst migrations)).map (placeOf migrations) =
      (l.map (placeOf migrations)).mergeSort orderLe := fun l =>
    List.map_mergeSort fun a _ b _ => comesFirst_eq migrations a b
  refine List.map_injective_iff.mpr (placeOf_injective migrations) ?_
  rw [hsort, hsort, mergeSort_orderLe_congr (hp.map _)]

/-! ## One cluster -/

theorem IsClusterOf.exists_found (h : IsClusterOf migrations g members cluster) :
    ∃ found : List Name, cluster.roots = found.mergeSort (comesFirst migrations) ∧
      cluster.key = ((cluster.roots.map (orderOf migrations)).min?).getD
        ((members.head?.map (orderOf migrations)).getD 0) := by
  rw [IsClusterOf, orderComponent] at h
  split at h
  · cases h
  · rename_i found _
    cases h
    exact ⟨found, rfl, rfl⟩

/-- The key of a cluster is the smallest natural order of its roots, of which there are some. -/
theorem IsClusterOf.min?_roots (wf : g.WellFormed) (hm : members ∈ g.components)
    (h : IsClusterOf migrations g members cluster) :
    (cluster.roots.map (orderOf migrations)).min? = some cluster.key := by
  obtain ⟨found, -, hkey⟩ := h.exists_found
  have hne := (h.rooted wf hm).1.roots_ne_nil (component_ne_nil hm)
  cases hmin : (cluster.roots.map (orderOf migrations)).min? with
  | none => exact absurd (List.map_eq_nil_iff.mp (List.min?_eq_none_iff.mp hmin)) hne
  | some key => rw [hkey, hmin, Option.getD_some]

namespace SameDeclarations

theorem refl (hn : (migrations.map (·.name)).Nodup) : SameDeclarations migrations migrations where
  distinct := hn
  names := .refl _
  orders _ hm _ hm' hname := congrArg _ (List.inj_on_of_nodup_map hn hm hm' hname)
  runsBefore _ _ := .rfl

variable (h : SameDeclarations migrations migrations')

include h

theorem symm : SameDeclarations migrations' migrations where
  distinct := h.names.nodup_iff.mp h.distinct
  names := h.names.symm
  orders m hm m' hm' hname := (h.orders m' hm' m hm hname.symm).symm
  runsBefore a b := (h.runsBefore a b).symm

theorem known_iff : Known migrations ↔ Known migrations' := by
  rw [SchemaMigration.known_iff, SchemaMigration.known_iff]
  refine forall_congr' fun a => forall_congr' fun b => ?_
  rw [h.runsBefore, h.names.mem_iff, h.names.mem_iff]

theorem orderOf_eq : orderOf migrations = orderOf migrations' := by
  funext name
  by_cases hname : name ∈ migrations.map (·.name)
  · obtain ⟨m, hm, hmname⟩ := MigrationGraph.findMigration?_of_mem hname
    obtain ⟨m', hm', hmname'⟩ := MigrationGraph.findMigration?_of_mem (h.names.mem_iff.mp hname)
    rw [orderOf, orderOf, hm, hm']
    exact h.orders m (List.mem_of_find?_eq_some hm) m' (List.mem_of_find?_eq_some hm')
      (hmname.trans hmname'.symm)
  · rw [orderOf_of_not_mem hname, orderOf_of_not_mem (mt h.names.mem_iff.mpr hname)]

theorem comesFirst_eq : comesFirst migrations = comesFirst migrations' := by
  funext a b
  rw [comesFirst, comesFirst, h.orderOf_eq]

variable {graph graph' : MigrationGraph} (hb : MigrationGraph.Built migrations graph)
  (hb' : MigrationGraph.Built migrations' graph')

include hb hb'

theorem agrees : graph.graph.Agrees graph'.graph where
  vertices := by
    rw [hb.vertices_eq, hb'.vertices_eq]
    exact h.names
  edges := by
    refine (List.perm_ext_iff_of_nodup hb.wf.edges_nodup hb'.wf.edges_nodup).mpr fun (a, b) => ?_
    exact (hb.edge_iff a b).trans ((h.runsBefore a b).trans (hb'.edge_iff a b).symm)

/-- Components with a common member become the same cluster. -/
theorem cluster_eq {members' : List Name} {cluster' : Cluster}
    (hm : members ∈ graph.graph.components) (hm' : members' ∈ graph'.graph.components) {v : Name}
    (hv : v ∈ members) (hv' : v ∈ members')
    (hc : IsClusterOf migrations graph.graph members cluster)
    (hc' : IsClusterOf migrations' graph'.graph members' cluster') : cluster = cluster' := by
  have hagrees := h.agrees hb hb'
  have hperm := hagrees.component_perm hb.wf hb'.wf hm hm' hv hv'
  obtain ⟨hr, hsweep⟩ := hc.rooted hb.wf hm
  obtain ⟨hr', hsweep'⟩ := hc'.rooted hb'.wf hm'
  -- The searches meet the roots in different orders; sorted, they are the same list.
  have hroots : cluster.roots = cluster'.roots := by
    have hsame : cluster.roots.Perm cluster'.roots := by
      refine (List.perm_ext_iff_of_nodup hr.roots_nodup hr'.roots_nodup).mpr fun u => ?_
      have hpred := (hagrees.predecessors_perm u).length_eq
      rw [hr.mem_roots, hr'.mem_roots, hperm.mem_iff, ← List.length_eq_zero_iff, hpred,
        List.length_eq_zero_iff]
    obtain ⟨found, hfound, -⟩ := hc.exists_found
    obtain ⟨found', hfound', -⟩ := hc'.exists_found
    rw [hfound, hfound', ← h.comesFirst_eq] at hsame ⊢
    refine mergeSort_comesFirst_congr migrations ?_
    exact (List.mergeSort_perm _ _).symm.trans (hsame.trans (List.mergeSort_perm _ _))
  have hkey : cluster.key = cluster'.key := by
    have hmin := hc.min?_roots hb.wf hm
    rw [hroots, h.orderOf_eq, hc'.min?_roots hb'.wf hm'] at hmin
    exact (Option.some.inj hmin).symm
  have hmembers : cluster.members = cluster'.members := by
    rw [hsweep, hsweep', hroots, ← h.comesFirst_eq, hperm.length_eq]
    exact hagrees.sweep_eq (fun _ _ => mergeSort_comesFirst_congr migrations) _ _
  obtain ⟨key, roots, ordered⟩ := cluster
  obtain ⟨key', roots', ordered'⟩ := cluster'
  cases hkey
  cases hroots
  cases hmembers
  rfl

/-- Each cluster of one graph is one of the other. -/
theorem mem_clusters {cluster : Cluster} (hcluster : cluster ∈ graph.clusters) :
    cluster ∈ graph'.clusters := by
  obtain ⟨members, hm, hc⟩ := hb.isClusterOf hcluster
  obtain ⟨v, hv⟩ := List.exists_mem_of_ne_nil members (component_ne_nil hm)
  have hv' : v ∈ graph'.graph.vertices :=
    (h.agrees hb hb').vertices.mem_iff.mp (mem_vertices_of_mem_component hm hv)
  obtain ⟨members', hm', hvm'⟩ := exists_component hv'
  obtain ⟨cluster', hcluster', hc'⟩ := hb'.exists_cluster hm'
  rw [h.cluster_eq hb hb' hm hm' hv hvm' hc hc']
  exact hcluster'

end SameDeclarations

/-! ## All clusters -/

namespace MigrationGraph

/-- Different clusters have different keys. -/
def KeysDiffer (graph : MigrationGraph) : Prop :=
  ∀ a ∈ graph.clusters, ∀ b ∈ graph.clusters, a.key = b.key → a = b

variable {graph graph' : MigrationGraph}

theorem Built.cluster_ne_nil (hb : Built migrations graph) {cluster : Cluster}
    (hc : cluster ∈ graph.clusters) : cluster.members ≠ [] := by
  obtain ⟨members, hm, hof⟩ := hb.isClusterOf hc
  exact fun hnil => component_ne_nil hm ((hnil ▸ hb.members_perm hm hof).nil_eq).symm

theorem Built.clusters_nodup (hb : Built migrations graph) : graph.clusters.Nodup := by
  have hn := hb.orderedNames_nodup
  rw [orderedNames, List.nodup_flatMap] at hn
  refine hn.2.imp_of_mem fun {a b} ha _ hdisjoint hab => ?_
  obtain ⟨v, hv⟩ := List.exists_mem_of_ne_nil a.members (hb.cluster_ne_nil ha)
  exact hdisjoint hv (hab ▸ hv)

theorem Built.clusters_sorted (hb : Built migrations graph) :
    graph.clusters.Pairwise fun a b => a.key ≤ b.key := by
  obtain ⟨clusters, -, heq⟩ := hb.ordered
  rw [heq]
  refine (List.pairwise_mergeSort ?_ ?_ clusters).imp of_decide_eq_true
  · intro a b c hab hbc
    exact decide_eq_true ((of_decide_eq_true hab).trans (of_decide_eq_true hbc))
  · intro a b
    simpa using Nat.le_total a.key b.key

/-- With distinct natural orders, clusters with one key share the root that has it. -/
theorem Built.keysDiffer (hb : Built migrations graph)
    (hn : (migrations.map (·.naturalOrder)).Nodup) : graph.KeysDiffer := by
  have hroot : ∀ cluster ∈ graph.clusters, ∃ members ∈ graph.graph.components,
      IsClusterOf migrations graph.graph members cluster ∧
        ∃ root ∈ members, orderOf migrations root = cluster.key := by
    intro cluster hcluster
    obtain ⟨members, hm, hc⟩ := hb.isClusterOf hcluster
    obtain ⟨root, hr, hkey⟩ := List.mem_map.mp (List.min?_mem (hc.min?_roots hb.wf hm))
    exact ⟨members, hm, hc, root, (((hc.rooted hb.wf hm).1.mem_roots root).mp hr).1, hkey⟩
  have hname : ∀ {members}, members ∈ graph.graph.components → ∀ {v}, v ∈ members →
      v ∈ migrations.map (·.name) := by
    intro members hm v hv
    exact hb.vertices_eq ▸ mem_vertices_of_mem_component hm hv
  intro a ha b hb' hkey
  obtain ⟨members, hm, hc, root, hr, hroot_a⟩ := hroot a ha
  obtain ⟨members', hm', hc', root', hr', hroot_b⟩ := hroot b hb'
  have hsame : root = root' :=
    orderOf_inj hn (hname hm hr) (hname hm' hr') (hroot_a.trans (hkey.trans hroot_b.symm))
  exact (SameDeclarations.refl hb.names_nodup).cluster_eq hb hb hm hm' hr (hsame ▸ hr') hc hc'

theorem clusters_eq (h : SameDeclarations migrations migrations') (hb : Built migrations graph)
    (hb' : Built migrations' graph') (hkeys : graph.KeysDiffer) :
    graph.clusters = graph'.clusters := by
  have hperm : graph.clusters.Perm graph'.clusters :=
    (List.perm_ext_iff_of_nodup hb.clusters_nodup hb'.clusters_nodup).mpr fun _ =>
      ⟨h.mem_clusters hb hb', h.symm.mem_clusters hb' hb⟩
  -- A list with distinct keys has one sorted arrangement.
  refine hperm.eq_of_pairwise ?_ hb.clusters_sorted hb'.clusters_sorted
  intro a b ha hb hab hba
  exact hkeys a ha b (hperm.mem_iff.mpr hb) (Nat.le_antisymm hab hba)

theorem sameKind_build (h : SameDeclarations migrations migrations') :
    SameKind (build migrations) (build migrations') := by
  have hrel : RunsBefore migrations = RunsBefore migrations' := by
    funext a b
    exact propext (h.runsBefore a b)
  rcases build_cases migrations with ⟨_, -, hdup⟩ | ⟨-, hk, name, constraint, target, he⟩ |
    ⟨-, hk, walk, he, hc⟩ | ⟨graph, he, hb⟩
  · exact absurd h.distinct hdup
  · rcases build_cases migrations' with ⟨_, -, hdup'⟩ | ⟨-, -, name', constraint', target', he'⟩ |
      ⟨-, hk', -⟩ | ⟨_, -, hb'⟩
    · exact absurd h.symm.distinct hdup'
    · rw [he, he']
      exact .unknown name target name' target' constraint constraint'
    · exact absurd (h.known_iff.mpr hk') hk
    · exact absurd (h.known_iff.mpr hb'.known) hk
  · rcases build_cases migrations' with ⟨_, -, hdup'⟩ | ⟨-, hk', -⟩ | ⟨-, -, walk', he', -⟩ |
      ⟨_, -, hb'⟩
    · exact absurd h.symm.distinct hdup'
    · exact absurd (h.known_iff.mp hk) hk'
    · rw [he, he']
      exact .circular walk walk'
    · exact absurd (hrel ▸ hc.transGen) hb'.acyclic
  · rcases build_cases migrations' with ⟨_, -, hdup'⟩ | ⟨-, hk', -⟩ | ⟨-, -, _, -, hc'⟩ |
      ⟨graph', he', -⟩
    · exact absurd h.symm.distinct hdup'
    · exact absurd (h.known_iff.mp hb.known) hk'
    · exact absurd (hrel ▸ hc'.transGen) hb.acyclic
    · rw [he, he']
      exact .built graph graph'

/-- Lists that declare the same are both built, or both refused for the same kind of fault. Where
different clusters have different keys, which distinct natural orders ensure, the clusters and the
execution order are the same. -/
theorem build_congr (h : SameDeclarations migrations migrations') :
    SameKind (build migrations) (build migrations') ∧
    (∀ graph graph', build migrations = .ok graph → build migrations' = .ok graph' →
      graph.KeysDiffer →
        graph.clusters = graph'.clusters ∧ graph.orderedNames = graph'.orderedNames) ∧
    ((migrations.map (·.naturalOrder)).Nodup →
      ∀ graph, build migrations = .ok graph → graph.KeysDiffer) := by
  refine ⟨sameKind_build h, ?_, ?_⟩
  · intro graph graph' hok hok' hkeys
    have hclusters := clusters_eq h (built_of_build hok) (built_of_build hok') hkeys
    exact ⟨hclusters, by rw [orderedNames, orderedNames, hclusters]⟩
  · intro hn graph hok
    exact (built_of_build hok).keysDiffer hn

/-- Three migrations, with the edge between two of them declared at both ends. -/
def statedTwice : List Migration :=
  [.bare ⟨"users", by decide⟩ 0 [] [⟨"posts", by decide⟩], .bare ⟨"roles", by decide⟩ 1 [] [],
    .bare ⟨"posts", by decide⟩ 2 [⟨"users", by decide⟩] []]

/-- The same three in another order, with the edge declared at one end. -/
def statedOnce : List Migration :=
  [.bare ⟨"posts", by decide⟩ 2 [⟨"users", by decide⟩] [], .bare ⟨"roles", by decide⟩ 1 [] [],
    .bare ⟨"users", by decide⟩ 0 [] []]

theorem sameDeclarations_stated : SameDeclarations statedTwice statedOnce where
  distinct := by decide
  names := by decide
  orders := by decide
  runsBefore a b := by
    simp only [RunsBefore, statedTwice, statedOnce, Migration.bare, List.mem_cons, exists_eq_or_imp,
      List.not_mem_nil, and_false, false_or, or_false, ↓existsAndEq, true_and, or_self]
    grind

theorem build_congr_stated : ∃ graph graph', build statedTwice = .ok graph ∧
    build statedOnce = .ok graph' ∧ graph.KeysDiffer ∧
      graph.orderedNames = graph'.orderedNames := by
  obtain ⟨-, hsame, hkeys⟩ := build_congr sameDeclarations_stated
  have hok : (build statedTwice).isOk = true := by cbv
  have hok' : (build statedOnce).isOk = true := by cbv
  cases h : build statedTwice with
  | error e => rw [h] at hok; cases hok
  | ok graph =>
    cases h' : build statedOnce with
    | error e => rw [h'] at hok'; cases hok'
    | ok graph' =>
      have hdiffer := hkeys (by decide) graph h
      exact ⟨graph, graph', rfl, rfl, hdiffer, (hsame graph graph' h h' hdiffer).2⟩

end MigrationGraph
end SchemaMigration
