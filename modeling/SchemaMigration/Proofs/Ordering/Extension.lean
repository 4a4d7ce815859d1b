import SchemaMigration.Proofs.Ordering.Clusters
import SchemaMigration.Proofs.Ordering.Leaf

/-!
# SchemaMigration.Proofs.Ordering.Extension

A list of migrations with one more, which runs before no other and joins no clusters.

The graph gets a leaf. Natural orders change, but not how two of them compare; so roots and
successors are sorted as they were, each old cluster is swept as it was, and clusters stand by their
keys as they did.

* `Extends` : the two lists.
* `MigrationGraph.Attaches` : what the new migration runs after lies in one cluster.
* `Extends.addsLeaf` : the two graphs.
* `Extends.cluster_eq` : a cluster with old members is an old cluster but for the new migration.
* `Extends.blocks_eq`, `Extends.orderedNames_eq` : so the old migrations are in the old order.
-/

namespace SchemaMigration

open SchemaMigration.Digraph

/-- A migration in another place of the order of discovery. -/
def Migration.reordered (relabel : Nat → Nat) (m : Migration) : Migration :=
  { m with naturalOrder := relabel m.naturalOrder }

/-- `extended` is `migrations` with one more somewhere, which runs before no other. The old ones
get other natural orders, which compare as theirs did. -/
structure Extends (migrations : List Migration) (added : Migration) (relabel : Nat → Nat)
    (extended : List Migration) : Prop where
  inserted : ∃ front back, migrations = front ++ back ∧
    extended = front.map (·.reordered relabel) ++ added :: back.map (·.reordered relabel)
  increasing : ∀ m ∈ migrations, ∀ m' ∈ migrations, m.naturalOrder < m'.naturalOrder →
    relabel m.naturalOrder < relabel m'.naturalOrder
  distinct : (migrations.map (·.naturalOrder)).Nodup
  distinct_extended : (extended.map (·.naturalOrder)).Nodup
  fresh : added.name ∉ migrations.map (·.name)
  runBefore_eq : added.parameters.runBefore = []

/-- What a migration runs after, if anything, lies in one cluster. -/
def MigrationGraph.Attaches (graph : MigrationGraph) (added : Migration) : Prop :=
  added.parameters.runAfter = [] ∨
    ∃ cluster ∈ graph.clusters, ∀ target ∈ added.parameters.runAfter, target ∈ cluster.members

/-- The keys of the clusters and their members but for one name, where others are left. -/
def MigrationGraph.blocksWithout (graph : MigrationGraph) (name : Name) : List (Nat × List Name) :=
  (graph.clusters.map fun cluster => (cluster.key, cluster.members.filter (· ≠ name))).filter
    (·.2 ≠ [])

/-- Names that are sorted already are what sorting makes of them. -/
theorem eq_mergeSort_comesFirst {migrations : List Migration} {l l' : List Name} (hp : l'.Perm l)
    (hs : l'.Pairwise fun a b => comesFirst migrations a b = true) :
    l' = l.mergeSort (comesFirst migrations) := by
  refine (hp.trans (List.mergeSort_perm l _).symm).eq_of_pairwise ?_ hs
    (pairwise_comesFirst migrations l)
  intro a b _ _ hab hba
  rw [comesFirst_eq] at hab hba
  exact placeOf_injective migrations (orderLe_antisymm hab hba)

theorem flatMap_filter_ne_nil {α β : Type} [DecidableEq β] (l : List (α × List β)) :
    (l.filter (·.2 ≠ [])).flatMap (·.2) = l.flatMap (·.2) := by
  induction l with
  | nil => rfl
  | cons x rest ih =>
    by_cases hx : x.2 = []
    · rw [List.filter_cons_of_neg (by simpa using hx), ih, List.flatMap_cons, hx, List.nil_append]
    · rw [List.filter_cons_of_pos (by simpa using hx), List.flatMap_cons, List.flatMap_cons, ih]

namespace MigrationGraph

variable {migrations : List Migration} {graph : MigrationGraph}

theorem flatMap_blocksWithout (graph : MigrationGraph) (name : Name) :
    (graph.blocksWithout name).flatMap (·.2) = graph.orderedNames.filter (· ≠ name) := by
  rw [blocksWithout, flatMap_filter_ne_nil, List.flatMap_map, orderedNames, List.filter_flatMap]

theorem mem_blocksWithout {name : Name} {block : Nat × List Name} :
    block ∈ graph.blocksWithout name ↔ ∃ cluster ∈ graph.clusters,
      (cluster.key, cluster.members.filter (· ≠ name)) = block ∧ block.2 ≠ [] := by
  simp only [blocksWithout, List.mem_filter, List.mem_map, decide_eq_true_eq]
  constructor
  · rintro ⟨⟨cluster, hc, heq⟩, hne⟩
    exact ⟨cluster, hc, heq, hne⟩
  · rintro ⟨cluster, hc, heq, hne⟩
    exact ⟨⟨cluster, hc, heq⟩, hne⟩

theorem Built.blocksWithout_sorted (hb : Built migrations graph) (name : Name) :
    (graph.blocksWithout name).Pairwise fun a b => a.1 ≤ b.1 := by
  refine List.Pairwise.filter _ (List.pairwise_map.mpr ?_)
  exact hb.clusters_sorted

theorem Built.blocksWithout_nodup (hb : Built migrations graph) (name : Name)
    (hkeys : graph.KeysDiffer) : (graph.blocksWithout name).Nodup := by
  refine List.Nodup.filter _ (hb.clusters_nodup.map_on ?_)
  intro a ha b hb heq
  exact hkeys a ha b hb (congrArg Prod.fst heq)

/-- Blocks with one key are one block. -/
theorem KeysDiffer.blocksWithout (hkeys : graph.KeysDiffer) {name : Name} {a b : Nat × List Name}
    (ha : a ∈ graph.blocksWithout name) (hb : b ∈ graph.blocksWithout name) (h : a.1 = b.1) :
    a = b := by
  obtain ⟨cluster, hc, rfl, -⟩ := mem_blocksWithout.mp ha
  obtain ⟨cluster', hc', rfl, -⟩ := mem_blocksWithout.mp hb
  rw [hkeys cluster hc cluster' hc' h]

end MigrationGraph

namespace Extends

open MigrationGraph

variable {migrations extended : List Migration} {added : Migration} {relabel : Nat → Nat}
  {graph graph' : MigrationGraph} (h : Extends migrations added relabel extended)

include h

/-! ## The lists -/

theorem perm : extended.Perm (added :: migrations.map (·.reordered relabel)) := by
  obtain ⟨front, back, rfl, rfl⟩ := h.inserted
  rw [List.map_append]
  exact List.perm_middle

theorem mem_iff {m : Migration} :
    m ∈ extended ↔ m = added ∨ ∃ old ∈ migrations, old.reordered relabel = m := by
  rw [h.perm.mem_iff, List.mem_cons, List.mem_map]

theorem names_perm : (extended.map (·.name)).Perm (added.name :: migrations.map (·.name)) := by
  have hperm := h.perm.map (·.name)
  rwa [List.map_cons, List.map_map] at hperm

theorem names_nodup (hn : (migrations.map (·.name)).Nodup) : (extended.map (·.name)).Nodup :=
  h.names_perm.nodup_iff.mpr (List.nodup_cons.mpr ⟨h.fresh, hn⟩)

theorem mem_names_iff {name : Name} (hne : name ≠ added.name) :
    name ∈ extended.map (·.name) ↔ name ∈ migrations.map (·.name) := by
  rw [h.names_perm.mem_iff, List.mem_cons]
  exact or_iff_right hne

theorem ne_of_mem {name : Name} (hname : name ∈ migrations.map (·.name)) : name ≠ added.name :=
  fun heq => h.fresh (heq ▸ hname)

/-- The new migration declares edges to itself; the others declare what they did. -/
theorem runsBefore_iff {a b : Name} : RunsBefore extended a b ↔
    RunsBefore migrations a b ∨ b = added.name ∧ a ∈ added.parameters.runAfter := by
  constructor
  · rintro ⟨m, hm, hdeclared⟩
    rcases h.mem_iff.mp hm with rfl | ⟨old, hold, rfl⟩
    · rcases hdeclared with ⟨rfl, ha⟩ | ⟨-, hb⟩
      · exact .inr ⟨rfl, ha⟩
      · rw [h.runBefore_eq] at hb
        exact absurd hb List.not_mem_nil
    · exact .inl ⟨old, hold, hdeclared⟩
  · rintro (⟨m, hm, hdeclared⟩ | ⟨rfl, ha⟩)
    · exact ⟨m.reordered relabel, h.mem_iff.mpr (.inr ⟨m, hm, rfl⟩), hdeclared⟩
    · exact ⟨added, h.mem_iff.mpr (.inl rfl), .inl ⟨rfl, ha⟩⟩

theorem runsBefore_iff_of_ne {a b : Name} (hb : b ≠ added.name) :
    RunsBefore extended a b ↔ RunsBefore migrations a b := by
  rw [h.runsBefore_iff]
  exact or_iff_left fun heq => hb heq.1

/-! ## Natural orders -/

theorem orderOf_eq (hn : (migrations.map (·.name)).Nodup) {name : Name}
    (hname : name ∈ migrations.map (·.name)) :
    orderOf extended name = relabel (orderOf migrations name) := by
  obtain ⟨m, hm, rfl⟩ := List.mem_map.mp hname
  have hm' : m.reordered relabel ∈ extended := h.mem_iff.mpr (.inr ⟨m, hm, rfl⟩)
  rw [orderOf_of_mem hn hm]
  exact orderOf_of_mem (h.names_nodup hn) hm'

theorem orderOf_lt_iff (hn : (migrations.map (·.name)).Nodup) {a b : Name}
    (ha : a ∈ migrations.map (·.name)) (hb : b ∈ migrations.map (·.name)) :
    orderOf extended a < orderOf extended b ↔ orderOf migrations a < orderOf migrations b := by
  have hlt : ∀ {a b}, a ∈ migrations.map (·.name) → b ∈ migrations.map (·.name) →
      orderOf migrations a < orderOf migrations b →
        orderOf extended a < orderOf extended b := by
    intro a b ha hb hab
    rw [h.orderOf_eq hn ha, h.orderOf_eq hn hb]
    obtain ⟨m, hm, rfl⟩ := List.mem_map.mp ha
    obtain ⟨m', hm', rfl⟩ := List.mem_map.mp hb
    rw [orderOf_of_mem hn hm, orderOf_of_mem hn hm'] at hab ⊢
    exact h.increasing m hm m' hm' hab
  refine ⟨fun hab => ?_, hlt ha hb⟩
  rcases Nat.lt_trichotomy (orderOf migrations a) (orderOf migrations b) with hlt' | heq | hgt
  · exact hlt'
  · rw [h.orderOf_eq hn ha, h.orderOf_eq hn hb, heq] at hab
    exact absurd hab (Nat.lt_irrefl _)
  · exact absurd hab (Nat.lt_asymm (hlt hb ha hgt))

theorem orderOf_le_iff (hn : (migrations.map (·.name)).Nodup) {a b : Name}
    (ha : a ∈ migrations.map (·.name)) (hb : b ∈ migrations.map (·.name)) :
    orderOf extended a ≤ orderOf extended b ↔ orderOf migrations a ≤ orderOf migrations b := by
  rw [← Nat.not_lt, ← Nat.not_lt, h.orderOf_lt_iff hn hb ha]

theorem comesFirst_of_extended (hn : (migrations.map (·.name)).Nodup) {a b : Name}
    (ha : a ∈ migrations.map (·.name)) (hb : b ∈ migrations.map (·.name))
    (hab : comesFirst extended a b = true) : comesFirst migrations a b = true := by
  rw [comesFirst_iff] at hab ⊢
  rcases hab with hlt | ⟨heq, htext⟩
  · exact .inl ((h.orderOf_lt_iff hn ha hb).mp hlt)
  · refine .inr ⟨Nat.le_antisymm ?_ ?_, htext⟩
    · exact (h.orderOf_le_iff hn ha hb).mp heq.le
    · exact (h.orderOf_le_iff hn hb ha).mp heq.ge

/-! ## The graphs -/

theorem known (hb : Built migrations graph) (hat : graph.Attaches added) : Known extended := by
  rw [known_iff]
  intro a b hab
  have hold : ∀ {name}, name ∈ migrations.map (·.name) → name ∈ extended.map (·.name) :=
    fun hname => h.names_perm.mem_iff.mpr (List.mem_cons_of_mem _ hname)
  rcases h.runsBefore_iff.mp hab with hab | ⟨rfl, ha⟩
  · obtain ⟨ha, hb⟩ := known_iff.mp hb.known a b hab
    exact ⟨hold ha, hold hb⟩
  · refine ⟨?_, h.names_perm.mem_iff.mpr List.mem_cons_self⟩
    rcases hat with hnil | ⟨cluster, hc, hall⟩
    · rw [hnil] at ha
      exact absurd ha List.not_mem_nil
    · refine hold (hb.orderedNames_perm.mem_iff.mp ?_)
      exact List.mem_flatMap.mpr ⟨cluster, hc, hall a ha⟩

/-- Nothing runs after the new migration. -/
theorem not_runsBefore (hb : Built migrations graph) (hat : graph.Attaches added) (b : Name) :
    ¬ RunsBefore extended added.name b := by
  intro hab
  rcases h.runsBefore_iff.mp hab with hab | ⟨-, hself⟩
  · exact h.fresh (known_iff.mp hb.known _ b hab).1
  · rcases hat with hnil | ⟨cluster, hc, hall⟩
    · rw [hnil] at hself
      exact absurd hself List.not_mem_nil
    · refine h.fresh (hb.orderedNames_perm.mem_iff.mp ?_)
      exact List.mem_flatMap.mpr ⟨cluster, hc, hall _ hself⟩

theorem acyclic (hb : Built migrations graph) (hat : graph.Attaches added) :
    ¬ ∃ a, Relation.TransGen (RunsBefore extended) a a := by
  -- a path ends at the new migration or keeps to the old declarations
  have hpath : ∀ {a b}, Relation.TransGen (RunsBefore extended) a b →
      b = added.name ∨ Relation.TransGen (RunsBefore migrations) a b := by
    intro a b hab
    induction hab with
    | single hab => exact (h.runsBefore_iff.mp hab).symm.imp And.left .single
    | tail _ hbc ih =>
      rcases h.runsBefore_iff.mp hbc with hold | ⟨hc, -⟩
      · rcases ih with rfl | ih
        · exact absurd hbc (h.not_runsBefore hb hat _)
        · exact .inr (ih.tail hold)
      · exact .inl hc
  rintro ⟨a, ha⟩
  rcases hpath ha with rfl | hold
  · obtain ⟨b, hab, -⟩ := Relation.TransGen.head'_iff.mp ha
    exact h.not_runsBefore hb hat b hab
  · exact hb.acyclic ⟨a, hold⟩

theorem exists_build (hb : Built migrations graph) (hat : graph.Attaches added) :
    ∃ graph', build extended = .ok graph' ∧ Built extended graph' := by
  rcases build_cases extended with ⟨_, -, hdup⟩ | ⟨-, hunknown, -⟩ | ⟨-, -, walk, -, hc⟩ | hok
  · exact absurd (h.names_nodup hb.names_nodup) hdup
  · exact absurd (h.known hb hat) hunknown
  · exact absurd hc.transGen (h.acyclic hb hat)
  · exact hok

section Graphs

variable (hb : Built migrations graph) (hat : graph.Attaches added)
  (hb' : Built extended graph')

include hb hat hb'

theorem addsLeaf : graph.graph.AddsLeaf graph'.graph added.name where
  wf := hb.wf
  wf' := hb'.wf
  fresh := hb.vertices_eq ▸ h.fresh
  edge_iff {u v} hv :=
    (hb'.edge_iff u v).trans ((h.runsBefore_iff_of_ne hv).trans (hb.edge_iff u v).symm)
  no_edge v he := h.not_runsBefore hb hat v ((hb'.edge_iff _ v).mp he)
  together := by
    have hafter : ∀ {w}, graph'.graph.Edge w added.name → w ∈ added.parameters.runAfter := by
      intro w hw
      rcases h.runsBefore_iff.mp ((hb'.edge_iff w _).mp hw) with hold | ⟨-, hw⟩
      · exact absurd (known_iff.mp hb.known w _ hold).2 h.fresh
      · exact hw
    intro members hm u v hu hv humem
    rcases hat with hnil | ⟨cluster, hc, hall⟩
    · have := hafter hu
      rw [hnil] at this
      exact absurd this List.not_mem_nil
    · have hpath := (hb.mem_members_iff hc (hall u (hafter hu))).mp (hall v (hafter hv))
      rw [← hb.linked_eq] at hpath
      exact (Digraph.mem_component_iff hb.wf hm humem).mpr hpath

/-- Successors are sorted as they were. -/
theorem filter_mergeSort_successors (v : Name) :
    ((graph'.graph.successors v).mergeSort (comesFirst extended)).filter (· ≠ added.name) =
      (graph.graph.successors v).mergeSort (comesFirst migrations) := by
  have hleaf := h.addsLeaf hb hat hb'
  have hperm : (((graph'.graph.successors v).mergeSort (comesFirst extended)).filter
      (· ≠ added.name)).Perm (graph.graph.successors v) :=
    ((List.mergeSort_perm _ _).filter _).trans (hleaf.successors_perm v)
  have hmem : ∀ {u}, u ∈ ((graph'.graph.successors v).mergeSort (comesFirst extended)).filter
      (· ≠ added.name) → u ∈ migrations.map (·.name) := fun hu =>
    hb.vertices_eq ▸ hb.wf.target_mem (mem_successors.mp (hperm.mem_iff.mp hu))
  refine eq_mergeSort_comesFirst hperm ?_
  refine ((pairwise_comesFirst extended _).filter _).imp_of_mem fun ha hb' hab => ?_
  exact h.comesFirst_of_extended hb.names_nodup (hmem ha) (hmem hb') hab

section Cluster

variable {members members' : List Name} {cluster cluster' : Cluster}
  (hm : members ∈ graph.graph.components) (hm' : members' ∈ graph'.graph.components) {v : Name}
  (hv : v ∈ members) (hv' : v ∈ members')
  (hc : IsClusterOf migrations graph.graph members cluster)
  (hc' : IsClusterOf extended graph'.graph members' cluster')

include hm hm' hv hv' hc hc'

theorem roots_eq : cluster'.roots = cluster.roots := by
  obtain ⟨hr, -⟩ := hc.rooted hb.wf hm
  obtain ⟨hr', -⟩ := hc'.rooted hb'.wf hm'
  have hperm : cluster'.roots.Perm cluster.roots :=
    (List.perm_ext_iff_of_nodup hr'.roots_nodup hr.roots_nodup).mpr
      ((h.addsLeaf hb hat hb').mem_roots_iff hm hm' hv hv' hr hr')
  have hmem : ∀ {u}, u ∈ cluster'.roots → u ∈ migrations.map (·.name) := by
    intro u hu
    rw [← hb.vertices_eq]
    exact mem_vertices_of_mem_component hm ((hr.mem_roots u).mp (hperm.mem_iff.mp hu)).1
  obtain ⟨found, hfound, -⟩ := hc.exists_found
  obtain ⟨found', hfound', -⟩ := hc'.exists_found
  have hsorted : cluster'.roots.Pairwise fun a b => comesFirst migrations a b = true := by
    have hsorted' := pairwise_comesFirst extended found'
    rw [← hfound'] at hsorted'
    exact hsorted'.imp_of_mem fun ha hb' hab =>
      h.comesFirst_of_extended hb.names_nodup (hmem ha) (hmem hb') hab
  rw [hfound] at hperm ⊢
  exact eq_mergeSort_comesFirst (hperm.trans (List.mergeSort_perm found _)) hsorted

/-- A cluster with old members is an old cluster but for the new migration. -/
theorem cluster_eq : cluster'.key = relabel cluster.key ∧
    cluster'.members.filter (· ≠ added.name) = cluster.members := by
  have hroots := h.roots_eq hb hat hb' hm hm' hv hv' hc hc'
  obtain ⟨hr, hsweep⟩ := hc.rooted hb.wf hm
  obtain ⟨hr', hsweep'⟩ := hc'.rooted hb'.wf hm'
  have hmem : ∀ {u}, u ∈ cluster.roots → u ∈ migrations.map (·.name) := fun hu =>
    hb.vertices_eq ▸ mem_vertices_of_mem_component hm ((hr.mem_roots _).mp hu).1
  constructor
  · have hmin := hc.min?_roots hb.wf hm
    have hmin' := hc'.min?_roots hb'.wf hm'
    rw [hroots] at hmin'
    obtain ⟨root, hroot, hkey⟩ := List.mem_map.mp (List.min?_mem hmin)
    have hsmallest :
        (cluster.roots.map (orderOf extended)).min? = some (orderOf extended root) := by
      refine List.min?_eq_some_iff.mpr ⟨List.mem_map_of_mem hroot, fun order horder => ?_⟩
      obtain ⟨other, hother, rfl⟩ := List.mem_map.mp horder
      rw [h.orderOf_le_iff hb.names_nodup (hmem hroot) (hmem hother), hkey]
      exact (List.min?_eq_some_iff.mp hmin).2 _ (List.mem_map_of_mem hother)
    rw [hmin', Option.some.injEq, h.orderOf_eq hb.names_nodup (hmem hroot), hkey] at hsmallest
    exact hsmallest
  · rw [hsweep, hsweep', hroots]
    rw [hroots] at hr'
    exact (h.addsLeaf hb hat hb').filter_sweep (fun hroot => h.fresh (hmem hroot)) hr hr'
      (h.filter_mergeSort_successors hb hat hb')

end Cluster

/-! ## The order -/

omit hat hb' in
/-- Keys compare as they did. -/
theorem relabel_key_le {a b : Cluster} (ha : a ∈ graph.clusters) (hbc : b ∈ graph.clusters)
    (hab : a.key ≤ b.key) : relabel a.key ≤ relabel b.key := by
  have hroot : ∀ cluster ∈ graph.clusters, ∃ root ∈ migrations.map (·.name),
      orderOf migrations root = cluster.key := by
    intro cluster hc
    have hdescribes := hb.describes hc
    obtain ⟨root, hroot, hkey⟩ := List.mem_map.mp (List.min?_mem hdescribes.min?_roots)
    refine ⟨root, hb.orderedNames_perm.mem_iff.mp ?_, hkey⟩
    exact List.mem_flatMap.mpr ⟨cluster, hc, ((hdescribes.mem_roots root).mp hroot).1⟩
  obtain ⟨root, hr, hkey⟩ := hroot a ha
  obtain ⟨root', hr', hkey'⟩ := hroot b hbc
  rw [← hkey, ← hkey'] at hab ⊢
  rw [← h.orderOf_eq hb.names_nodup hr, ← h.orderOf_eq hb.names_nodup hr']
  exact (h.orderOf_le_iff hb.names_nodup hr hr').mpr hab

/-- But for the new migration, the clusters have the old members, in the old order. -/
theorem blocks_eq : graph'.blocksWithout added.name =
    graph.clusters.map fun cluster => (relabel cluster.key, cluster.members) := by
  have hkeys' := hb'.keysDiffer h.distinct_extended
  have hmem : ∀ block, block ∈ graph'.blocksWithout added.name ↔
      block ∈ graph.clusters.map fun cluster => (relabel cluster.key, cluster.members) := by
    intro block
    rw [mem_blocksWithout, List.mem_map]
    constructor
    · rintro ⟨cluster', hc', rfl, hne⟩
      obtain ⟨members', hm', hof'⟩ := hb'.isClusterOf hc'
      obtain ⟨v, hv⟩ := List.exists_mem_of_ne_nil _ hne
      obtain ⟨hv', hvne⟩ := List.mem_filter.mp hv
      replace hv' := (hb'.members_perm hm' hof').mem_iff.mp hv'
      have hold : v ∈ graph.graph.vertices := by
        rw [hb.vertices_eq, ← h.mem_names_iff (of_decide_eq_true hvne), ← hb'.vertices_eq]
        exact mem_vertices_of_mem_component hm' hv'
      obtain ⟨members, hm, hvm⟩ := exists_component hold
      obtain ⟨cluster, hc, hof⟩ := hb.exists_cluster hm
      obtain ⟨hkey, hmembers⟩ := h.cluster_eq hb hat hb' hm hm' hvm hv' hof hof'
      exact ⟨cluster, hc, by rw [hkey, hmembers]⟩
    · rintro ⟨cluster, hc, rfl⟩
      obtain ⟨members, hm, hof⟩ := hb.isClusterOf hc
      obtain ⟨v, hv⟩ := List.exists_mem_of_ne_nil _ (component_ne_nil hm)
      have hnew : v ∈ graph'.graph.vertices := by
        rw [hb'.vertices_eq, h.names_perm.mem_iff, ← hb.vertices_eq]
        exact List.mem_cons_of_mem _ (mem_vertices_of_mem_component hm hv)
      obtain ⟨members', hm', hvm'⟩ := exists_component hnew
      obtain ⟨cluster', hc', hof'⟩ := hb'.exists_cluster hm'
      obtain ⟨hkey, hmembers⟩ := h.cluster_eq hb hat hb' hm hm' hv hvm' hof hof'
      exact ⟨cluster', hc', by rw [hkey, hmembers], hb.cluster_ne_nil hc⟩
  have hnodup : (graph.clusters.map fun cluster =>
      (relabel cluster.key, cluster.members)).Nodup := by
    refine hb.clusters_nodup.map_on fun a ha b hbc heq => ?_
    have hmembers : a.members = b.members := congrArg Prod.snd heq
    obtain ⟨v, hv⟩ := List.exists_mem_of_ne_nil _ (hb.cluster_ne_nil ha)
    exact hb.cluster_unique ha hbc hv (hmembers ▸ hv)
  have hsorted : (graph.clusters.map fun cluster =>
      (relabel cluster.key, cluster.members)).Pairwise fun a b => a.1 ≤ b.1 :=
    List.pairwise_map.mpr (hb.clusters_sorted.imp_of_mem fun ha hbc => h.relabel_key_le hb ha hbc)
  -- both lists are sorted by keys, which differ
  refine ((List.perm_ext_iff_of_nodup (hb'.blocksWithout_nodup _ hkeys') hnodup).mpr
    hmem).eq_of_pairwise ?_ (hb'.blocksWithout_sorted _) hsorted
  intro a b ha hbc hab hba
  exact hkeys'.blocksWithout ha ((hmem b).mpr hbc) (Nat.le_antisymm hab hba)

/-- The old migrations run in the old order. -/
theorem orderedNames_eq :
    graph'.orderedNames.filter (· ∈ migrations.map (·.name)) = graph.orderedNames := by
  have hfilter : graph'.orderedNames.filter (· ∈ migrations.map (·.name)) =
      graph'.orderedNames.filter (· ≠ added.name) := by
    refine List.filter_congr fun name hname => decide_eq_decide.mpr ?_
    refine ⟨h.ne_of_mem, fun hne => (h.mem_names_iff hne).mp ?_⟩
    exact hb'.orderedNames_perm.mem_iff.mp hname
  rw [hfilter, ← flatMap_blocksWithout, h.blocks_eq hb hat hb', List.flatMap_map, orderedNames]

end Graphs
end Extends
end SchemaMigration
