import SchemaMigration.Proofs.Ordering.Invariance

/-!
# SchemaMigration.Proofs.Ordering.Clusters

What the clusters of a graph are, in terms of the migrations.

A cluster has the members of a component, and components are met in the order of the list: each
search begins at the first name that is left, so whatever a later search meets stands behind it.
Sorting by key keeps this order between clusters with equal keys.

* `Joined` : two migrations of which one is declared to run before the other.
* `Cluster.ListedBefore` : the first member of one cluster stands before all members of another.
* `Cluster.Describes` : the roots and the key of a cluster, said of the migrations.
* `pairwise_mergeSort_key` : a stable sort, in terms of what holds of neighbours in the input.

`build_clusters` puts them together.
-/

namespace SchemaMigration

open SchemaMigration.Digraph

/-- One of two migrations is declared to run before the other. -/
def Joined (migrations : List Migration) (a b : Name) : Prop :=
  RunsBefore migrations a b ∨ RunsBefore migrations b a

/-- The first of some names stands in a list before all of some others. -/
def StartsBefore (names a b : List Name) : Prop :=
  ∃ first ∈ a, ∀ other ∈ b, Precedes names first other

/-- The first member of one cluster is listed before all members of the other. -/
def Cluster.ListedBefore (names : List Name) (a b : Cluster) : Prop :=
  StartsBefore names a.members b.members

/-- What the roots and the key of a cluster are. -/
structure Cluster.Describes (migrations : List Migration) (cluster : Cluster) : Prop where
  mem_roots : ∀ name, name ∈ cluster.roots ↔
    name ∈ cluster.members ∧ ∀ other, ¬ RunsBefore migrations other name
  roots_ne_nil : cluster.roots ≠ []
  sorted : cluster.roots.Pairwise fun a b => orderOf migrations a < orderOf migrations b ∨
    orderOf migrations a = orderOf migrations b ∧ a.text < b.text
  min?_roots : (cluster.roots.map (orderOf migrations)).min? = some cluster.key

/-! ## The order in which components are met -/

theorem StartsBefore.mono {names names' a b : List Name} (h : StartsBefore names a b)
    (hsub : names.Sublist names') : StartsBefore names' a b := by
  obtain ⟨first, hfirst, hall⟩ := h
  exact ⟨first, hfirst, fun other ho => List.Sublist.trans (hall other ho) hsub⟩

theorem componentsOf_startsBefore (g : Digraph Name) (unseen : List Name) :
    (g.componentsOf unseen).Pairwise (StartsBefore unseen) := by
  fun_induction componentsOf g unseen with
  | case1 => exact .nil
  | case2 v rest found ih =>
    have hsub : found.2.Sublist rest := flood_unseen_sublist [v] rest
    refine .cons ?_ (ih.imp fun h => h.mono (hsub.cons v))
    intro later hlater
    refine ⟨v, mem_flood_self v rest, fun other ho => ?_⟩
    have hother : other ∈ rest := hsub.subset (mem_of_mem_componentsOf hlater ho)
    exact (List.singleton_sublist.mpr hother).cons_cons v

/-- What holds of the parts of a list in their order holds of what they become. -/
theorem pairwise_of_forall₂ {α β : Type} {r : α → β → Prop} {s : α → α → Prop} {t : β → β → Prop}
    {as : List α} {bs : List β} (h : List.Forall₂ r as bs) (hs : as.Pairwise s)
    (hst : ∀ {a a' b b'}, r a b → r a' b' → s a a' → t b b') : bs.Pairwise t := by
  induction h with
  | nil => exact .nil
  | cons hr hrest ih =>
    obtain ⟨hhead, htail⟩ := List.pairwise_cons.mp hs
    refine .cons (fun b' hb' => ?_) (ih htail)
    obtain ⟨a', ha', hr'⟩ := exists_of_forall₂ hrest.flip hb'
    exact hst hr hr' (hhead a' ha')

/-! ## Sorting by key -/

section Stable

variable {α : Type} (key : α → Nat)

theorem keyLe_trans (a b c : α) (hab : decide (key a ≤ key b) = true)
    (hbc : decide (key b ≤ key c) = true) : decide (key a ≤ key c) = true :=
  decide_eq_true ((of_decide_eq_true hab).trans (of_decide_eq_true hbc))

theorem keyLe_total (a b : α) : (decide (key a ≤ key b) || decide (key b ≤ key a)) = true := by
  simpa using Nat.le_total (key a) (key b)

/-- To sort by key leaves those with one key as they were. -/
theorem filter_mergeSort_key (items : List α) (k : Nat) :
    (items.mergeSort fun a b => key a ≤ key b).filter (key · = k) = items.filter (key · = k) := by
  have hsame : (items.filter (key · = k)).Pairwise fun a b => decide (key a ≤ key b) = true := by
    refine List.pairwise_of_forall_mem_list fun a ha b hb => decide_eq_true ?_
    rw [of_decide_eq_true (List.mem_filter.mp ha).2, of_decide_eq_true (List.mem_filter.mp hb).2]
  have hsub : (items.filter (key · = k)).Sublist (items.mergeSort fun a b => key a ≤ key b) :=
    List.sublist_mergeSort (keyLe_trans key) (keyLe_total key) hsame List.filter_sublist
  have hkept := hsub.filter (key · = k)
  rw [List.filter_filter, List.filter_congr fun a _ => Bool.and_self _] at hkept
  exact (hkept.eq_of_length ((List.mergeSort_perm items _).filter _).length_eq.symm).symm

/-- A sort by key is stable: what holds along the input holds along those with one key. -/
theorem pairwise_mergeSort_key {r : α → α → Prop} {items : List α} (h : items.Pairwise r) :
    (items.mergeSort fun a b => key a ≤ key b).Pairwise fun a b =>
      key a < key b ∨ key a = key b ∧ r a b := by
  have hsorted := (List.pairwise_mergeSort (keyLe_trans key) (keyLe_total key) items).imp
    of_decide_eq_true
  rw [List.pairwise_iff_forall_sublist]
  intro a b hab
  refine (Nat.lt_or_eq_of_le (hsorted.forall_sublist hab)).imp_right fun hkey => ⟨hkey, ?_⟩
  -- both have this key, so they stand in the input as they stand here
  have hkept := hab.filter (key · = key b)
  have hpair : [a, b].filter (key · = key b) = [a, b] := by simp [hkey]
  rw [filter_mergeSort_key, hpair] at hkept
  exact h.forall_sublist (hkept.trans List.filter_sublist)

end Stable

/-! ## One cluster -/

variable {migrations : List Migration}

theorem orderOf_of_mem (hn : (migrations.map (·.name)).Nodup) {m : Migration}
    (hm : m ∈ migrations) : orderOf migrations m.name = m.naturalOrder := by
  obtain ⟨found, hfound, hname⟩ :=
    MigrationGraph.findMigration?_of_mem (List.mem_map_of_mem (f := (·.name)) hm)
  have hsame := List.inj_on_of_nodup_map hn (List.mem_of_find?_eq_some hfound) hm hname
  rw [orderOf, hfound, hsame]

theorem comesFirst_iff {a b : Name} : comesFirst migrations a b = true ↔
    orderOf migrations a < orderOf migrations b ∨
      orderOf migrations a = orderOf migrations b ∧ a.text ≤ b.text := by
  simp [comesFirst, Name.le]

/-- Names in this order are sorted by natural order and name. -/
theorem pairwise_comesFirst (migrations : List Migration) (names : List Name) :
    (names.mergeSort (comesFirst migrations)).Pairwise fun a b =>
      comesFirst migrations a b = true := by
  refine List.pairwise_mergeSort ?_ ?_ names
  · intro a b c
    simp only [comesFirst_eq]
    exact orderLe_trans _ _ _
  · intro a b
    simp only [comesFirst_eq]
    exact orderLe_total _ _

namespace MigrationGraph

variable {graph : MigrationGraph}

theorem Built.describes (hb : Built migrations graph) {cluster : Cluster}
    (hc : cluster ∈ graph.clusters) : cluster.Describes migrations := by
  obtain ⟨members, hm, hof⟩ := hb.isClusterOf hc
  obtain ⟨hr, -⟩ := hof.rooted hb.wf hm
  obtain ⟨found, hfound, -⟩ := hof.exists_found
  refine ⟨fun name => ?_, hr.roots_ne_nil (component_ne_nil hm), ?_, hof.min?_roots hb.wf hm⟩
  · rw [hr.mem_roots, (hb.members_perm hm hof).mem_iff, List.eq_nil_iff_forall_not_mem]
    refine and_congr_right fun _ => forall_congr' fun other => ?_
    exact not_congr (mem_predecessors.trans (hb.edge_iff other name))
  · have hsorted := pairwise_comesFirst migrations found
    rw [← hfound] at hsorted
    refine (hsorted.and hr.roots_nodup).imp fun {a b} ⟨hab, hne⟩ => ?_
    refine (comesFirst_iff.mp hab).imp_right fun ⟨horder, htext⟩ => ⟨horder, ?_⟩
    exact lt_of_le_of_ne htext fun heq => hne (Name.text_injective heq)

/-! ## All clusters -/

theorem Built.linked_eq (hb : Built migrations graph) :
    graph.graph.Linked = Joined migrations := by
  funext a b
  exact propext (or_congr (hb.edge_iff a b) (hb.edge_iff b a))

/-- The members of a cluster are those that declarations connect with any one of them. -/
theorem Built.mem_members_iff (hb : Built migrations graph) {cluster : Cluster}
    (hc : cluster ∈ graph.clusters) {a b : Name} (ha : a ∈ cluster.members) :
    b ∈ cluster.members ↔ Relation.ReflTransGen (Joined migrations) a b := by
  obtain ⟨members, hm, hof⟩ := hb.isClusterOf hc
  have hperm := hb.members_perm hm hof
  rw [hperm.mem_iff, mem_component_iff hb.wf hm (hperm.mem_iff.mp ha), hb.linked_eq]

theorem Built.exists_cluster_of_mem (hb : Built migrations graph) {name : Name}
    (hname : name ∈ migrations.map (·.name)) :
    ∃ cluster ∈ graph.clusters, name ∈ cluster.members := by
  have hmem := hb.orderedNames_perm.mem_iff.mpr hname
  exact List.mem_flatMap.mp hmem

theorem Built.cluster_unique (hb : Built migrations graph) {cluster cluster' : Cluster}
    (hc : cluster ∈ graph.clusters) (hc' : cluster' ∈ graph.clusters) {name : Name}
    (hname : name ∈ cluster.members) (hname' : name ∈ cluster'.members) : cluster = cluster' := by
  by_contra hne
  have hn := hb.orderedNames_nodup
  rw [orderedNames, List.nodup_flatMap] at hn
  have hsymm : Std.Symm fun a b : Cluster => (Function.onFun List.Disjoint (·.members)) a b :=
    ⟨fun _ _ h _ hb ha => h ha hb⟩
  exact hn.2.forall hc hc' hne hname hname'

/-- Clusters stand by key, and those with equal keys in the order in which they are met. -/
theorem Built.clusters_pairwise (hb : Built migrations graph) :
    graph.clusters.Pairwise fun a b => a.key < b.key ∨
      a.key = b.key ∧ a.ListedBefore (migrations.map (·.name)) b := by
  obtain ⟨clusters, hperm, heq⟩ := hb.ordered_perm
  rw [heq]
  refine pairwise_mergeSort_key (·.key) (pairwise_of_forall₂ hperm
    (componentsOf_startsBefore graph.graph graph.graph.vertices) ?_)
  rintro members members' cluster cluster' hp hp' ⟨first, hfirst, hbefore⟩
  rw [hb.vertices_eq] at hbefore
  exact ⟨first, hp.mem_iff.mpr hfirst, fun other ho => hbefore other (hp'.mem_iff.mp ho)⟩

/-- The clusters of a graph. Two migrations share a cluster exactly if declarations connect them,
whichever way they point, and every migration is in one cluster, once. The roots of a cluster are
its members that nothing runs before; there is one at least, they are sorted by natural order and
name, and the cluster has its key from them. Clusters stand by their keys, those with equal keys in
the order in which the list first meets them, and the execution order is that of their members, one
cluster after the other. -/
theorem build_clusters (h : build migrations = .ok graph) :
    (∀ m ∈ migrations, ∀ m' ∈ migrations,
      (∃ cluster ∈ graph.clusters, m.name ∈ cluster.members ∧ m'.name ∈ cluster.members) ↔
        Relation.ReflTransGen (Joined migrations) m.name m'.name) ∧
    (∀ m ∈ migrations, ∃! cluster, cluster ∈ graph.clusters ∧ m.name ∈ cluster.members) ∧
    graph.clusters.Nodup ∧
    (∀ cluster ∈ graph.clusters, cluster.Describes migrations) ∧
    (graph.clusters.Pairwise fun a b => a.key < b.key ∨
      a.key = b.key ∧ a.ListedBefore (migrations.map (·.name)) b) ∧
    graph.orderedNames = graph.clusters.flatMap (·.members) ∧
    graph.orderedNames.Perm (migrations.map (·.name)) := by
  have hb := built_of_build h
  refine ⟨fun m hm m' _ => ⟨?_, fun hpath => ?_⟩, fun m hm => ?_, hb.clusters_nodup,
    fun _ => hb.describes, hb.clusters_pairwise, rfl, hb.orderedNames_perm⟩
  · rintro ⟨cluster, hc, hmem, hmem'⟩
    exact (hb.mem_members_iff hc hmem).mp hmem'
  · obtain ⟨cluster, hc, hmem⟩ := hb.exists_cluster_of_mem (List.mem_map_of_mem hm)
    exact ⟨cluster, hc, hmem, (hb.mem_members_iff hc hmem).mpr hpath⟩
  · obtain ⟨cluster, hc, hmem⟩ := hb.exists_cluster_of_mem (List.mem_map_of_mem hm)
    exact ⟨cluster, ⟨hc, hmem⟩, fun other ⟨ho, hmem'⟩ => hb.cluster_unique ho hc hmem' hmem⟩

/-- Two clusters with equal keys, the first of which comes last by name. -/
def tiedKeys : List Migration :=
  [.bare ⟨"readers", by decide⟩ 0 [] [], .bare ⟨"books", by decide⟩ 0 [] [],
    .bare ⟨"loans", by decide⟩ 1 [⟨"readers", by decide⟩] []]

theorem build_clusters_tiedKeys : ∃ graph, build tiedKeys = .ok graph ∧
    (∃ cluster ∈ graph.clusters, ⟨"loans", by decide⟩ ∈ cluster.members ∧
      ⟨"readers", by decide⟩ ∈ cluster.members) ∧
    (∀ cluster ∈ graph.clusters, cluster.Describes tiedKeys) ∧
    graph.clusters.Pairwise fun a b => a.key < b.key ∨
      a.key = b.key ∧ a.ListedBefore (tiedKeys.map (·.name)) b := by
  have hok : (build tiedKeys).isOk = true := by cbv
  cases h : build tiedKeys with
  | error e => rw [h] at hok; cases hok
  | ok graph =>
    obtain ⟨hconnected, -, -, hdescribes, hsorted, -⟩ := build_clusters h
    let readers : Migration := .bare ⟨"readers", by decide⟩ 0 [] []
    let loans : Migration := .bare ⟨"loans", by decide⟩ 1 [readers.name] []
    have hjoined : Joined tiedKeys loans.name readers.name :=
      .inr ⟨loans, by decide, .inl ⟨rfl, by decide⟩⟩
    have hcluster := (hconnected loans (by decide) readers (by decide)).mpr (.single hjoined)
    exact ⟨graph, rfl, hcluster, hdescribes, hsorted⟩

end MigrationGraph
end SchemaMigration
