import SchemaMigration.Proofs.Ordering.Clusters
import SchemaMigration.Proofs.Ordering.Turn

/-!
# SchemaMigration.Proofs.Ordering.BreadthFirst

The order inside a cluster is the breadth-first one.

A vertex joins the queue when the last of its predecessors is emitted, and the queue hands out what
joined first. So those that wait for different vertices stand in the order of these, and those that
wait for one vertex were sorted when its edges were crossed. `Lined` is the invariant: it speaks of
what was emitted together with the queue, which only ever grows at its end.

* `Lined.emit`, `Lined.cross` : what the two kinds of step keep.
* `sweep_breadthFirst` : the order of a component is breadth-first.
* `build_breadthFirst` : the same for clusters, in terms of what the migrations declare.
-/

namespace SchemaMigration

instance Digraph.decidableEdge {α : Type} [DecidableEq α] (g : Digraph α) : DecidableRel g.Edge :=
  fun u v => inferInstanceAs (Decidable ((u, v) ∈ g.edges))

instance RunsBefore.decidable (migrations : List Migration) :
    DecidableRel (RunsBefore migrations) := fun a b =>
  inferInstanceAs (Decidable (∃ m ∈ migrations, (m.name = b ∧ a ∈ m.parameters.runAfter) ∨
    (m.name = a ∧ b ∈ m.parameters.runBefore)))

/-- All that has joined, in the order of joining. -/
def Sweep.joined {α : Type} (sweep : Sweep α) : List α := sweep.emitted ++ sweep.queue

namespace Digraph

variable {α β : Type} [DecidableEq α] [LinearOrder β] {g : Digraph α} {key : α → β}
  {members roots left : List α} {sweep : Sweep α}

/-- What has joined stands by turns. As long as edges of the vertex emitted last are left to
cross, nothing that waited for it comes behind their targets. -/
structure Lined (g : Digraph α) (key : α → β) (roots left : List α) (sweep : Sweep α) : Prop where
  roots_first : roots <+: sweep.joined
  by_turn : sweep.joined.Pairwise fun u v => u ∉ roots → v ∉ roots →
    turn g.Edge key sweep.joined u < turn g.Edge key sweep.joined v
  recent : ∀ u ∈ sweep.joined, u ∉ roots →
    lastPosition g.Edge sweep.joined u + 1 = sweep.emitted.length → ∀ v ∈ left, key u ≤ key v
  left_sorted : left.Pairwise fun u v => key u ≤ key v
  left_edge : ∀ v ∈ left, ∃ w, sweep.emitted.getLast? = some w ∧ g.Edge w v

namespace Swept

/-- The last predecessor of what has joined is among the emitted ones. -/
theorem lastPosition_lt (h : Swept g members left sweep) (hr : Rooted g members roots) {v : α}
    (hv : v ∈ sweep.joined) (hroot : v ∉ roots) :
    lastPosition g.Edge sweep.joined v < sweep.emitted.length := by
  have hne : g.predecessors v ≠ [] := fun hnone =>
    hroot ((hr.mem_roots v).mpr ⟨h.inside v hv, hnone⟩)
  obtain ⟨u, hu⟩ := List.exists_mem_of_ne_nil _ hne
  have hedge : g.Edge u v := mem_predecessors.mp hu
  have hmem : u ∈ sweep.joined := List.mem_append_left _ (h.predecessor_emitted hv hedge)
  obtain ⟨p, -, hpv, hlast⟩ := exists_last hmem hedge
  have hp := h.predecessor_emitted hv hpv
  rw [← hlast, Sweep.joined, List.idxOf_append_of_mem hp]
  exact List.idxOf_lt_length_of_mem hp

end Swept

namespace Lined

theorem start : Lined g key roots [] ⟨[], roots, []⟩ where
  roots_first := List.prefix_rfl
  by_turn := by
    refine List.pairwise_of_forall_mem_list fun u hu v _ hroot => ?_
    exact absurd hu hroot
  recent := fun u hu hroot => absurd hu hroot
  left_sorted := .nil
  left_edge := nofun

theorem emit {v : α} {rest emitted arrived : List α}
    (hr : Rooted g members roots) (hs : Swept g members [] ⟨emitted, v :: rest, arrived⟩)
    (h : Lined g key roots [] ⟨emitted, v :: rest, arrived⟩) :
    Lined g key roots ((g.successors v).mergeSort fun a b => decide (key a ≤ key b))
      ⟨emitted ++ [v], rest, arrived⟩ := by
  have hjoined : (Sweep.mk (emitted ++ [v]) rest arrived).joined =
      (Sweep.mk emitted (v :: rest) arrived).joined := by simp [Sweep.joined]
  have hsorted : ((g.successors v).mergeSort fun a b => decide (key a ≤ key b)).Pairwise
      fun a b => decide (key a ≤ key b) = true := by
    refine List.pairwise_mergeSort ?_ ?_ _
    · simpa using fun a b c => le_trans
    · simpa using fun a b => le_total (key a) (key b)
  refine ⟨?_, ?_, ?_, by simpa using hsorted, ?_⟩
  · rw [hjoined]
    exact h.roots_first
  · rw [hjoined]
    exact h.by_turn
  · -- whatever has joined waited for one emitted earlier
    rw [hjoined]
    intro u hu hroot hlast
    have hlt := hs.lastPosition_lt hr hu hroot
    simp only [List.length_append, List.length_singleton] at hlast hlt
    omega
  · intro w hw
    rw [List.mem_mergeSort] at hw
    exact ⟨v, by simp, mem_successors.mp hw⟩

theorem joined_arrive (sweep : Sweep α) (v : α) :
    (g.arrive sweep v).joined = sweep.joined ∨
      (g.arrive sweep v).joined = sweep.joined ++ [v] := by
  rw [arrive]
  dsimp only
  split
  · exact .inr (List.append_assoc _ _ _).symm
  · exact .inl rfl

/-- What joins as an edge is crossed waited for the vertex that was emitted last. -/
theorem lastPosition_joining (hr : Rooted g members roots) {v : α}
    (hs : Swept g members (v :: left) sweep) (h : Lined g key roots (v :: left) sweep)
    (hjoined : (g.arrive sweep v).joined = sweep.joined ++ [v]) :
    lastPosition g.Edge (sweep.joined ++ [v]) v + 1 = sweep.emitted.length := by
  obtain ⟨w, hw, hedge⟩ := h.left_edge v List.mem_cons_self
  have hroot : v ∉ roots := fun hmem => by
    have hnone := ((hr.mem_roots v).mp hmem).2
    exact absurd (hnone ▸ mem_predecessors.mpr hedge) List.not_mem_nil
  have hlt := (hs.cross hr).lastPosition_lt hr
    (by rw [hjoined]; exact List.mem_append_right _ List.mem_cons_self) hroot
  rw [hjoined, emitted_arrive] at hlt
  obtain ⟨front, hfront⟩ := List.getLast?_eq_some_iff.mp hw
  have hn := hs.nodup
  have hmem : w ∈ sweep.joined ++ [v] := by simp [Sweep.joined, hfront]
  have hge := idxOf_le_lastPosition hmem hedge
  have hidx : (sweep.joined ++ [v]).idxOf w = front.length := by
    have hnew : w ∉ front := by
      rw [hfront, List.append_assoc, List.nodup_append] at hn
      exact fun hmem => hn.2.2 w hmem w (by simp) rfl
    rw [Sweep.joined, hfront]
    simp [List.idxOf_append_of_notMem hnew]
  rw [hidx] at hge
  rw [hfront, List.length_append, List.length_singleton] at hlt ⊢
  omega

/-- Turns stay as they were, because nothing that has joined has `v` as a predecessor. -/
theorem lastPosition_joined (hs : Swept g members left sweep) {u v : α} (hu : u ∈ sweep.joined)
    (hnew : v ∉ sweep.joined) :
    lastPosition g.Edge (sweep.joined ++ [v]) u = lastPosition g.Edge sweep.joined u := by
  refine lastPosition_append fun p hp hpu => hnew ?_
  obtain rfl := List.mem_singleton.mp hp
  exact List.mem_append_left _ (hs.predecessor_emitted hu hpu)

/-- What joins last has the last turn. -/
theorem turn_lt_joining (hkey : Function.Injective key) (hr : Rooted g members roots) {u v : α}
    (hs : Swept g members (v :: left) sweep) (h : Lined g key roots (v :: left) sweep)
    (hjoined : (g.arrive sweep v).joined = sweep.joined ++ [v]) (hnew : v ∉ sweep.joined)
    (hu : u ∈ sweep.joined) (hroot : u ∉ roots) :
    turn g.Edge key (sweep.joined ++ [v]) u < turn g.Edge key (sweep.joined ++ [v]) v := by
  have hlast := lastPosition_joining hr hs h hjoined
  have hlt := hs.lastPosition_lt hr hu hroot
  rw [turn, turn, lastPosition_joined hs hu hnew, Prod.Lex.lt_iff]
  rcases Nat.lt_or_ge (lastPosition g.Edge sweep.joined u + 1) sweep.emitted.length with
    hless | hmore
  · left
    show lastPosition g.Edge sweep.joined u < lastPosition g.Edge (sweep.joined ++ [v]) v
    omega
  · right
    have hle := h.recent u hu hroot (by omega) v List.mem_cons_self
    refine ⟨?_, lt_of_le_of_ne hle fun heq => hnew (hkey heq ▸ hu)⟩
    show lastPosition g.Edge sweep.joined u = lastPosition g.Edge (sweep.joined ++ [v]) v
    omega

theorem cross (hkey : Function.Injective key) (hr : Rooted g members roots) {v : α}
    (hs : Swept g members (v :: left) sweep) (h : Lined g key roots (v :: left) sweep) :
    Lined g key roots left (g.arrive sweep v) := by
  obtain ⟨-, hnew⟩ := hs.head_waits hr
  have hedge : ∀ x ∈ left, ∃ w, (g.arrive sweep v).emitted.getLast? = some w ∧ g.Edge w x := by
    rw [emitted_arrive]
    exact fun x hx => h.left_edge x (List.mem_cons_of_mem v hx)
  obtain ⟨hfirst, hsorted⟩ := List.pairwise_cons.mp h.left_sorted
  rcases joined_arrive (g := g) sweep v with hjoined | hjoined
  · refine ⟨?_, ?_, ?_, hsorted, hedge⟩
    · rw [hjoined]
      exact h.roots_first
    · rw [hjoined]
      exact h.by_turn
    · rw [hjoined, emitted_arrive]
      exact fun u hu hroot hlast x hx => h.recent u hu hroot hlast x (List.mem_cons_of_mem v hx)
  · refine ⟨?_, ?_, ?_, hsorted, hedge⟩
    · rw [hjoined]
      exact h.roots_first.trans (List.prefix_append _ _)
    · rw [hjoined]
      refine List.pairwise_append.mpr ⟨?_, List.pairwise_singleton _ _, ?_⟩
      · refine h.by_turn.imp_of_mem fun {a b} ha hb hab har hbr => ?_
        rw [turn, turn, lastPosition_joined hs ha hnew, lastPosition_joined hs hb hnew]
        exact hab har hbr
      · intro u hu x hx hur _
        obtain rfl := List.mem_singleton.mp hx
        exact turn_lt_joining hkey hr hs h hjoined hnew hu hur
    · rw [hjoined, emitted_arrive]
      intro u hu hur hul x hx
      rcases List.mem_append.mp hu with hu | hu
      · rw [lastPosition_joined hs hu hnew] at hul
        exact h.recent u hu hur hul x (List.mem_cons_of_mem v hx)
      · obtain rfl := List.mem_singleton.mp hu
        exact hfirst x hx

end Lined

theorem Passes.lined (hkey : Function.Injective key) (hr : Rooted g members roots)
    (h : Passes g (fun a b => decide (key a ≤ key b)) roots left sweep) :
    Lined g key roots left sweep := by
  induction h with
  | start => exact .start
  | emit hp ih => exact ih.emit hr (hp.swept hr)
  | cross hp ih => exact ih.cross hkey hr (hp.swept hr)

theorem Rooted.grounded (hr : Rooted g members roots) : Grounded g.Edge roots members where
  nodup := hr.nodup
  exists_predecessor v hv hroot := by
    have hne : g.predecessors v ≠ [] := fun hnone => hroot ((hr.mem_roots v).mpr ⟨hv, hnone⟩)
    obtain ⟨u, hu⟩ := List.exists_mem_of_ne_nil _ hne
    exact ⟨u, mem_predecessors.mp hu⟩
  predecessor_mem := hr.source_mem
  no_root := by
    intro u v he hmem
    have hnone := ((hr.mem_roots v).mp hmem).2
    exact absurd (hnone ▸ mem_predecessors.mpr he) List.not_mem_nil
  irrefl v hv he := not_transGen_self (hr.acc v hv) (.single he)

/-- The order of a component is breadth-first. -/
theorem sweep_breadthFirst (hkey : Function.Injective key) (hr : Rooted g members roots) :
    BreadthFirst g.Edge key roots
      (g.sweep (fun a b => decide (key a ≤ key b)) roots members.length) := by
  obtain ⟨sweep, hpass, hq, hs⟩ := sweep_finishes hr fun a b => decide (key a ≤ key b)
  have hlined := hpass.lined hkey hr
  have hn := (hpass.swept hr).nodup
  have hjoined : sweep.joined = sweep.emitted := by rw [Sweep.joined, hq, List.append_nil]
  rw [hq, List.append_nil] at hn
  rw [← hs]
  exact .of_pairwise (hjoined ▸ hlined.roots_first) (hjoined ▸ hlined.by_turn)

end Digraph

variable {migrations : List Migration}

/-- By natural order, and by name where that is equal. -/
def rank (migrations : List Migration) (name : Name) : Nat ×ₗ String :=
  toLex (orderOf migrations name, name.text)

theorem rank_injective (migrations : List Migration) : Function.Injective (rank migrations) := by
  intro a b h
  rw [rank, rank, toLex_inj, Prod.mk.injEq] at h
  exact Name.text_injective h.2

theorem comesFirst_eq_rank (migrations : List Migration) :
    comesFirst migrations = fun a b => decide (rank migrations a ≤ rank migrations b) := by
  funext a b
  rw [Bool.eq_iff_iff, decide_eq_true_eq, comesFirst_iff, rank, rank, Prod.Lex.toLex_le_toLex]

namespace MigrationGraph

variable {graph : MigrationGraph}

/-- The order of every cluster is the breadth-first one of what the migrations declare: its roots
are the members that nothing runs before and stand in front, sorted by natural order and name, and
of two other members the one whose last predecessor stands first comes first, then the one that
comes first by natural order, then by name. No other order of these members is of this kind. -/
theorem build_breadthFirst (h : build migrations = .ok graph) {cluster : Cluster}
    (hc : cluster ∈ graph.clusters) :
    (∀ name, name ∈ cluster.roots ↔
      name ∈ cluster.members ∧ ∀ other, ¬ RunsBefore migrations other name) ∧
    (cluster.roots.Pairwise fun a b => rank migrations a < rank migrations b) ∧
    BreadthFirst (RunsBefore migrations) (rank migrations) cluster.roots cluster.members ∧
    ∀ order : List Name, order.Perm cluster.members →
      BreadthFirst (RunsBefore migrations) (rank migrations) cluster.roots order →
        order = cluster.members := by
  have hb := built_of_build h
  obtain ⟨members, hm, hof⟩ := hb.isClusterOf hc
  obtain ⟨hr, heq⟩ := hof.rooted hb.wf hm
  have hd := hb.describes hc
  have hsame : ∀ order : List Name,
      BreadthFirst graph.graph.Edge (rank migrations) cluster.roots order ↔
        BreadthFirst (RunsBefore migrations) (rank migrations) cluster.roots order :=
    fun order => BreadthFirst.congr hb.edge_iff
  have hswept := Digraph.sweep_breadthFirst (rank_injective migrations) hr
  rw [← comesFirst_eq_rank, ← heq] at hswept
  refine ⟨hd.mem_roots, ?_, (hsame _).mp hswept, fun order hp horder => ?_⟩
  · refine hd.sorted.imp fun {a b} hab => ?_
    rw [rank, rank, Prod.Lex.toLex_lt_toLex]
    exact hab
  · have hg := hr.grounded.perm (hb.members_perm hm hof).symm
    exact (hswept.eq hg ((hsame order).mpr horder) hp.symm).symm

/-- The last member of a diamond waits for the two before it, although its natural order is the
smallest. -/
theorem build_breadthFirst_diamond : ∃ graph cluster, build diamond = .ok graph ∧
    cluster ∈ graph.clusters ∧ cluster.members.map (·.text) = ["a", "b", "c", "d"] ∧
      BreadthFirst (RunsBefore diamond) (rank diamond) cluster.roots cluster.members := by
  have htexts : ((build diamond).toOption.map fun graph =>
      graph.clusters.map (·.members.map (·.text))) = some [["a", "b", "c", "d"], ["e"]] := by cbv
  cases h : build diamond with
  | error e => rw [h] at htexts; cases htexts
  | ok graph =>
    rw [h, Except.toOption, Option.map_some, Option.some_inj] at htexts
    obtain ⟨cluster, rest, hclusters, hmembers, -⟩ := List.map_eq_cons_iff.mp htexts
    have hc : cluster ∈ graph.clusters := hclusters ▸ List.mem_cons_self
    exact ⟨graph, cluster, rfl, hc, hmembers, (build_breadthFirst h hc).2.2.1⟩

end MigrationGraph
end SchemaMigration
