import SchemaMigration.Proofs.Ordering.Connection

/-!
# SchemaMigration.Proofs.Ordering.Leaf

A graph with one more vertex, from which no edge leads.

Nothing waits for the new vertex. So a sweep that meets it goes on as if it had not: leave it out of
a state of the larger graph's sweep, and what remains is a state of the smaller graph's. As long as
the new vertex hangs on one component only, it joins no others either.

* `Digraph.AddsLeaf` : the two graphs.
* `AddsLeaf.predecessors_perm`, `AddsLeaf.successors_perm` : what else changes for the old vertices.
* `AddsLeaf.mem_component_iff` : components of old vertices keep their old members.
* `AddsLeaf.filter_sweep` : the order of a component without the new vertex is the old order.
-/

namespace SchemaMigration

/-- A sweep as it would be without a vertex. -/
def Sweep.without {α : Type} [DecidableEq α] (leaf : α) (sweep : Sweep α) : Sweep α where
  emitted := sweep.emitted.filter (· ≠ leaf)
  queue := sweep.queue.filter (· ≠ leaf)
  arrived := sweep.arrived.filter (· ≠ leaf)

namespace Digraph

variable {α : Type} [DecidableEq α] {g g' : Digraph α} {leaf : α}

/-- `g'` has one more vertex than `g`, from which no edge leads. All edges to it come from one
component of `g`. -/
structure AddsLeaf (g g' : Digraph α) (leaf : α) : Prop where
  wf : g.WellFormed
  wf' : g'.WellFormed
  fresh : leaf ∉ g.vertices
  edge_iff : ∀ {u v}, v ≠ leaf → (g'.Edge u v ↔ g.Edge u v)
  no_edge : ∀ v, ¬ g'.Edge leaf v
  together : ∀ members ∈ g.components, ∀ {u v}, g'.Edge u leaf → g'.Edge v leaf → u ∈ members →
    v ∈ members

namespace AddsLeaf

variable (h : g.AddsLeaf g' leaf)

include h

theorem source_ne {u v : α} (he : g'.Edge u v) : u ≠ leaf := by
  rintro rfl
  exact h.no_edge v he

theorem linked_iff {u v : α} (hu : u ≠ leaf) (hv : v ≠ leaf) :
    g'.Linked u v ↔ g.Linked u v :=
  or_congr (h.edge_iff hv) (h.edge_iff hu)

/-- Whatever is linked with the new vertex has an edge to it. -/
theorem edge_of_linked {u : α} (hl : g'.Linked u leaf) : g'.Edge u leaf :=
  hl.resolve_right (h.no_edge u)

/-! ## Neighbours -/

theorem count_edges {u v : α} (hv : v ≠ leaf) :
    g'.edges.count (u, v) = g.edges.count (u, v) := by
  have hmem : (u, v) ∈ g'.edges ↔ (u, v) ∈ g.edges := h.edge_iff hv
  rw [h.wf'.edges_nodup.count, h.wf.edges_nodup.count]
  simp only [hmem]

theorem predecessors_perm {v : α} (hv : v ≠ leaf) :
    (g'.predecessors v).Perm (g.predecessors v) := by
  refine List.perm_iff_count.mpr fun u => ?_
  rw [count_predecessors, count_predecessors, h.count_edges hv]

theorem indegree_eq {v : α} (hv : v ≠ leaf) : g'.indegree v = g.indegree v :=
  (h.predecessors_perm hv).length_eq

/-- The old successors of a vertex are those that are not new. -/
theorem successors_perm (v : α) :
    ((g'.successors v).filter (· ≠ leaf)).Perm (g.successors v) := by
  refine List.perm_iff_count.mpr fun u => ?_
  by_cases hu : u = leaf
  · subst hu
    have hnew : u ∉ (g'.successors v).filter (· ≠ u) := by simp
    have hold : u ∉ g.successors v := fun hmem =>
      h.fresh (h.wf.target_mem (mem_successors.mp hmem))
    rw [List.count_eq_zero_of_not_mem hnew, List.count_eq_zero_of_not_mem hold]
  · rw [List.count_filter (by simpa using hu), count_successors, count_successors,
      h.count_edges hu]

theorem successors_leaf : g'.successors leaf = [] :=
  List.eq_nil_iff_forall_not_mem.mpr fun v hmem => h.no_edge v (mem_successors.mp hmem)

/-! ## Components -/

section Component

variable {members members' roots roots' : List α}

theorem ne_of_mem (hm : members ∈ g.components) {v : α} (hv : v ∈ members) : v ≠ leaf := by
  rintro rfl
  exact h.fresh (mem_vertices_of_mem_component hm hv)

/-- Components with a common old member have the same old members. -/
theorem mem_component_iff (hm : members ∈ g.components) (hm' : members' ∈ g'.components) {v : α}
    (hv : v ∈ members) (hv' : v ∈ members') {u : α} (hu : u ≠ leaf) :
    u ∈ members' ↔ u ∈ members := by
  constructor
  · intro hmem
    -- along links in the larger graph; the new vertex is met by way of this component, if at all
    have hpath : Relation.ReflTransGen g'.Linked v u :=
      (Digraph.mem_component_iff h.wf' hm' hv').mp hmem
    have hreach : (u ≠ leaf → u ∈ members) ∧
        (u = leaf → ∀ w, g'.Edge w leaf → w ∈ members) := by
      clear hu hmem
      induction hpath with
      | refl => exact ⟨fun _ => hv, fun hleaf => absurd hleaf (h.ne_of_mem hm hv)⟩
      | @tail u w _ hlink ih =>
        by_cases hu : u = leaf
        · subst hu
          have hedge : g'.Edge w u := h.edge_of_linked hlink.symm
          exact ⟨fun _ => ih.2 rfl w hedge, fun hw => absurd hw (h.source_ne hedge)⟩
        · refine ⟨fun hw => ?_, ?_⟩
          · exact mem_component_of_neighbour h.wf hm (ih.1 hu)
              (mem_neighbours.mpr ((h.linked_iff hu hw).mp hlink))
          · rintro rfl x hx
            exact h.together members hm (h.edge_of_linked hlink) hx (ih.1 hu)
    exact hreach.1 hu
  · intro hmem
    have hpath : Relation.ReflTransGen g.Linked v u :=
      (Digraph.mem_component_iff h.wf hm hv).mp hmem
    have hne : ∀ {w}, w ∈ g.vertices → w ≠ leaf := fun hw hleaf => h.fresh (hleaf ▸ hw)
    refine (Digraph.mem_component_iff h.wf' hm' hv').mpr
      (Relation.ReflTransGen.mono (fun a b hlink => ?_) _ _ hpath)
    refine (h.linked_iff ?_ ?_).mpr hlink
    · exact hne (hlink.elim h.wf.source_mem h.wf.target_mem)
    · exact hne (hlink.elim h.wf.target_mem h.wf.source_mem)

theorem exists_edge (hm' : members' ∈ g'.components) (hleaf : leaf ∈ members') {v : α}
    (hv : v ∈ members') (hne : v ≠ leaf) : ∃ u, g'.Edge u leaf := by
  rcases ((Digraph.mem_component_iff h.wf' hm' hleaf).mp hv).cases_head with heq | ⟨u, hlink, -⟩
  · exact absurd heq.symm hne
  · exact ⟨u, h.edge_of_linked hlink.symm⟩

/-- The new vertex is not among the roots of a component with old members. -/
theorem mem_roots_iff (hm : members ∈ g.components) (hm' : members' ∈ g'.components) {v : α}
    (hv : v ∈ members) (hv' : v ∈ members') (hr : Rooted g members roots)
    (hr' : Rooted g' members' roots') (u : α) : u ∈ roots' ↔ u ∈ roots := by
  rw [hr.mem_roots, hr'.mem_roots]
  by_cases hu : u = leaf
  · subst hu
    refine ⟨fun ⟨hmem, hnone⟩ => ?_, fun ⟨hmem, _⟩ => absurd rfl (h.ne_of_mem hm hmem)⟩
    obtain ⟨w, hw⟩ := h.exists_edge hm' hmem hv' (h.ne_of_mem hm hv)
    exact absurd (hnone ▸ mem_predecessors.mpr hw) List.not_mem_nil
  · rw [h.mem_component_iff hm hm' hv hv' hu, ← List.length_eq_zero_iff,
      (h.predecessors_perm hu).length_eq, List.length_eq_zero_iff]

end Component

/-! ## Sweeps -/

section Sweep

variable {le le' : α → α → Bool} {members members' roots : List α}

/-- To cross an edge to the new vertex changes nothing but the new vertex. -/
theorem without_arrive (sweep : Sweep α) (v : α) :
    (g'.arrive sweep v).without leaf =
      if v = leaf then sweep.without leaf else g.arrive (sweep.without leaf) v := by
  by_cases hv : v = leaf
  · subst hv
    rw [if_pos rfl, arrive]
    dsimp only
    split <;> simp [Sweep.without]
  · have hpending : g'.pending { sweep with arrived := v :: sweep.arrived } v =
        g.pending { sweep.without leaf with arrived := v :: (sweep.without leaf).arrived } v := by
      simp [pending, h.indegree_eq hv, Sweep.without, List.count_filter, hv]
    rw [if_neg hv, arrive, arrive]
    dsimp only
    rw [hpending]
    split <;> simp [Sweep.without, hv]

/-- A state of the larger graph's sweep without the new vertex is one of the smaller graph's. -/
theorem passes_without (hroots : leaf ∉ roots)
    (hsort : ∀ v, ((g'.successors v).mergeSort le').filter (· ≠ leaf) =
      (g.successors v).mergeSort le)
    {left : List α} {sweep : Sweep α} (hp : Passes g' le' roots left sweep) :
    Passes g le roots (left.filter (· ≠ leaf)) (sweep.without leaf) := by
  induction hp with
  | start =>
    have hsame : roots.filter (· ≠ leaf) = roots :=
      List.filter_eq_self.mpr fun v hv => decide_eq_true fun hleaf => hroots (hleaf ▸ hv)
    simp only [Sweep.without, hsame, List.filter_nil]
    exact .start
  | @emit v rest emitted arrived _ ih =>
    by_cases hv : v = leaf
    · -- the new vertex is emitted, which nothing waits for
      subst hv
      simpa [Sweep.without, h.successors_leaf] using ih
    · have hstep : Passes g le roots [] ⟨emitted.filter (· ≠ leaf),
          v :: rest.filter (· ≠ leaf), arrived.filter (· ≠ leaf)⟩ := by
        simpa [Sweep.without, hv] using ih
      rw [hsort]
      simpa [Sweep.without, hv] using hstep.emit
  | @cross v left sweep _ ih =>
    rw [h.without_arrive]
    by_cases hv : v = leaf
    · subst hv
      simpa using ih
    · rw [List.filter_cons_of_pos (by simpa using hv)] at ih
      rw [if_neg hv]
      exact ih.cross

/-- The order of a component without the new vertex is the order that it had. -/
theorem filter_sweep (hroots : leaf ∉ roots) (hr : Rooted g members roots)
    (hr' : Rooted g' members' roots)
    (hsort : ∀ v, ((g'.successors v).mergeSort le').filter (· ≠ leaf) =
      (g.successors v).mergeSort le) :
    (g'.sweep le' roots members'.length).filter (· ≠ leaf) =
      g.sweep le roots members.length := by
  obtain ⟨sweep, hp, hq, hs⟩ := sweep_finishes hr' le'
  have hq' : (sweep.without leaf).queue = [] := by rw [Sweep.without, hq, List.filter_nil]
  rw [← hs]
  exact (h.passes_without hroots hsort hp).emitted_eq hr hq'

end Sweep
end AddsLeaf
end Digraph
end SchemaMigration
