import SchemaMigration.Proofs.Ordering.Component
import SchemaMigration.Proofs.Ordering.Sweep

/-!
# SchemaMigration.Proofs.Ordering.Connection

Graphs with the same vertices and the same edges, listed in whatever order.

A component has exactly the vertices that links lead to from any of its members: a search goes along
links only, and no link leads out of what it has met. So a component does not depend on the order
in which vertices and edges are listed. Neither does a sweep, which counts the edges to a vertex and
sorts those from it.

* `Digraph.Linked` : two vertices with an edge, whichever way it points.
* `mem_component_iff` : the members of a component.
* `Digraph.Agrees` : graphs that are equal but for the order of the lists.
* `Agrees.component_perm`, `Agrees.sweep_eq` : their components, and their sweeps.
-/

namespace SchemaMigration
namespace Digraph

variable {α : Type} [DecidableEq α] {g g' : Digraph α}

omit [DecidableEq α] in
/-- An edge joins two vertices, whichever way it points. -/
def Linked (g : Digraph α) (u v : α) : Prop := g.Edge u v ∨ g.Edge v u

/-! ## Components -/

theorem mem_of_mem_enqueue {queue unseen candidates : List α} {v : α}
    (hv : v ∈ (enqueue queue unseen candidates).1) : v ∈ queue ∨ v ∈ candidates := by
  induction candidates generalizing queue unseen with
  | nil => exact .inl hv
  | cons w rest ih =>
    rw [enqueue] at hv
    split at hv
    · rcases ih hv with hv | hv
      · rcases List.mem_append.mp hv with hv | hv
        · exact .inl hv
        · exact .inr (List.mem_singleton.mp hv ▸ List.mem_cons_self)
      · exact .inr (List.mem_cons_of_mem w hv)
    · exact (ih hv).imp_right (List.mem_cons_of_mem w)

/-- Links lead from the queue to whatever a search meets. -/
theorem linked_of_mem_flood {queue unseen : List α} {u : α}
    (hu : u ∈ (g.flood queue unseen).1) : ∃ v ∈ queue, Relation.ReflTransGen g.Linked v u := by
  fun_induction flood g queue unseen with
  | case1 => cases hu
  | case2 unseen v rest next result ih =>
    rcases List.mem_cons.mp hu with rfl | hu
    · exact ⟨u, List.mem_cons_self, .refl⟩
    · obtain ⟨w, hw, hpath⟩ := ih hu
      rcases mem_of_mem_enqueue hw with hw | hw
      · exact ⟨w, List.mem_cons_of_mem v hw, hpath⟩
      · exact ⟨v, List.mem_cons_self, .head (mem_neighbours.mp hw) hpath⟩

theorem mem_flood_self (v : α) (unseen : List α) : v ∈ (g.flood [v] unseen).1 := by
  rw [flood]
  exact List.mem_cons_self

/-- A component has a member from which links lead to all of them. -/
theorem exists_first {unseen members : List α} (hc : members ∈ g.componentsOf unseen) :
    ∃ v ∈ members, ∀ u ∈ members, Relation.ReflTransGen g.Linked v u := by
  fun_induction componentsOf g unseen with
  | case1 => cases hc
  | case2 v rest found ih =>
    rcases List.mem_cons.mp hc with rfl | hc
    · refine ⟨v, mem_flood_self v rest, fun u hu => ?_⟩
      obtain ⟨w, hw, hpath⟩ := linked_of_mem_flood hu
      exact List.mem_singleton.mp hw ▸ hpath
    · exact ih hc

theorem component_ne_nil {members : List α} (hc : members ∈ g.components) : members ≠ [] := by
  obtain ⟨v, hv, -⟩ := exists_first hc
  exact List.ne_nil_of_mem hv

/-- The members of a component are the vertices to which links lead from any one of them. -/
theorem mem_component_iff (wf : g.WellFormed) {members : List α} (hc : members ∈ g.components)
    {u v : α} (hv : v ∈ members) : u ∈ members ↔ Relation.ReflTransGen g.Linked v u := by
  have : Std.Symm g.Linked := ⟨fun _ _ => Or.symm⟩
  constructor
  · intro hu
    obtain ⟨w, -, hpaths⟩ := exists_first hc
    exact (symm (hpaths v hv)).trans (hpaths u hu)
  · intro hpath
    induction hpath with
    | refl => exact hv
    | tail _ hlink ih => exact mem_component_of_neighbour wf hc ih (mem_neighbours.mpr hlink)

/-! ## Graphs that agree -/

/-- The same vertices and the same edges, in whatever order. -/
structure Agrees (g g' : Digraph α) : Prop where
  vertices : g.vertices.Perm g'.vertices
  edges : g.edges.Perm g'.edges

namespace Agrees

variable (h : g.Agrees g')

include h

omit [DecidableEq α] in
theorem linked_eq : g.Linked = g'.Linked := by
  funext u v
  exact propext (or_congr h.edges.mem_iff h.edges.mem_iff)

theorem predecessors_perm (v : α) : (g.predecessors v).Perm (g'.predecessors v) := by
  rw [predecessors, predecessors]
  refine (List.reverse_perm _).trans (List.Perm.trans ?_ (List.reverse_perm _).symm)
  exact (h.edges.filter _).map _

theorem successors_perm (v : α) : (g.successors v).Perm (g'.successors v) := by
  rw [successors, successors]
  refine (List.reverse_perm _).trans (List.Perm.trans ?_ (List.reverse_perm _).symm)
  exact (h.edges.filter _).map _

/-- Components of the two graphs with a common vertex have the same members. -/
theorem component_perm (wf : g.WellFormed) (wf' : g'.WellFormed) {members members' : List α}
    (hc : members ∈ g.components) (hc' : members' ∈ g'.components) {v : α} (hv : v ∈ members)
    (hv' : v ∈ members') : members.Perm members' := by
  have hn := component_nodup wf.vertices_nodup hc
  have hn' := component_nodup wf'.vertices_nodup hc'
  refine (List.perm_ext_iff_of_nodup hn hn').mpr fun u => ?_
  rw [mem_component_iff wf hc hv, mem_component_iff wf' hc' hv', h.linked_eq]

theorem arrive_eq : g.arrive = g'.arrive := by
  have hpending : g.pending = g'.pending := by
    funext sweep v
    rw [pending, pending, indegree, indegree, (h.predecessors_perm v).length_eq]
  funext sweep v
  rw [arrive, arrive, hpending]

/-- A sweep is the same in both graphs, if sorting does not depend on how a list was arranged. -/
theorem sweep_eq {le : α → α → Bool}
    (hsort : ∀ l l' : List α, l.Perm l' → l.mergeSort le = l'.mergeSort le) (roots : List α)
    (size : Nat) : g.sweep le roots size = g'.sweep le roots size := by
  have hstep : g.sweepStep le = g'.sweepStep le := by
    funext sweep
    obtain ⟨emitted, queue, arrived⟩ := sweep
    cases queue with
    | nil => rfl
    | cons v rest =>
      simp only [sweepStep, hsort _ _ (h.successors_perm v), h.arrive_eq]
  have hfor : ∀ steps sweep, g.sweepFor le steps sweep = g'.sweepFor le steps sweep := by
    intro steps
    induction steps with
    | zero => exact fun _ => rfl
    | succ steps ih =>
      intro sweep
      rw [sweepFor, sweepFor, hstep]
      cases g'.sweepStep le sweep with
      | none => rfl
      | some next => exact ih next
  rw [sweep, sweep, hfor]

end Agrees

/-- Vertices without cycles have a root among them. -/
theorem Rooted.roots_ne_nil {members roots : List α} (hr : Rooted g members roots)
    (hne : members ≠ []) : roots ≠ [] := by
  rintro rfl
  obtain ⟨v, hv⟩ := List.exists_mem_of_ne_nil members hne
  induction hr.acc v hv with
  | intro v _ ih =>
    cases hpred : g.predecessors v with
    | nil => exact absurd ((hr.mem_roots v).mpr ⟨hv, hpred⟩) List.not_mem_nil
    | cons u rest =>
      have he : g.Edge u v := mem_predecessors.mp (hpred ▸ List.mem_cons_self)
      exact ih u he (hr.source_mem he hv)

end Digraph
end SchemaMigration
