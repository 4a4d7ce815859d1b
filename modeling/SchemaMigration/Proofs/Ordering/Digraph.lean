import Mathlib.Data.List.Chain
import Mathlib.Data.List.Nodup
import Mathlib.Logic.Relation
import SchemaMigration.Ordering.Digraph

/-!
# SchemaMigration.Proofs.Ordering.Digraph

Edges as a relation.

* `Digraph.Edge`: the relation of a graph.
* `Digraph.WellFormed`: the edges join vertices, and nothing stands in the lists twice.
* `IsCircuit`: a closed walk that meets no vertex twice. It shows that the relation has a cycle
  (`IsCircuit.transGen`), and accessible vertices are on none (`not_transGen_self`).
-/

namespace SchemaMigration

/-- A closed walk along a relation that meets no vertex twice, except that its last vertex is its
first one. -/
structure IsCircuit {α : Type} (r : α → α → Prop) (walk : List α) : Prop where
  closed : walk.head? = walk.getLast?
  two_le_length : 2 ≤ walk.length
  nodup : walk.dropLast.Nodup
  chain : walk.IsChain r

theorem IsCircuit.transGen {α : Type} {r : α → α → Prop} {walk : List α}
    (h : IsCircuit r walk) : ∃ a, Relation.TransGen r a a := by
  obtain ⟨hclosed, hlen, -, hchain⟩ := h
  match walk, hlen with
  | a :: b :: rest, _ =>
    obtain ⟨hab, hrest⟩ := List.isChain_cons_cons.mp hchain
    have hlast : (b :: rest).getLast (List.cons_ne_nil b rest) = a := by
      rw [List.head?_cons, List.getLast?_cons_cons] at hclosed
      exact List.getLast_of_getLast?_eq_some hclosed.symm
    exact ⟨a, .head' hab (List.relationReflTransGen_of_exists_isChain_cons rest hrest hlast)⟩

theorem not_transGen_self {α : Type} {r : α → α → Prop} {a : α} (h : Acc r a) :
    ¬ Relation.TransGen r a a := by
  induction h.transGen with
  | intro a _ ih =>
    intro hcycle
    exact ih a hcycle (h.inv_of_transGen hcycle) hcycle

theorem nodup_eraseDups {α : Type} [BEq α] [LawfulBEq α] (items : List α) :
    items.eraseDups.Nodup := by
  match items with
  | [] => exact .nil
  | a :: rest =>
    rw [List.eraseDups_cons]
    refine List.nodup_cons.mpr ⟨?_, nodup_eraseDups _⟩
    rw [List.mem_eraseDups, List.mem_filter]
    simp
termination_by items.length
decreasing_by exact Nat.lt_succ_of_le (List.length_filter_le _ _)

namespace Digraph

variable {α : Type}

def Edge (g : Digraph α) (u v : α) : Prop := (u, v) ∈ g.edges

/-- The edges join vertices, and no vertex and no edge is listed twice. -/
structure WellFormed (g : Digraph α) : Prop where
  vertices_nodup : g.vertices.Nodup
  edges_nodup : g.edges.Nodup
  source_mem : ∀ {u v : α}, g.Edge u v → u ∈ g.vertices
  target_mem : ∀ {u v : α}, g.Edge u v → v ∈ g.vertices

variable [DecidableEq α] {g : Digraph α}

theorem mem_neighbours {u v : α} : u ∈ g.neighbours v ↔ g.Edge v u ∨ g.Edge u v := by
  rw [neighbours, List.mem_append, mem_successors, mem_predecessors]
  rfl

theorem mem_neighbours_comm {u v : α} : u ∈ g.neighbours v ↔ v ∈ g.neighbours u := by
  rw [mem_neighbours, mem_neighbours, or_comm]

theorem WellFormed.neighbour_mem (wf : g.WellFormed) {u v : α} (h : u ∈ g.neighbours v) :
    u ∈ g.vertices := by
  rcases mem_neighbours.mp h with h | h
  · exact wf.target_mem h
  · exact wf.source_mem h

end Digraph
end SchemaMigration
