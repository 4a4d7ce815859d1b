/-!
# SchemaMigration.Ordering.Digraph

Finite directed graphs. An edge from `a` to `b` says that `a` runs before `b`.

* `Digraph` : vertices and edges, the edges in the order in which they were first declared.
* `Digraph.predecessors`, `Digraph.successors` : direct neighbours, the one whose edge is the
  newest first.
* `Digraph.neighbours` : both, successors first.
-/

namespace SchemaMigration

structure Digraph (α : Type) where
  vertices : List α
  edges : List (α × α)
deriving Repr

namespace Digraph

variable {α : Type} [DecidableEq α]

/-- The graph of declared edges; an edge that is declared again keeps its first place. -/
def ofDeclared (vertices : List α) (declared : List (α × α)) : Digraph α :=
  ⟨vertices, declared.eraseDups⟩

/-- The vertices with an edge to `v`. -/
def predecessors (g : Digraph α) (v : α) : List α :=
  ((g.edges.filter (·.2 = v)).map (·.1)).reverse

/-- The vertices with an edge from `v`. -/
def successors (g : Digraph α) (v : α) : List α :=
  ((g.edges.filter (·.1 = v)).map (·.2)).reverse

def neighbours (g : Digraph α) (v : α) : List α := g.successors v ++ g.predecessors v

/-- The number of edges to `v`. -/
def indegree (g : Digraph α) (v : α) : Nat := (g.predecessors v).length

theorem mem_predecessors {g : Digraph α} {u v : α} :
    u ∈ g.predecessors v ↔ (u, v) ∈ g.edges := by
  simp only [predecessors, List.mem_reverse, List.mem_map, List.mem_filter, decide_eq_true_eq]
  constructor
  · rintro ⟨⟨a, b⟩, ⟨h, rfl⟩, rfl⟩; exact h
  · intro h; exact ⟨(u, v), ⟨h, rfl⟩, rfl⟩

theorem mem_successors {g : Digraph α} {u v : α} :
    u ∈ g.successors v ↔ (v, u) ∈ g.edges := by
  simp only [successors, List.mem_reverse, List.mem_map, List.mem_filter, decide_eq_true_eq]
  constructor
  · rintro ⟨⟨a, b⟩, ⟨h, rfl⟩, rfl⟩; exact h
  · intro h; exact ⟨(v, u), ⟨h, rfl⟩, rfl⟩

end Digraph
end SchemaMigration
