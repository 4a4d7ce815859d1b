import SchemaMigration.Ordering.Digraph

/-!
# SchemaMigration.Ordering.Roots

The search for roots, the vertices without predecessor, by walking from each vertex to its
predecessors. A walk that comes back to its own path has found a cycle; one that comes to a
vertex whose walk is finished has only met another branch.

* `RootSearch` : what a search has found so far.
* `Digraph.visit`, `Digraph.visitAll` : the walk from one vertex, and from several in turn.
* `Digraph.roots` : the roots among some vertices, or a closed walk in the direction of the edges.
-/

namespace SchemaMigration

/-- The vertices whose walk is finished, the newest first, and the roots in the order found. -/
structure RootSearch (α : Type) where
  finished : List α := []
  roots : List α := []
deriving Repr

namespace Digraph

variable {α : Type} [DecidableEq α]

/-- The closed walk that a path closes at `v`, one of its vertices. The path leads from its last
entry against the edges to its first. -/
def closedWalk (path : List α) (v : α) : List α := v :: (path.takeWhile (· ≠ v) ++ [v])

mutual

/-- Walk from `v` to its predecessors. `path` is the way to `v`, the newest vertex first, and
`offPath` holds the vertices that are not on it. -/
def visit (g : Digraph α) (path offPath : List α) (v : α) (search : RootSearch α) :
    Except (List α) (RootSearch α) :=
  if v ∈ search.finished then .ok search
  else if v ∈ offPath then
    match g.visitAll (v :: path) (offPath.erase v) (g.predecessors v) search with
    | .error walk => .error walk
    | .ok after =>
      .ok {
        finished := v :: after.finished
        roots := if (g.predecessors v).isEmpty then after.roots ++ [v] else after.roots }
  else .error (closedWalk path v)
termination_by (offPath.length, 0)
decreasing_by
  have : 0 < offPath.length := List.length_pos_of_mem ‹v ∈ offPath›
  have := List.length_erase_of_mem ‹v ∈ offPath›
  exact Prod.Lex.left _ _ (by omega)

/-- Walk from each vertex in turn; the first closed walk ends it. -/
def visitAll (g : Digraph α) (path offPath : List α) (vs : List α) (search : RootSearch α) :
    Except (List α) (RootSearch α) :=
  match vs with
  | [] => .ok search
  | v :: rest =>
    match g.visit path offPath v search with
    | .error walk => .error walk
    | .ok after => g.visitAll path offPath rest after
termination_by (offPath.length, vs.length + 1)

end

def roots (g : Digraph α) (members : List α) : Except (List α) (List α) :=
  match g.visitAll [] g.vertices members {} with
  | .error walk => .error walk
  | .ok search => .ok search.roots

end Digraph
end SchemaMigration
