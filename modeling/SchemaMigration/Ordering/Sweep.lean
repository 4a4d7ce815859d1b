import SchemaMigration.Ordering.Digraph

/-!
# SchemaMigration.Ordering.Sweep

The sweep that puts a component in order: breadth-first from the roots, where a vertex joins the
queue when the last of its predecessors has been emitted.

* `Sweep` : the state: what has been emitted, what waits, and the edges crossed so far.
* `Sweep.pending` : how many predecessors a vertex still waits for.
* `Digraph.sweepStep` : emit the first of the queue.
* `Digraph.sweep` : the vertices in the order emitted.
-/

namespace SchemaMigration

/-- `arrived` has a vertex once for each of its edges that has been crossed. -/
structure Sweep (α : Type) where
  emitted : List α
  queue : List α
  arrived : List α
deriving Repr

namespace Digraph

variable {α : Type} [DecidableEq α]

/-- How many predecessors of `v` have not been emitted. -/
def pending (g : Digraph α) (sweep : Sweep α) (v : α) : Int :=
  (g.indegree v : Int) - sweep.arrived.count v

/-- Cross an edge to `v`, which joins the queue if it was the last one pending. -/
def arrive (g : Digraph α) (sweep : Sweep α) (v : α) : Sweep α :=
  let crossed := { sweep with arrived := v :: sweep.arrived }
  if g.pending crossed v = 0 then { crossed with queue := crossed.queue ++ [v] } else crossed

/-- Emit the first of the queue and cross its edges, successors in the order `le`; none when the
queue is empty. -/
def sweepStep (g : Digraph α) (le : α → α → Bool) (sweep : Sweep α) : Option (Sweep α) :=
  match sweep.queue with
  | [] => none
  | v :: rest =>
    some (((g.successors v).mergeSort le).foldl g.arrive
      ⟨sweep.emitted ++ [v], rest, sweep.arrived⟩)

/-- At most `steps` steps, fewer if the queue runs empty. -/
def sweepFor (g : Digraph α) (le : α → α → Bool) : (steps : Nat) → Sweep α → Sweep α
  | 0, sweep => sweep
  | steps + 1, sweep =>
    match g.sweepStep le sweep with
    | none => sweep
    | some next => g.sweepFor le steps next

/-- The order of a component of `size` vertices with the given roots. -/
def sweep (g : Digraph α) (le : α → α → Bool) (roots : List α) (size : Nat) : List α :=
  (g.sweepFor le size ⟨[], roots, []⟩).emitted

end Digraph
end SchemaMigration
