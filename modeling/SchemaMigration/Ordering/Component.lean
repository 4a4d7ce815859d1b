import SchemaMigration.Ordering.Digraph

/-!
# SchemaMigration.Ordering.Component

Components of a directed graph: the vertices that edges connect, whichever way they point.

* `Digraph.flood` : breadth-first search from a queue through vertices not seen yet.
* `Digraph.components` : all components, each in the order in which the search meets it.
-/

namespace SchemaMigration
namespace Digraph

variable {α : Type} [DecidableEq α]

/-- Move the candidates that nobody has seen to the end of the queue. -/
def enqueue : (queue unseen : List α) → (candidates : List α) → List α × List α
  | queue, unseen, [] => (queue, unseen)
  | queue, unseen, v :: rest =>
    if v ∈ unseen then enqueue (queue ++ [v]) (unseen.erase v) rest
    else enqueue queue unseen rest

theorem length_enqueue (queue unseen candidates : List α) :
    (enqueue queue unseen candidates).1.length + (enqueue queue unseen candidates).2.length =
      queue.length + unseen.length := by
  induction candidates generalizing queue unseen with
  | nil => rfl
  | cons v rest ih =>
    by_cases h : v ∈ unseen
    · have : 0 < unseen.length := List.length_pos_of_mem h
      simp only [enqueue, h, if_true, ih, List.length_append, List.length_singleton,
        List.length_erase_of_mem]
      omega
    · simp only [enqueue, h, if_false, ih]

theorem length_enqueue_unseen_le (queue unseen candidates : List α) :
    (enqueue queue unseen candidates).2.length ≤ unseen.length := by
  induction candidates generalizing queue unseen with
  | nil => simp [enqueue]
  | cons v rest ih =>
    by_cases h : v ∈ unseen
    · simp only [enqueue, h, if_true]
      exact Nat.le_trans (ih _ _) (List.length_erase_le)
    · simp only [enqueue, h, if_false]; exact ih _ _

/-- The vertices that a search meets, beginning with the queue, and those that it leaves unseen.
The first of the queue is taken each time, and its unseen neighbours join at the end. -/
def flood (g : Digraph α) (queue unseen : List α) : List α × List α :=
  match queue with
  | [] => ([], unseen)
  | v :: rest =>
    let next := enqueue rest unseen (g.neighbours v)
    let result := g.flood next.1 next.2
    (v :: result.1, result.2)
termination_by queue.length + unseen.length
decreasing_by
  rw [length_enqueue]
  simp only [List.length_cons]
  omega

theorem length_flood_unseen_le (g : Digraph α) (queue unseen : List α) :
    (g.flood queue unseen).2.length ≤ unseen.length := by
  fun_induction flood g queue unseen with
  | case1 => simp
  | case2 unseen v rest next result ih =>
    exact Nat.le_trans ih (length_enqueue_unseen_le _ _ _)

/-- The components among the given vertices. Each search begins at the first vertex that no
earlier one has met. -/
def componentsOf (g : Digraph α) (unseen : List α) : List (List α) :=
  match unseen with
  | [] => []
  | v :: rest =>
    let found := g.flood [v] rest
    found.1 :: g.componentsOf found.2
termination_by unseen.length
decreasing_by
  have := length_flood_unseen_le g [v] rest
  simp only [List.length_cons]
  omega

def components (g : Digraph α) : List (List α) := g.componentsOf g.vertices

end Digraph
end SchemaMigration
