import Mathlib.Data.List.Pairwise
import SchemaMigration.Ordering.Component
import SchemaMigration.Proofs.Ordering.Digraph

/-!
# SchemaMigration.Proofs.Ordering.Component

Components are closed under edges and share out the vertices.

`flood` moves vertices from the unseen ones to the ones met and never back, and it has taken all
unseen neighbours of a vertex out by the time that it has met the vertex. So no edge leads from
what one search meets to what it leaves for the next.

* `components_perm`: the components together are the vertices, each once.
* `components_apart`: no edge joins two components.
* `mem_component_of_neighbour`: a component has all neighbours of its members.
-/

namespace SchemaMigration
namespace Digraph

variable {α : Type} [DecidableEq α] {g : Digraph α}

/-- No edge leads from one list of vertices to the other or back. -/
def Apart (g : Digraph α) (a b : List α) : Prop := ∀ v ∈ a, ∀ u ∈ b, u ∉ g.neighbours v

instance : Std.Symm g.Apart :=
  ⟨fun _ _ h v hv u hu hn => h u hu v hv (mem_neighbours_comm.mp hn)⟩

/-! ## One search -/

theorem enqueue_perm (queue unseen candidates : List α) :
    ((enqueue queue unseen candidates).1 ++ (enqueue queue unseen candidates).2).Perm
      (queue ++ unseen) := by
  induction candidates generalizing queue unseen with
  | nil => exact .refl _
  | cons v rest ih =>
    rw [enqueue]
    split
    · rename_i hv
      refine (ih _ _).trans ?_
      rw [List.append_assoc]
      exact (List.perm_cons_erase hv).symm.append_left queue
    · exact ih _ _

theorem enqueue_unseen_sublist (queue unseen candidates : List α) :
    (enqueue queue unseen candidates).2.Sublist unseen := by
  induction candidates generalizing queue unseen with
  | nil => exact .refl _
  | cons v rest ih =>
    rw [enqueue]
    split
    · exact (ih _ _).trans List.erase_sublist
    · exact ih _ _

theorem not_mem_enqueue_unseen {queue unseen candidates : List α} (hn : unseen.Nodup) {v : α}
    (hv : v ∈ candidates) : v ∉ (enqueue queue unseen candidates).2 := by
  induction candidates generalizing queue unseen with
  | nil => cases hv
  | cons w rest ih =>
    rw [enqueue]
    rcases List.mem_cons.mp hv with rfl | hv
    · split
      · intro hmem
        exact hn.not_mem_erase ((enqueue_unseen_sublist _ _ _).subset hmem)
      · rename_i hw
        intro hmem
        exact hw ((enqueue_unseen_sublist _ _ _).subset hmem)
    · split
      · exact ih (hn.erase w) hv
      · exact ih hn hv

theorem flood_perm (queue unseen : List α) :
    ((g.flood queue unseen).1 ++ (g.flood queue unseen).2).Perm (queue ++ unseen) := by
  fun_induction flood g queue unseen with
  | case1 unseen => exact .refl _
  | case2 unseen v rest next result ih =>
    exact (ih.trans (enqueue_perm _ _ _)).cons v

theorem flood_unseen_sublist (queue unseen : List α) :
    (g.flood queue unseen).2.Sublist unseen := by
  fun_induction flood g queue unseen with
  | case1 unseen => exact .refl _
  | case2 unseen v rest next result ih =>
    exact ih.trans (enqueue_unseen_sublist _ _ _)

/-- No neighbour of a vertex that a search has met stays unseen. -/
theorem not_mem_flood_unseen {queue unseen : List α} (hn : unseen.Nodup) {u v : α}
    (hv : v ∈ (g.flood queue unseen).1) (hu : u ∈ g.neighbours v) :
    u ∉ (g.flood queue unseen).2 := by
  fun_induction flood g queue unseen with
  | case1 unseen => cases hv
  | case2 unseen w rest next result ih =>
    rcases List.mem_cons.mp hv with rfl | hv
    · intro hmem
      exact not_mem_enqueue_unseen hn hu ((flood_unseen_sublist _ _).subset hmem)
    · exact ih (hn.sublist (enqueue_unseen_sublist _ _ _)) hv

/-! ## All components -/

theorem componentsOf_perm (unseen : List α) : (g.componentsOf unseen).flatten.Perm unseen := by
  fun_induction componentsOf g unseen with
  | case1 => exact .refl _
  | case2 v rest found ih =>
    rw [List.flatten_cons]
    exact (ih.append_left _).trans (flood_perm [v] rest)

theorem mem_of_mem_componentsOf {unseen members : List α} {v : α}
    (hc : members ∈ g.componentsOf unseen) (hv : v ∈ members) : v ∈ unseen :=
  (componentsOf_perm unseen).subset (List.mem_flatten.mpr ⟨members, hc, hv⟩)

theorem componentsOf_apart {unseen : List α} (hn : unseen.Nodup) :
    (g.componentsOf unseen).Pairwise g.Apart := by
  fun_induction componentsOf g unseen with
  | case1 => exact .nil
  | case2 v rest found ih =>
    have hrest : rest.Nodup := (List.nodup_cons.mp hn).2
    refine .cons ?_ (ih (hrest.sublist (flood_unseen_sublist [v] rest)))
    intro later hlater w hw u hu hn
    exact not_mem_flood_unseen hrest hw hn (mem_of_mem_componentsOf hlater hu)

theorem components_perm (g : Digraph α) : g.components.flatten.Perm g.vertices :=
  componentsOf_perm _

theorem mem_vertices_of_mem_component {members : List α} (hc : members ∈ g.components) {v : α}
    (hv : v ∈ members) : v ∈ g.vertices :=
  mem_of_mem_componentsOf hc hv

theorem exists_component {v : α} (hv : v ∈ g.vertices) : ∃ members ∈ g.components, v ∈ members :=
  List.mem_flatten.mp ((components_perm g).symm.subset hv)

theorem component_nodup (hn : g.vertices.Nodup) {members : List α} (hc : members ∈ g.components) :
    members.Nodup :=
  (List.nodup_flatten.mp ((components_perm g).symm.nodup hn)).1 members hc

theorem components_apart (hn : g.vertices.Nodup) {a b : List α} (ha : a ∈ g.components)
    (hb : b ∈ g.components) (hab : a ≠ b) : g.Apart a b :=
  (componentsOf_apart hn).forall ha hb hab

/-- A component has all neighbours of its members. -/
theorem mem_component_of_neighbour (wf : g.WellFormed) {members : List α}
    (hc : members ∈ g.components) {u v : α} (hv : v ∈ members) (hu : u ∈ g.neighbours v) :
    u ∈ members := by
  obtain ⟨other, ho, huo⟩ := exists_component (wf.neighbour_mem hu)
  by_cases h : members = other
  · exact h ▸ huo
  · exact absurd hu (components_apart wf.vertices_nodup hc ho h _ hv _ huo)

end Digraph
end SchemaMigration
