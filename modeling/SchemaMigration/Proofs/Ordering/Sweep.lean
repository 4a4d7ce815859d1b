import Mathlib.Data.List.Perm.Subperm
import SchemaMigration.Ordering.Sweep
import SchemaMigration.Proofs.Ordering.Digraph

/-!
# SchemaMigration.Proofs.Ordering.Sweep

The sweep of a component, edge by edge.

`Passes` relates the states that a sweep passes through to the edges that it has still to cross
before it emits again. It says nothing of a number of steps, so it is the loop that runs until the
queue is empty. Its invariant (`Swept`) ties the crossed edges to the emitted predecessors: an
edge has been crossed, or is about to be, exactly if its source has been emitted, and a vertex is
in the queue or emitted exactly if all edges to it have been crossed.

* `Passes.pending_pos`: an edge is only crossed to a vertex that waits for it.
* `sweep_finishes`: as many steps as there are members let the queue run empty.
* `Passes.emitted_eq`: a sweep has one end.
* `sweep_perm`, `sweep_ordered`: all members are emitted once, and none before a predecessor.
-/

namespace SchemaMigration
namespace Digraph

variable {α : Type} [DecidableEq α] {g : Digraph α} {le : α → α → Bool}

theorem count_successors (g : Digraph α) (u v : α) :
    (g.successors u).count v = g.edges.count (u, v) := by
  rw [successors, List.count_reverse]
  induction g.edges with
  | nil => rfl
  | cons e rest ih =>
    obtain ⟨a, b⟩ := e
    by_cases ha : a = u <;> by_cases hb : b = v <;> simp [ha, hb, ih]

theorem count_predecessors (g : Digraph α) (u v : α) :
    (g.predecessors v).count u = g.edges.count (u, v) := by
  rw [predecessors, List.count_reverse]
  induction g.edges with
  | nil => rfl
  | cons e rest ih =>
    obtain ⟨a, b⟩ := e
    by_cases ha : a = u <;> by_cases hb : b = v <;> simp [ha, hb, ih]

theorem countP_mem_concat {vs : List α} {v : α} (hv : v ∉ vs) (us : List α) :
    us.countP (· ∈ vs ++ [v]) = us.countP (· ∈ vs) + us.count v := by
  induction us with
  | nil => rfl
  | cons u us ih =>
    rw [List.countP_cons, List.countP_cons, List.count_cons, ih]
    by_cases hu : u = v
    · subst hu; simp [hv]; omega
    · simp [hu]; omega

/-- The states of a sweep from some roots, with the vertices to which the last emitted one has
edges that are still to be crossed. -/
inductive Passes (g : Digraph α) (le : α → α → Bool) (roots : List α) :
    List α → Sweep α → Prop where
  | start : Passes g le roots [] ⟨[], roots, []⟩
  | emit {v : α} {rest emitted arrived : List α} :
      Passes g le roots [] ⟨emitted, v :: rest, arrived⟩ →
        Passes g le roots ((g.successors v).mergeSort le) ⟨emitted ++ [v], rest, arrived⟩
  | cross {v : α} {left : List α} {sweep : Sweep α} :
      Passes g le roots (v :: left) sweep → Passes g le roots left (g.arrive sweep v)

/-- A set of vertices without edges to others or from others, without cycles, and with its roots
known. -/
structure Rooted (g : Digraph α) (members roots : List α) : Prop where
  nodup : members.Nodup
  source_mem : ∀ {u v}, g.Edge u v → v ∈ members → u ∈ members
  target_mem : ∀ {u v}, g.Edge u v → u ∈ members → v ∈ members
  acc : ∀ v ∈ members, Acc g.Edge v
  roots_nodup : roots.Nodup
  mem_roots : ∀ v, v ∈ roots ↔ v ∈ members ∧ g.predecessors v = []

structure Swept (g : Digraph α) (members left : List α) (sweep : Sweep α) : Prop where
  nodup : (sweep.emitted ++ sweep.queue).Nodup
  inside : ∀ v ∈ sweep.emitted ++ sweep.queue, v ∈ members
  counted : ∀ v, sweep.arrived.count v + left.count v =
    (g.predecessors v).countP (· ∈ sweep.emitted)
  ready : ∀ v ∈ members, v ∈ sweep.emitted ++ sweep.queue ↔ sweep.arrived.count v = g.indegree v
  ordered : sweep.emitted.Pairwise fun u v => ¬ g.Edge v u

namespace Swept

variable {members roots left : List α} {sweep : Sweep α}

theorem crossed_le (h : Swept g members left sweep) (v : α) :
    sweep.arrived.count v + left.count v ≤ g.indegree v := by
  rw [h.counted v, indegree]
  exact List.countP_le_length

theorem pending_pos {v : α} (h : Swept g members (v :: left) sweep) : 0 < g.pending sweep v := by
  have := h.crossed_le v
  rw [List.count_cons_self] at this
  rw [pending]
  omega

/-- What is in the queue or emitted has all its predecessors emitted. -/
theorem predecessor_emitted (h : Swept g members left sweep) {u v : α}
    (hv : v ∈ sweep.emitted ++ sweep.queue) (he : g.Edge u v) : u ∈ sweep.emitted := by
  have hready := (h.ready v (h.inside v hv)).mp hv
  have hall : (g.predecessors v).countP (· ∈ sweep.emitted) = (g.predecessors v).length := by
    have := h.crossed_le v
    rw [← h.counted v]
    rw [indegree] at this hready
    omega
  exact of_decide_eq_true (List.countP_eq_length.mp hall u (mem_predecessors.mpr he))

theorem start (hr : Rooted g members roots) : Swept g members [] ⟨[], roots, []⟩ where
  nodup := hr.roots_nodup
  inside := fun v hv => ((hr.mem_roots v).mp hv).1
  counted := fun v => by simp
  ready := by
    intro v hv
    rw [List.nil_append, hr.mem_roots, List.count_nil, indegree, eq_comm (a := 0),
      List.length_eq_zero_iff]
    exact and_iff_right hv
  ordered := .nil

theorem emit {v : α} {rest emitted arrived : List α}
    (h : Swept g members [] ⟨emitted, v :: rest, arrived⟩) :
    Swept g members ((g.successors v).mergeSort le) ⟨emitted ++ [v], rest, arrived⟩ where
  nodup := by simpa using h.nodup
  inside := by simpa using h.inside
  counted := by
    intro w
    have hv : v ∉ emitted := by
      have := List.nodup_append.mp h.nodup
      exact fun hmem => this.2.2 v hmem v List.mem_cons_self rfl
    have hcounted := h.counted w
    rw [List.count_nil, Nat.add_zero] at hcounted
    rw [hcounted, (List.mergeSort_perm _ _).count_eq, countP_mem_concat hv, count_successors,
      count_predecessors]
  ready := by simpa using h.ready
  ordered := by
    refine List.pairwise_append.mpr ⟨h.ordered, List.pairwise_singleton _ _, ?_⟩
    intro u hu w hw he
    rw [List.mem_singleton] at hw
    subst hw
    have hw : w ∈ emitted := h.predecessor_emitted (List.mem_append_left _ hu) he
    exact (List.nodup_append.mp h.nodup).2.2 w hw w List.mem_cons_self rfl

/-- The vertex of an edge that is about to be crossed is a member that has not joined yet. -/
theorem head_waits (hr : Rooted g members roots) {v : α} (h : Swept g members (v :: left) sweep) :
    v ∈ members ∧ v ∉ sweep.emitted ++ sweep.queue := by
  have hcounted := h.counted v
  have hle := h.crossed_le v
  rw [List.count_cons_self] at hcounted hle
  have hpos : 0 < (g.predecessors v).countP (· ∈ sweep.emitted) := by omega
  obtain ⟨u, hu, hue⟩ := List.countP_pos_iff.mp hpos
  have humem : u ∈ members := h.inside u (List.mem_append_left _ (of_decide_eq_true hue))
  have hv : v ∈ members := hr.target_mem (mem_predecessors.mp hu) humem
  refine ⟨hv, fun hmem => ?_⟩
  have := (h.ready v hv).mp hmem
  omega

theorem cross (hr : Rooted g members roots) {v : α} (h : Swept g members (v :: left) sweep) :
    Swept g members left (g.arrive sweep v) := by
  obtain ⟨hv, hnew⟩ := h.head_waits hr
  have hcounted : ∀ w, (v :: sweep.arrived).count w + left.count w =
      (g.predecessors w).countP (· ∈ sweep.emitted) := by
    intro w
    rw [← h.counted w, List.count_cons, List.count_cons]
    omega
  have hother : ∀ w, w ≠ v → (v :: sweep.arrived).count w = sweep.arrived.count w := by
    intro w hw
    rw [List.count_cons_of_ne (Ne.symm hw)]
  rw [arrive]
  dsimp only
  -- the last edge into `v` makes it ready, any other one leaves it waiting
  split
  · rename_i hlast
    have hlast : (v :: sweep.arrived).count v = g.indegree v := by
      simp only [pending] at hlast
      omega
    refine ⟨?_, ?_, hcounted, ?_, h.ordered⟩
    · rw [← List.append_assoc]
      refine List.nodup_append.mpr ⟨h.nodup, List.nodup_singleton v, ?_⟩
      rintro a ha b hb rfl
      exact hnew (List.mem_singleton.mp hb ▸ ha)
    · intro w hw
      rw [← List.append_assoc] at hw
      rcases List.mem_append.mp hw with hw | hw
      · exact h.inside w hw
      · exact List.mem_singleton.mp hw ▸ hv
    · intro w hw
      rw [← List.append_assoc, List.mem_append, List.mem_singleton]
      by_cases hwv : w = v
      · subst hwv; exact ⟨fun _ => hlast, fun _ => .inr rfl⟩
      · rw [hother w hwv, ← h.ready w hw]
        exact or_iff_left hwv
  · rename_i hmore
    have hmore : (v :: sweep.arrived).count v ≠ g.indegree v := by
      simp only [pending] at hmore
      omega
    refine ⟨h.nodup, h.inside, hcounted, ?_, h.ordered⟩
    intro w hw
    by_cases hwv : w = v
    · subst hwv; exact ⟨fun hmem => absurd hmem hnew, fun heq => absurd heq hmore⟩
    · rw [hother w hwv]; exact h.ready w hw

/-- A sweep that has nothing left to do has emitted every member. -/
theorem complete (hr : Rooted g members roots) (h : Swept g members [] sweep)
    (hq : sweep.queue = []) : ∀ v ∈ members, v ∈ sweep.emitted := by
  intro v hv
  -- along the edges: with all its predecessors emitted a vertex is ready, and nothing is queued
  induction hr.acc v hv with
  | intro v _ ih =>
    have hall : (g.predecessors v).countP (· ∈ sweep.emitted) = (g.predecessors v).length := by
      refine List.countP_eq_length.mpr fun u hu => decide_eq_true ?_
      have he := mem_predecessors.mp hu
      exact ih u he (hr.source_mem he hv)
    have hready : v ∈ sweep.emitted ++ sweep.queue := by
      refine (h.ready v hv).mpr ?_
      have := h.counted v
      rw [List.count_nil] at this
      rw [indegree]
      omega
    rwa [hq, List.append_nil] at hready

end Swept

section Run

variable {members roots left : List α} {sweep : Sweep α}

theorem Passes.swept (hr : Rooted g members roots) (h : Passes g le roots left sweep) :
    Swept g members left sweep := by
  induction h with
  | start => exact .start hr
  | emit _ ih => exact ih.emit
  | cross _ ih => exact ih.cross hr

/-- No counter of predecessors is lowered below zero: it is positive when an edge is crossed. -/
theorem Passes.pending_pos (hr : Rooted g members roots) {v : α}
    (h : Passes g le roots (v :: left) sweep) : 0 < g.pending sweep v :=
  (h.swept hr).pending_pos

theorem Passes.crossAll (h : Passes g le roots left sweep) :
    Passes g le roots [] (left.foldl g.arrive sweep) := by
  induction left generalizing sweep with
  | nil => exact h
  | cons v rest ih => exact ih h.cross

theorem emitted_arrive (sweep : Sweep α) (v : α) : (g.arrive sweep v).emitted = sweep.emitted := by
  rw [arrive]
  dsimp only
  split <;> rfl

theorem emitted_foldl_arrive (left : List α) (sweep : Sweep α) :
    (left.foldl g.arrive sweep).emitted = sweep.emitted := by
  induction left generalizing sweep with
  | nil => rfl
  | cons v rest ih => rw [List.foldl_cons, ih, emitted_arrive]

/-- A number of steps passes through states of the sweep, and each step emits a vertex unless the
queue has run empty. -/
theorem Passes.sweepFor (h : Passes g le roots [] sweep) (steps : Nat) :
    Passes g le roots [] (g.sweepFor le steps sweep) ∧
      ((g.sweepFor le steps sweep).queue = [] ∨
        (g.sweepFor le steps sweep).emitted.length = sweep.emitted.length + steps) := by
  induction steps generalizing sweep with
  | zero => exact ⟨h, .inr rfl⟩
  | succ steps ih =>
    obtain ⟨emitted, queue, arrived⟩ := sweep
    cases queue with
    | nil => exact ⟨h, .inl rfl⟩
    | cons v rest =>
      obtain ⟨hpass, hend⟩ := ih h.emit.crossAll
      refine ⟨hpass, hend.imp_right fun hlen => ?_⟩
      rw [emitted_foldl_arrive, List.length_append, List.length_singleton] at hlen
      exact hlen.trans (Nat.succ_add_eq_add_succ emitted.length steps)

/-- As many steps as there are members are enough: the queue is empty after them. -/
theorem sweep_finishes (hr : Rooted g members roots) (le : α → α → Bool) :
    ∃ sweep, Passes g le roots [] sweep ∧ sweep.queue = [] ∧
      sweep.emitted = g.sweep le roots members.length := by
  have hstart : Passes g le roots [] ⟨[], roots, []⟩ := .start
  obtain ⟨hpass, hend⟩ := hstart.sweepFor members.length
  refine ⟨_, hpass, ?_, rfl⟩
  rcases hend with hq | hlen
  · exact hq
  · have hs := hpass.swept hr
    have hle := (List.subperm_of_subset hs.nodup hs.inside).length_le
    rw [List.length_append] at hle
    rw [List.length_nil] at hlen
    exact List.length_eq_zero_iff.mp (by omega)

/-- Whatever state of a sweep the steps are counted from, they end where those from the start do. -/
theorem Passes.sweepFor_eq (hr : Rooted g members roots) (h : Passes g le roots left sweep) :
    g.sweepFor le (members.length - sweep.emitted.length) (left.foldl g.arrive sweep) =
      g.sweepFor le members.length ⟨[], roots, []⟩ := by
  induction h with
  | start => rfl
  | @emit v rest emitted arrived h ih =>
    have hs := h.swept hr
    have hle : (emitted ++ v :: rest).length ≤ members.length :=
      (List.subperm_of_subset hs.nodup hs.inside).length_le
    rw [List.length_append, List.length_cons] at hle
    have hsteps : members.length - emitted.length =
        members.length - (emitted ++ [v]).length + 1 := by
      rw [List.length_append, List.length_singleton]
      omega
    rw [← ih]
    dsimp only [List.foldl_nil]
    rw [hsteps]
    rfl
  | @cross v left sweep h ih =>
    rw [emitted_arrive]
    exact ih

/-- A state of a sweep with an empty queue is its end. -/
theorem Passes.emitted_eq (hr : Rooted g members roots) (h : Passes g le roots [] sweep)
    (hq : sweep.queue = []) : sweep.emitted = g.sweep le roots members.length := by
  have hend : ∀ steps, g.sweepFor le steps sweep = sweep := by
    obtain ⟨emitted, queue, arrived⟩ := sweep
    cases hq
    intro steps
    cases steps <;> rfl
  rw [Digraph.sweep, ← h.sweepFor_eq hr, List.foldl_nil, hend]

theorem sweep_perm (hr : Rooted g members roots) (le : α → α → Bool) :
    (g.sweep le roots members.length).Perm members := by
  obtain ⟨sweep, hpass, hq, hs⟩ := sweep_finishes hr le
  have swept := hpass.swept hr
  have hnodup : sweep.emitted.Nodup := (List.nodup_append.mp swept.nodup).1
  rw [← hs]
  refine (List.perm_ext_iff_of_nodup hnodup hr.nodup).mpr fun v => ⟨fun hv => ?_, ?_⟩
  · exact swept.inside v (List.mem_append_left _ hv)
  · exact swept.complete hr hq v

theorem sweep_ordered (hr : Rooted g members roots) (le : α → α → Bool) :
    (g.sweep le roots members.length).Pairwise fun u v => ¬ g.Edge v u := by
  obtain ⟨sweep, hpass, -, hs⟩ := sweep_finishes hr le
  rw [← hs]
  exact (hpass.swept hr).ordered

end Run

end Digraph
end SchemaMigration
