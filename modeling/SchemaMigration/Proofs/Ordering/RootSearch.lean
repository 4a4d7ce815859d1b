import SchemaMigration.Ordering.Roots
import SchemaMigration.Proofs.Ordering.Digraph

/-!
# SchemaMigration.Proofs.Ordering.RootSearch

The search for roots finds a cycle exactly where there is one.

The path of a walk is a chain of edges from the current vertex to the one where the walk began
(`Way`). A vertex that is neither finished nor off the path is on it, so the edge that led there
closes a circuit. A vertex is finished after all its predecessors, so finished vertices are
accessible (`RootSearch.Sound`), and no cycle goes through one.

* `roots_error`: what a failed search reports is a circuit.
* `roots_ok`: a search that succeeds has met accessible vertices only, and the roots are those of
  the given vertices that have no predecessor.
-/

namespace SchemaMigration
namespace Digraph

variable {α : Type} [DecidableEq α] {g : Digraph α}

/-- A path against the edges, its newest vertex first, and the vertices that are not on it. -/
structure Way (g : Digraph α) (path offPath : List α) : Prop where
  chain : path.IsChain g.Edge
  nodup : path.Nodup
  offPath_nodup : offPath.Nodup
  apart : ∀ v ∈ path, v ∉ offPath
  cover : ∀ v ∈ g.vertices, v ∈ path ∨ v ∈ offPath

omit [DecidableEq α] in
theorem Way.start (hn : g.vertices.Nodup) : Way g [] g.vertices where
  chain := .nil
  nodup := .nil
  offPath_nodup := hn
  apart := fun _ h => absurd h List.not_mem_nil
  cover := fun _ h => .inr h

theorem Way.push {path offPath : List α} (way : Way g path offPath) {v : α} (hv : v ∈ offPath)
    (he : ∀ p ∈ path.head?, g.Edge v p) : Way g (v :: path) (offPath.erase v) where
  chain := List.isChain_cons.mpr ⟨he, way.chain⟩
  nodup := List.nodup_cons.mpr ⟨fun h => way.apart v h hv, way.nodup⟩
  offPath_nodup := way.offPath_nodup.erase v
  apart := by
    intro u hu hmem
    rcases List.mem_cons.mp hu with rfl | hu
    · exact way.offPath_nodup.not_mem_erase hmem
    · exact way.apart u hu (List.mem_of_mem_erase hmem)
  cover := by
    intro u hu
    by_cases h : u = v
    · exact .inl (h ▸ List.mem_cons_self)
    · rcases way.cover u hu with hu | hu
      · exact .inl (List.mem_cons_of_mem v hu)
      · exact .inr ((List.mem_erase_of_ne h).mpr hu)

theorem edge_of_mem_predecessors {u v : α} (h : u ∈ g.predecessors v) : g.Edge u v :=
  mem_predecessors.mp h

/-! ## A failed search -/

theorem closedWalk_append (front back : List α) {v : α} (hv : v ∉ front) :
    closedWalk (front ++ v :: back) v = v :: (front ++ [v]) := by
  have hfront : ∀ u ∈ front, decide (u ≠ v) = true := by
    intro u hu
    exact decide_eq_true fun h => hv (h ▸ hu)
  rw [closedWalk, List.takeWhile_append_of_pos hfront, List.takeWhile_cons_of_neg (by simp),
    List.append_nil]

/-- An edge from a vertex of the path to the head of the path closes a circuit. -/
theorem isCircuit_closedWalk {path : List α} {v : α} (hchain : path.IsChain g.Edge)
    (hn : path.Nodup) (hv : v ∈ path) (he : ∀ p ∈ path.head?, g.Edge v p) :
    IsCircuit g.Edge (closedWalk path v) := by
  obtain ⟨front, back, rfl, hfront⟩ := List.eq_append_cons_of_mem hv
  rw [closedWalk_append front back hfront]
  have hprefix : front ++ [v] <+: front ++ v :: back :=
    (List.prefix_append_right_inj front).mpr (List.prefix_append [v] back)
  refine ⟨?_, by simp, ?_, ?_⟩
  · rw [← List.cons_append, List.getLast?_concat]; rfl
  · rw [← List.cons_append, List.dropLast_concat]
    exact List.nodup_cons.mpr ⟨hfront, (List.nodup_append.mp hn).1⟩
  · refine List.isChain_cons.mpr ⟨?_, hchain.prefix hprefix⟩
    intro p hp
    refine he p ?_
    cases front with
    | nil => exact hp
    | cons q rest => exact hp

/-- A walk that fails reports a circuit, and so does a series of walks. -/
theorem isCircuit_of_visit (wf : g.WellFormed) :
    (∀ path offPath v search, Way g path offPath → v ∈ g.vertices →
      (∀ p ∈ path.head?, g.Edge v p) → ∀ walk, g.visit path offPath v search = .error walk →
        IsCircuit g.Edge walk) ∧
    (∀ path offPath vs search, Way g path offPath →
      (∀ v ∈ vs, v ∈ g.vertices ∧ ∀ p ∈ path.head?, g.Edge v p) → ∀ walk,
        g.visitAll path offPath vs search = .error walk → IsCircuit g.Edge walk) := by
  refine visit.mutual_induct g _ _ ?finished ?inside ?done ?onPath ?nil ?stop ?next
  case finished =>
    intro path offPath v search hf _ _ _ walk h
    rw [visit, if_pos hf] at h
    cases h
  case inside =>
    intro path offPath v search hf hoff walk hinner ih way _ he walk' h
    rw [visit, if_neg hf, if_pos hoff, hinner] at h
    cases h
    refine ih (way.push hoff he) ?_ walk hinner
    intro u hu
    have hedge := edge_of_mem_predecessors hu
    refine ⟨wf.source_mem hedge, ?_⟩
    rintro p ⟨⟩
    exact hedge
  case done =>
    intro path offPath v search hf hoff after hinner _ _ _ _ walk h
    rw [visit, if_neg hf, if_pos hoff, hinner] at h
    cases h
  case onPath =>
    intro path offPath v search hf hoff way hv he walk h
    rw [visit, if_neg hf, if_neg hoff] at h
    cases h
    -- neither finished nor off the path, so the walk has come back to its own path
    exact isCircuit_closedWalk way.chain way.nodup ((way.cover v hv).resolve_right hoff) he
  case nil =>
    intro path offPath search _ _ walk h
    rw [visitAll] at h
    cases h
  case stop =>
    intro path offPath search v rest walk hv ih way hvs walk' h
    rw [visitAll, hv] at h
    cases h
    exact ih way (hvs v List.mem_cons_self).1 (hvs v List.mem_cons_self).2 walk hv
  case next =>
    intro path offPath search v rest after hv _ ih way hvs walk h
    rw [visitAll, hv] at h
    exact ih way (fun u hu => hvs u (List.mem_cons_of_mem v hu)) walk h

theorem roots_error (wf : g.WellFormed) {members walk : List α}
    (hm : ∀ v ∈ members, v ∈ g.vertices) (h : g.roots members = .error walk) :
    IsCircuit g.Edge walk := by
  rw [roots] at h
  split at h
  · rename_i walk' hw
    cases h
    refine (isCircuit_of_visit wf).2 _ _ _ _ (.start wf.vertices_nodup) ?_ _ hw
    intro v hv
    exact ⟨hm v hv, fun p hp => by cases hp⟩
  · cases h

/-! ## A search that succeeds -/

/-- What holds of a search at any time: finished vertices are accessible, and those of them that
have no predecessor are the roots, in the order in which they were finished. -/
structure Sound (g : Digraph α) (search : RootSearch α) : Prop where
  nodup : search.finished.Nodup
  acc : ∀ v ∈ search.finished, Acc g.Edge v
  roots_eq : search.roots = (search.finished.filter fun v => (g.predecessors v).isEmpty).reverse

theorem Sound.start : Sound g {} where
  nodup := .nil
  acc := fun _ h => absurd h List.not_mem_nil
  roots_eq := rfl

/-- A vertex whose predecessors are finished can be finished. -/
theorem Sound.finish {search : RootSearch α} (hs : Sound g search) {v : α}
    (hv : v ∉ search.finished) (hp : ∀ u ∈ g.predecessors v, u ∈ search.finished) :
    Sound g {
      finished := v :: search.finished
      roots := if (g.predecessors v).isEmpty then search.roots ++ [v] else search.roots } where
  nodup := List.nodup_cons.mpr ⟨hv, hs.nodup⟩
  acc := by
    intro u hu
    rcases List.mem_cons.mp hu with rfl | hu
    · exact .intro u fun w hw => hs.acc w (hp w (mem_predecessors.mpr hw))
    · exact hs.acc u hu
  roots_eq := by
    rw [List.filter_cons, hs.roots_eq]
    split
    · rw [List.reverse_cons]
    · rfl

/-- `after` is a sound search that has kept what was finished `before`, and what is new was off
the path and satisfies `P`. -/
structure Grown (g : Digraph α) (P : α → Prop) (offPath : List α)
    (before after : RootSearch α) : Prop where
  sound : Sound g after
  kept : ∀ v ∈ before.finished, v ∈ after.finished
  new : ∀ v ∈ after.finished, v ∈ before.finished ∨ v ∈ offPath ∧ P v

/-- A walk that succeeds finishes its vertex, and a series of walks all of theirs. What they
finish besides are vertices with a way to them, so a property that predecessors inherit holds of
it. -/
theorem grown_of_visit {P : α → Prop} (hP : ∀ {u v}, g.Edge u v → P v → P u) :
    (∀ path offPath v search, offPath.Nodup → Sound g search → P v → ∀ after,
      g.visit path offPath v search = .ok after →
        Grown g P offPath search after ∧ v ∈ after.finished) ∧
    (∀ path offPath vs search, offPath.Nodup → Sound g search → (∀ v ∈ vs, P v) → ∀ after,
      g.visitAll path offPath vs search = .ok after →
        Grown g P offPath search after ∧ ∀ v ∈ vs, v ∈ after.finished) := by
  refine visit.mutual_induct g _ _ ?finished ?inside ?done ?onPath ?nil ?stop ?next
  case finished =>
    intro path offPath v search hf _ hs _ after h
    rw [visit, if_pos hf] at h
    cases h
    exact ⟨⟨hs, fun _ hu => hu, fun _ hu => .inl hu⟩, hf⟩
  case inside =>
    intro path offPath v search hf hoff walk hinner _ _ _ _ after h
    rw [visit, if_neg hf, if_pos hoff, hinner] at h
    cases h
  case done =>
    intro path offPath v search hf hoff after hinner ih hn hs hv after' h
    rw [visit, if_neg hf, if_pos hoff, hinner] at h
    cases h
    obtain ⟨grown, hpred⟩ := ih (hn.erase v) hs
      (fun u hu => hP (edge_of_mem_predecessors hu) hv) after hinner
    -- `v` is on the path while its predecessors are walked, so they do not finish it
    have hnew : v ∉ after.finished := by
      intro hmem
      rcases grown.new v hmem with hmem | ⟨hmem, -⟩
      · exact hf hmem
      · exact hn.not_mem_erase hmem
    refine ⟨⟨grown.sound.finish hnew hpred, ?_, ?_⟩, List.mem_cons_self⟩
    · intro u hu
      exact List.mem_cons_of_mem v (grown.kept u hu)
    · intro u hu
      rcases List.mem_cons.mp hu with rfl | hu
      · exact .inr ⟨hoff, hv⟩
      · exact (grown.new u hu).imp_right fun ⟨hmem, hPu⟩ => ⟨List.mem_of_mem_erase hmem, hPu⟩
  case onPath =>
    intro path offPath v search hf hoff _ _ _ after h
    rw [visit, if_neg hf, if_neg hoff] at h
    cases h
  case nil =>
    intro path offPath search _ hs _ after h
    rw [visitAll] at h
    cases h
    exact ⟨⟨hs, fun _ hu => hu, fun _ hu => .inl hu⟩, fun _ hv => absurd hv List.not_mem_nil⟩
  case stop =>
    intro path offPath search v rest walk hv _ _ _ _ after h
    rw [visitAll, hv] at h
    cases h
  case next =>
    intro path offPath search v rest mid hv ihv ihrest hn hs hvs after h
    rw [visitAll, hv] at h
    obtain ⟨first, hmid⟩ := ihv hn hs (hvs v List.mem_cons_self) mid hv
    obtain ⟨later, hrest⟩ := ihrest hn first.sound
      (fun u hu => hvs u (List.mem_cons_of_mem v hu)) after h
    refine ⟨⟨later.sound, fun u hu => later.kept u (first.kept u hu), ?_⟩, ?_⟩
    · intro u hu
      rcases later.new u hu with hu | hu
      · exact first.new u hu
      · exact .inr hu
    · intro u hu
      rcases List.mem_cons.mp hu with rfl | hu
      · exact later.kept u hmid
      · exact hrest u hu

theorem roots_ok (hn : g.vertices.Nodup) {members found : List α}
    (hc : ∀ {u v}, g.Edge u v → v ∈ members → u ∈ members) (h : g.roots members = .ok found) :
    (∀ v ∈ members, Acc g.Edge v) ∧ found.Nodup ∧
      ∀ v, v ∈ found ↔ v ∈ members ∧ g.predecessors v = [] := by
  rw [roots] at h
  split at h
  · cases h
  · rename_i search hs
    cases h
    obtain ⟨grown, hall⟩ := (grown_of_visit hc).2 _ _ _ _ hn .start (fun _ hv => hv) _ hs
    have hfinished : ∀ v, v ∈ search.finished ↔ v ∈ members := by
      intro v
      refine ⟨fun hv => ?_, hall v⟩
      rcases grown.new v hv with hv | hv
      · exact absurd hv List.not_mem_nil
      · exact hv.2
    refine ⟨fun v hv => grown.sound.acc v (hall v hv), ?_, fun v => ?_⟩
    · rw [grown.sound.roots_eq]
      exact (List.reverse_perm _).symm.nodup (grown.sound.nodup.filter _)
    · rw [grown.sound.roots_eq, List.mem_reverse, List.mem_filter, hfinished v,
        List.isEmpty_iff]

end Digraph
end SchemaMigration
