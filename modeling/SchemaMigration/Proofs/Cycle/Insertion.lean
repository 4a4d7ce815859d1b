import SchemaMigration.Proofs.Cycle.Standing
import SchemaMigration.Proofs.Ordering.Extension

/-!
# SchemaMigration.Proofs.Cycle.Insertion

A log from before a migration was added.

Such a log knows old names only, and those come in their old order. So the order is valid against
it as it was before.

* `exists_validateOrder_iff` : when an order is valid, for any log.
* `Log.mem_namesByRunOrder` : a log contains the names that it lists.
* `Extends.exists_validateOrder` : what was valid remains so.

`build_extends` puts it together with the execution order.
-/

namespace SchemaMigration

theorem Log.mem_namesByRunOrder {log : Log} {name : String} :
    name ∈ log.namesByRunOrder ↔ log.contains name = true := by
  rw [namesByRunOrder, byRunOrder, List.mem_map, contains, get?, List.find?_isSome]
  simp only [List.mem_mergeSort, decide_eq_true_eq]

theorem loggedNames_compare (ordered : List Migration) (log : Log) :
    Planned.loggedNames (ordered.zipIdx.map fun (m, i) => Planned.compare log m i) =
      (texts ordered).filter log.contains := by
  have hfst : ordered = ordered.zipIdx.map Prod.fst := (List.zipIdx_map_fst 0 ordered).symm
  conv_rhs => rw [texts, hfst, List.map_map, List.filter_map]
  rw [Planned.loggedNames, List.filter_map, List.map_map]
  rfl

/-- An order is valid when the names that the log contains come in it as the log lists them. -/
theorem exists_validateOrder_iff {ordered : List Migration} {log : Log} :
    (∃ planned, validateOrder ordered log = .ok planned) ↔
      (texts ordered).filter log.contains = log.namesByRunOrder := by
  simp only [validateOrder, loggedNames_compare]
  by_cases horder : (texts ordered).filter log.contains = log.namesByRunOrder
  · rw [if_neg (by rw [horder]; simp), if_neg (not_not_intro horder)]
    exact ⟨fun _ => horder, fun _ => ⟨_, rfl⟩⟩
  · refine ⟨?_, fun h => absurd h horder⟩
    rintro ⟨planned, h⟩
    rw [if_pos horder] at h
    split at h <;> cases h

variable {migrations extended : List Migration} {added : Migration} {relabel : Nat → Nat}
  {graph graph' : MigrationGraph}

open MigrationGraph

theorem MigrationGraph.Built.texts_orderedMigrations (hb : Built migrations graph) :
    texts graph.orderedMigrations = graph.orderedNames.map (·.text) := by
  rw [← hb.map_name_orderedMigrations, List.map_map]
  rfl

theorem Extends.exists_validateOrder (h : Extends migrations added relabel extended)
    (hb : Built migrations graph) (hat : graph.Attaches added) (hb' : Built extended graph')
    {log : Log} (hvalid : ∃ planned, validateOrder graph.orderedMigrations log = .ok planned) :
    ∃ planned, validateOrder graph'.orderedMigrations log = .ok planned := by
  rw [exists_validateOrder_iff, hb.texts_orderedMigrations, List.filter_map] at hvalid
  rw [exists_validateOrder_iff, hb'.texts_orderedMigrations, List.filter_map, ← hvalid,
    ← h.orderedNames_eq hb hat hb', List.filter_filter]
  refine congrArg _ (List.filter_congr fun name _ => ?_)
  -- what the log contains is an old name
  rw [Bool.eq_iff_iff, Bool.and_eq_true, decide_eq_true_iff, iff_self_and]
  intro hlogged
  have hmem : name.text ∈ log.namesByRunOrder := Log.mem_namesByRunOrder.mpr hlogged
  rw [← hvalid] at hmem
  obtain ⟨old, hold, htext⟩ := List.mem_map.mp hmem
  rw [← Name.text_injective htext]
  exact hb.orderedNames_perm.mem_iff.mp (List.mem_of_mem_filter hold)

namespace MigrationGraph

/-- A migration is added that runs before no other one and after those of one cluster at most, and
the natural orders of the others are moved so that they compare as they did. Then the graph of the
longer list is built too, the other migrations run in the order in which they ran, and whatever log
the old order was valid against, the new order is. -/
theorem build_extends (hext : Extends migrations added relabel extended)
    (h : build migrations = .ok graph) (hat : graph.Attaches added) :
    ∃ graph', build extended = .ok graph' ∧
      graph'.orderedNames.filter (· ∈ migrations.map (·.name)) = graph.orderedNames ∧
      ∀ log, (∃ planned, validateOrder graph.orderedMigrations log = .ok planned) →
        ∃ planned, validateOrder graph'.orderedMigrations log = .ok planned := by
  have hb := built_of_build h
  obtain ⟨graph', hok, hb'⟩ := hext.exists_build hb hat
  exact ⟨graph', hok, hext.orderedNames_eq hb hat hb',
    fun _ => hext.exists_validateOrder hb hat hb'⟩

/-- Two clusters: `articles` runs after `authors`, and `badges` stands between them. -/
def beforeTags : List Migration :=
  [.bare ⟨"authors", by decide⟩ 0 [] [], .bare ⟨"badges", by decide⟩ 1 [] [],
    .bare ⟨"articles", by decide⟩ 2 [⟨"authors", by decide⟩] []]

/-- A migration that runs after both of a cluster. -/
def tags : Migration :=
  .bare ⟨"tags", by decide⟩ 1 [⟨"articles", by decide⟩, ⟨"authors", by decide⟩] []

/-- The same with `tags` in the second place. -/
def afterTags : List Migration :=
  [.bare ⟨"authors", by decide⟩ 0 [] [], tags, .bare ⟨"badges", by decide⟩ 2 [] [],
    .bare ⟨"articles", by decide⟩ 3 [⟨"authors", by decide⟩] []]

theorem extends_tags :
    Extends beforeTags tags (fun n => if n < 1 then n else n + 1) afterTags where
  inserted := ⟨[_], [_, _], rfl, rfl⟩
  increasing := by decide
  distinct := by decide
  distinct_extended := by decide
  fresh := by decide
  runBefore_eq := rfl

/-- A log in which `badges` was not executed yet. -/
def logBeforeTags : Log where
  entries := [.ofMigration (.bare ⟨"authors", by decide⟩ 0 [] []) 0,
    .ofMigration (.bare ⟨"articles", by decide⟩ 2 [⟨"authors", by decide⟩] []) 1]
  nodup := by decide

theorem build_extends_tags : ∃ graph graph', build beforeTags = .ok graph ∧
    build afterTags = .ok graph' ∧
    graph'.orderedNames.filter (· ∈ beforeTags.map (·.name)) = graph.orderedNames ∧
    ∃ planned, validateOrder graph'.orderedMigrations logBeforeTags = .ok planned := by
  have hclusters : (build beforeTags).map (·.clusters) = .ok
      [⟨0, [⟨"authors", by decide⟩], [⟨"authors", by decide⟩, ⟨"articles", by decide⟩]⟩,
        ⟨1, [⟨"badges", by decide⟩], [⟨"badges", by decide⟩]⟩] := by cbv
  cases h : build beforeTags with
  | error e => rw [h] at hclusters; cases hclusters
  | ok graph =>
    rw [h] at hclusters
    replace hclusters : graph.clusters = _ := Except.ok.inj hclusters
    have hat : graph.Attaches tags := by
      refine .inr ⟨_, hclusters ▸ List.mem_cons_self, ?_⟩
      decide
    obtain ⟨graph', hok, horder, hvalid⟩ := build_extends extends_tags h hat
    refine ⟨graph, graph', rfl, hok, horder, hvalid logBeforeTags ?_⟩
    rw [exists_validateOrder_iff, (built_of_build h).texts_orderedMigrations, orderedNames,
      hclusters, Log.namesByRunOrder, Log.byRunOrder, List.mergeSort_of_pairwise (by decide)]
    rfl

end MigrationGraph
end SchemaMigration
