import Mathlib.Data.List.Nodup
import SchemaMigration.Ordering.MigrationGraph

/-!
# SchemaMigration.Proofs.Ordering.Declaration

What a list of migrations declares about its order.

* `RunsBefore`: one migration is declared to run before another, at either end.
* `Known`: every name in a constraint belongs to a migration of the list.
* `firstRepeat?_eq_none`: no name is found to repeat exactly when the names are distinct.
* `declaredEdges_eq`: either all names are known and the edges are the declared ones, or the
  error tells a constraint with an unknown name.
-/

namespace SchemaMigration

/-- The names that a migration lists under a constraint. -/
def Migration.targets (m : Migration) : Constraint → List Name
  | .runAfter => m.parameters.runAfter
  | .runBefore => m.parameters.runBefore

/-- A migration of the list declares that `a` runs before `b`. -/
def RunsBefore (migrations : List Migration) (a b : Name) : Prop :=
  ∃ m ∈ migrations, (m.name = b ∧ a ∈ m.parameters.runAfter) ∨
    (m.name = a ∧ b ∈ m.parameters.runBefore)

/-- Every name in a constraint of the list is the name of one of its migrations. -/
def Known (migrations : List Migration) : Prop :=
  ∀ m ∈ migrations, ∀ constraint, ∀ target ∈ m.targets constraint,
    target ∈ migrations.map (·.name)

/-- A migration that says nothing but its name, its place and its constraints. -/
def Migration.bare (name : Name) (naturalOrder : Nat) (runAfter runBefore : List Name) :
    Migration where
  name := name
  author := "alice"
  path := ⟨"m.sql"⟩
  naturalOrder := naturalOrder
  body := "SELECT 1;"
  parameters := { runAfter, runBefore }
  userParameters := {}

theorem firstRepeat?_eq_none {seen names : List Name} :
    firstRepeat? seen names = none ↔ names.Nodup ∧ ∀ name ∈ names, name ∉ seen := by
  induction names generalizing seen with
  | nil => simp [firstRepeat?]
  | cons name rest ih =>
    rw [firstRepeat?]
    split
    · rename_i hmem
      refine ⟨nofun, fun ⟨_, h⟩ => ?_⟩
      exact absurd hmem (h name List.mem_cons_self)
    · rename_i hmem
      rw [ih, List.nodup_cons, List.forall_mem_cons]
      constructor
      · intro ⟨hn, hs⟩
        refine ⟨⟨fun h => hs name h List.mem_cons_self, hn⟩, hmem, ?_⟩
        intro other ho h
        exact hs other ho (List.mem_cons_of_mem name h)
      · intro ⟨⟨hname, hn⟩, _, hs⟩
        refine ⟨hn, fun other ho h => ?_⟩
        rcases List.mem_cons.mp h with rfl | h
        · exact hname ho
        · exact hs other ho h

/-- The edge that a constraint of a migration on a target stands for. -/
def Constraint.edge (constraint : Constraint) (name target : Name) : Name × Name :=
  match constraint with
  | .runAfter => (target, name)
  | .runBefore => (name, target)

theorem constraintEdges_eq (names : List Name) (m : Migration) (constraint : Constraint)
    (targets : List Name) :
    (constraintEdges names m constraint targets = .ok (targets.map (constraint.edge m.name)) ∧
      ∀ target ∈ targets, target ∈ names) ∨
    ∃ target ∈ targets, target ∉ names ∧
      constraintEdges names m constraint targets =
        .error (.unknownReference m.name constraint target) := by
  induction targets with
  | nil => exact .inl ⟨rfl, fun _ h => absurd h List.not_mem_nil⟩
  | cons target rest ih =>
    by_cases ht : target ∈ names
    · rcases ih with ⟨hok, hall⟩ | ⟨bad, hbad, hunknown, herr⟩
      · refine .inl ⟨?_, List.forall_mem_cons.mpr ⟨ht, hall⟩⟩
        rw [constraintEdges, if_pos ht, hok]
        cases constraint <;> rfl
      · refine .inr ⟨bad, List.mem_cons_of_mem target hbad, hunknown, ?_⟩
        rw [constraintEdges, if_pos ht, herr]
    · exact .inr ⟨target, List.mem_cons_self, ht, by rw [constraintEdges, if_neg ht]⟩

theorem mem_map_edge {m : Migration} {a b : Name} :
    (a, b) ∈ m.parameters.runAfter.map (Constraint.runAfter.edge m.name) ++
        m.parameters.runBefore.map (Constraint.runBefore.edge m.name) ↔
      (m.name = b ∧ a ∈ m.parameters.runAfter) ∨ (m.name = a ∧ b ∈ m.parameters.runBefore) := by
  simp only [List.mem_append, List.mem_map, Constraint.edge, Prod.mk.injEq]
  constructor
  · rintro (⟨target, ht, rfl, rfl⟩ | ⟨target, ht, rfl, rfl⟩)
    · exact .inl ⟨rfl, ht⟩
    · exact .inr ⟨rfl, ht⟩
  · rintro (⟨rfl, ha⟩ | ⟨rfl, hb⟩)
    · exact .inl ⟨a, ha, rfl, rfl⟩
    · exact .inr ⟨b, hb, rfl, rfl⟩

theorem declaredEdges_eq (names : List Name) (migrations : List Migration) :
    (∃ edges, declaredEdges names migrations = .ok edges ∧
      (∀ a b, (a, b) ∈ edges ↔ RunsBefore migrations a b) ∧
      ∀ m ∈ migrations, ∀ constraint, ∀ target ∈ m.targets constraint, target ∈ names) ∨
    ∃ m ∈ migrations, ∃ constraint, ∃ target ∈ m.targets constraint, target ∉ names ∧
      declaredEdges names migrations = .error (.unknownReference m.name constraint target) := by
  induction migrations with
  | nil =>
    refine .inl ⟨[], rfl, fun a b => ?_, fun _ h => absurd h List.not_mem_nil⟩
    simp [RunsBefore]
  | cons m rest ih =>
    rcases constraintEdges_eq names m .runAfter m.parameters.runAfter with
      ⟨hafter, hknownA⟩ | ⟨target, ht, hunknown, herr⟩
    · rcases constraintEdges_eq names m .runBefore m.parameters.runBefore with
        ⟨hbefore, hknownB⟩ | ⟨target, ht, hunknown, herr⟩
      · rcases ih with ⟨edges, hok, hmem, hknown⟩ |
          ⟨other, ho, constraint, target, ht, hunknown, herr⟩
        · refine .inl ⟨_, by rw [declaredEdges, hafter, hbefore, hok], fun a b => ?_, ?_⟩
          · rw [List.mem_append, mem_map_edge, hmem]
            simp only [RunsBefore, List.mem_cons, exists_eq_or_imp]
          · refine List.forall_mem_cons.mpr ⟨fun constraint => ?_, hknown⟩
            cases constraint with
            | runAfter => exact hknownA
            | runBefore => exact hknownB
        · refine .inr ⟨other, List.mem_cons_of_mem m ho, constraint, target, ht, hunknown, ?_⟩
          rw [declaredEdges, hafter, hbefore, herr]
      · refine .inr ⟨m, List.mem_cons_self, .runBefore, target, ht, hunknown, ?_⟩
        rw [declaredEdges, hafter, herr]
    · refine .inr ⟨m, List.mem_cons_self, .runAfter, target, ht, hunknown, ?_⟩
      rw [declaredEdges, herr]

end SchemaMigration
