import SchemaMigration.Proofs.Cycle.Standing
import SchemaMigration.Proofs.Session.Outcomes

/-!
# SchemaMigration.Proofs.Cycle.Completion

A cycle once its order is valid: it meets every entry of the log, and it does not refuse any more.

* `CycleError.isRefusal` : the errors by which a cycle refuses to begin its work.
* `Engine.carryOut` : the part of a cycle after the order was validated.
* `Log.pending_of_validateOrder` : every entry has a migration that is still to come.
* `Engine.yields_processAll` : after all migrations no entry is left that was not met.
* `Engine.yields_carryOut` : no error after the validation is a refusal.
* `Engine.refused_of_runs` : so a refusal under the lock comes before the first write.
-/

namespace SchemaMigration

open Attempt

/-- A table is missing, the lock is not to be had, or the log does not go with the migrations. -/
def CycleError.isRefusal : CycleError → Bool
  | .controlTableMissing _ | .lockTimeout _ _ | .lockRowMissing _ | .unreadableEntry _ _
  | .orderDrift _ _ | .deletedMigrations _ => true
  | _ => false

/-- Errors that are no refusals. -/
abbrev Unrefused (e : CycleError) : Prop := e.isRefusal = false

theorem unrefused_database (e : DatabaseError) : Unrefused (.database e) := rfl

theorem Log.pending_of_validateOrder {ordered : List Migration} {log : Log}
    {planned : List Planned} (h : validateOrder ordered log = .ok planned) :
    log.Pending (planned.map (·.migration.name.text)) := by
  simp only [validateOrder] at h
  split at h
  · cases h
  split at h
  · cases h
  rename_i hcurrent
  cases h
  intro name entry hget _
  have hpersisted : name ∈ log.namesByRunOrder := by
    rw [Log.namesByRunOrder, Log.byRunOrder, ← Log.name_of_get? hget]
    exact List.mem_map_of_mem (List.mem_mergeSort.mpr (List.mem_of_find?_eq_some hget))
  rw [← not_not.mp hcurrent, Planned.loggedNames] at hpersisted
  obtain ⟨p, hp, hname⟩ := List.mem_map.mp hpersisted
  exact List.mem_map.mpr ⟨p, List.mem_of_mem_filter hp, hname⟩

/-- An error of a chain is the error of one of its sieves. -/
theorem Sieve.exists_of_chain_error {sieves : List Sieve} {p : Planned} {e : CycleError}
    (h : chain sieves p = .error e) : ∃ sieve ∈ sieves, sieve p = .error e := by
  induction sieves with
  | nil => cases h
  | cons sieve rest ih =>
    rw [chain] at h
    split at h
    · rename_i hsieve
      cases h
      exact ⟨sieve, List.mem_cons_self, hsieve⟩
    · split at h
      · rename_i hrest
        cases h
        obtain ⟨other, hother, herror⟩ := ih hrest
        exact ⟨other, List.mem_cons_of_mem _ hother, herror⟩
      · cases h

theorem Sieve.unrefused_standard {environment : Option String} {p : Planned} {e : CycleError}
    (h : Sieve.standard environment p = .error e) : Unrefused e := by
  obtain ⟨sieve, hsieve, he⟩ := exists_of_chain_error h
  simp only [List.mem_cons, List.not_mem_nil, or_false] at hsieve
  rcases hsieve with rfl | rfl | rfl
  · simp only [notIgnored] at he
    split at he
    · cases he
    · split at he <;> cases he
      rfl
  · simp only [runs] at he
    split at he
    · cases he
      rfl
    · split at he <;> cases he
      rfl
  · simp only [inEnvironment] at he
    split at he <;> cases he

theorem Store.yields_renumber (moves : List (String × Int)) :
    Yields (fun _ => True) Unrefused (renumber moves) := by
  have heach : ∀ moves, Yields (fun _ => True) Unrefused (moveEach moves) := by
    intro moves
    induction moves with
    | nil => trivial
    | cons move rest ih =>
      exact yields_bind.mpr (yields_execute (fun _ => ih) unrefused_database _ _)
  rw [renumber]
  split
  · trivial
  · refine Yields.inTransaction unrefused_database (yields_bind.mpr ?_)
    exact (heach moves).mono (fun _ h => h) fun _ h => h

namespace Engine

theorem yields_sendStatements (scope : Scope) (name : Name) (statements : List String) :
    Yields (fun _ => True) Unrefused (sendStatements scope name statements) := by
  induction statements with
  | nil => trivial
  | cons statement rest ih =>
    refine yields_bind.mpr (yields_outcome.mpr (yields_batch ih (fun e => ?_) _ _))
    exact yields_throw.mpr (rfl : Unrefused (.statementFailed name statement e))

theorem yields_execute (migration : Migration) :
    Yields (fun _ => True) Unrefused (execute migration) := by
  rw [execute]
  split
  · refine Yields.inTransaction unrefused_database (yields_bind.mpr ?_)
    exact (yields_sendStatements _ _ _).mono (fun _ h => h) fun _ h => h
  · exact yields_sendStatements _ _ _

theorem yields_record (planned : Planned) :
    Yields (fun entry => entry.applied = true) Unrefused (record planned) := by
  rw [record]
  split
  · exact yields_bind.mpr (Attempt.yields_execute (fun _ => rfl) unrefused_database _ _)
  · exact yields_bind.mpr (Attempt.yields_execute (fun _ => rfl) unrefused_database _ _)

variable {names : List String}

theorem yields_renumber {log : Log} (h : log.Pending names) (planned : List Planned) :
    Yields (fun log => log.Pending names) Unrefused (renumber log planned) :=
  yields_bind.mpr ((Store.yields_renumber _).mono
    (fun _ _ => yields_pure.mpr (h.foldl_setRunOrder _)) fun _ h => h)

/-- One migration, in each of the ways in which it can go: its entry counts as met. -/
theorem yields_process (engine : Engine) {progress : Progress} {planned : Planned}
    (h : progress.log.Pending (planned.migration.name.text :: names)) :
    Yields (fun next => next.log.Pending names) Unrefused (engine.process progress planned) := by
  refine yields_ofResult_bind (fun kept _ => ?_) fun e he => Sieve.unrefused_standard he
  split
  · refine yields_bind.mpr (yields_outcome.mpr ((yields_execute _).mono (fun _ _ => ?_) ?_))
    · exact yields_bind.mpr ((yields_record planned).mono
        (fun entry hentry => yields_pure.mpr (h.upsert hentry).markApplied) fun _ h => h)
    · intro e he
      dsimp only
      split
      · exact yields_throw.mpr he
      · exact yields_pure.mpr h.markApplied
  · exact yields_pure.mpr h.markApplied

theorem yields_processAll (engine : Engine) {progress : Progress} {planned : List Planned}
    (h : progress.log.Pending (planned.map (·.migration.name.text))) :
    Yields (fun last => last.log.Pending []) Unrefused (engine.processAll progress planned) := by
  -- on the migrations that are left; an entry that was not met belongs to one of them
  induction planned generalizing progress with
  | nil => exact yields_pure.mpr h
  | cons first rest ih =>
    exact yields_bind.mpr ((engine.yields_process h).mono (fun _ hnext => ih hnext) fun _ h => h)

/-- What a cycle does once its order is valid. -/
def carryOut (engine : Engine) (log : Log) (planned : List Planned) : Attempt Report := do
  let log ← renumber log planned
  let progress ← engine.processAll { log } planned
  match progress.log.unapplied with
  | [] => pure progress.report
  | names => throw (.deletedMigrations names)

theorem applyLocked_eq_carryOut (engine : Engine) (graph : MigrationGraph) :
    engine.applyLocked graph = (do
      let log ← Store.load
      let planned ← ofResult (validateOrder graph.orderedMigrations log)
      engine.carryOut log planned) := rfl

/-- The loop over the migrations, with the renumbering before it. -/
theorem yields_loop (engine : Engine) {ordered : List Migration} {log : Log}
    {planned : List Planned} (h : validateOrder ordered log = .ok planned) :
    Yields (fun progress => progress.log.Pending []) Unrefused
      (renumber log planned >>= fun log => engine.processAll { log } planned) :=
  yields_bind.mpr ((yields_renumber (Log.pending_of_validateOrder h) planned).mono
    (fun _ hlog => engine.yields_processAll hlog) fun _ h => h)

theorem yields_carryOut (engine : Engine) {ordered : List Migration} {log : Log}
    {planned : List Planned} (h : validateOrder ordered log = .ok planned) :
    Yields (fun _ => True) Unrefused (engine.carryOut log planned) := by
  have hcarryOut : engine.carryOut log planned =
      (renumber log planned >>= fun log => engine.processAll { log } planned) >>= fun progress =>
        match progress.log.unapplied with
        | [] => pure progress.report
        | names => throw (.deletedMigrations names) := by
    rw [carryOut, bind_assoc]
  rw [hcarryOut]
  refine yields_bind.mpr ((engine.yields_loop h).mono (fun progress hlog => ?_) fun _ h => h)
  rw [hlog.unapplied]
  trivial

/-- A refusal under the lock comes of reading the log or of what was read. -/
theorem refused_of_runs {σ : Type} {answers : σ → (c : Call) → c.Reply → σ → Prop} {s u : σ}
    {engine : Engine} {graph : MigrationGraph} {e : CycleError}
    (h : Session.Runs answers (engine.applyLocked graph).run s (some (.error e)) u)
    (he : e.isRefusal = true) : ∃ read, Session.Runs answers Store.load.run s (some read) u := by
  rw [applyLocked_eq_carryOut] at h
  obtain ⟨log, t, hload, h⟩ | ⟨e, -, hload⟩ := cases_of_runs_bind h
  · obtain ⟨planned, hvalid, h⟩ | ⟨-, -, -, rfl⟩ := cases_of_runs_ofResult_bind h
    · have hunrefused : Unrefused e := (engine.yields_carryOut hvalid).of_runs h
      exact absurd he (Bool.eq_false_iff.mp hunrefused)
    · exact ⟨_, hload⟩
  · exact ⟨_, hload⟩

end Engine
end SchemaMigration
