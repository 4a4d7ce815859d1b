import SchemaMigration.Proofs.Cycle.Applying
import SchemaMigration.Proofs.Cycle.Release
import SchemaMigration.Proofs.Database.LockTable

/-!
# SchemaMigration.Proofs.Cycle.Clearing

A cycle that returns a report leaves the lock clear.

* `answering` : a database on which every call may be made.
* `Lock.answering_acquire` : an acquire that succeeds has found the row of the lock.
* `Engine.lockClear_of_runs` : no later call takes the row away, and the release clears its flag.
-/

namespace SchemaMigration

open Sql Database Attempt

/-- A database that answers every call. -/
def answering (schema : String) (mayFail : Call → Prop) : Protocol Service where
  allows _ _ := True
  answers := Answers schema mayFail

variable {schema : String} {mayFail : Call → Prop}

theorem keeps_hasLockRow {α : Type} (attempt : Attempt α) :
    Keeps (answering schema mayFail) (·.Throughout (HasLockRow schema)) attempt :=
  keeps_of_forall (fun _ _ => trivial)
    (fun _ _ _ _ ha h => h.answered Effect.hasLockRow Torn.hasLockRow ha) attempt

/-- A flag that is shown is in a row of the lock. -/
theorem Database.Effect.hasLockRow_of_shown {data data' : Data} {outcome : Outcome} {row : Row}
    {rest : List Row} (he : Effect schema data (.control .isLocked []) data' outcome)
    (hshown : shownRows outcome = row :: rest) : HasLockRow schema data := by
  cases he with
  | control hp =>
    obtain ⟨rows, hrows, hperform⟩ := performOn_of_perform rfl hp
    cases hperform
    cases rows with
    | nil => cases hshown
    | cons first others => exact ⟨first, others, hrows⟩

namespace Lock

/-- The row of the lock, wherever the flag is reported to have been set. -/
def Found (schema : String) (result : Except CycleError Bool) (t : Service) : Prop :=
  result = .ok true → t.Throughout (HasLockRow schema)

/-- Rows that come back in a transaction are those of the lock, in its draft and outside of it. -/
theorem answering_readFlag (data : Data) :
    Meets (answering schema mayFail)
      (fun rows t => rows ≠ [] → t.Throughout (HasLockRow schema)) (fun _ _ => True)
      (query .transaction (.control .isLocked [])) { data, draft := some data } := by
  refine meets_query.mpr ⟨trivial, fun reply t hreply => ?_⟩
  cases hreply with
  | queryRefused => trivial
  | queryFails => trivial
  | @query _ _ _ _ outcome hv he =>
    cases hv
    intro hne
    obtain ⟨row, rest, hshown⟩ := List.exists_cons_of_ne_nil hne
    have hrow := he.hasLockRow_of_shown hshown
    exact ⟨hrow, fun _ h => by cases h; exact he.hasLockRow hrow⟩

theorem answering_attempt (s : Service) :
    Meets (answering schema mayFail) (Found schema) (fun _ _ => True) (attempt schema) s := by
  refine meets_inTransaction.mpr ⟨trivial, fun reply begun hbegun => ?_⟩
  cases hbegun with
  | beginFails => trivial
  | begin =>
    refine meets_bind.mpr ((answering_readFlag s.data).mono ?_
      fun e t _ => ⟨trivial, fun _ _ _ => trivial⟩)
    intro rows t hfound
    cases rows with
    | nil =>
      show Meets _ (fun _ t => Found schema (.error _) t) _ Ending.rollback.finish _
      refine Session.meets_of_forall (fun _ _ => trivial) (fun r u => ?_) _ _
      cases r with
      | ok _ => exact fun h => by cases h
      | error e => trivial
    | cons row rest =>
      refine (keeps_hasLockRow _ t (hfound (List.cons_ne_nil row rest))).mono (fun r u hu => ?_)
        fun e u _ => ⟨trivial, fun _ _ _ => trivial⟩
      exact (keeps_hasLockRow r.1.finish u hu).mono (fun _ _ h _ => h) fun _ _ _ => trivial

theorem answering_acquire (settings : LockSettings) (s : Service) :
    Meets (answering schema mayFail) (fun _ t => t.Throughout (HasLockRow schema))
      (fun _ _ => True) (acquire schema settings) s := by
  have hattempt : ∀ s, True → Meets (answering schema mayFail)
      (Concludes (·.Throughout (HasLockRow schema)) (fun _ => True) fun _ _ => True)
      (fun e _ => if e.isConflict then True else True) (attempt schema) s := by
    refine fun s _ => (answering_attempt s).mono (fun result t hfound => ?_) fun e t _ => ?_
    · rcases result with e | taken
      · trivial
      · cases taken with
        | true => exact hfound rfl
        | false => trivial
    · rw [ite_self]
      trivial
  exact meets_acquire_of_attempt hattempt (fun _ h => h)
    (fun _ _ _ => ⟨trivial, fun _ _ _ => trivial⟩) (fun _ _ _ _ => trivial) settings trivial

/-- A release that succeeds clears the flag that is there. -/
theorem lockClear_of_runs {s t : Service}
    (h : Session.Runs (Answers schema mayFail) release.run s (some (.ok ())) t)
    (hrow : HasLockRow schema s.data) : LockClear schema t.data := by
  obtain ⟨reply, hanswer, hreply⟩ := of_runs_release h
  cases hanswer with
  | execute hv he =>
    cases hv
    cases he with
    | control hp =>
      obtain ⟨rows, hrows, hperform⟩ := performOn_of_perform rfl hp
      cases hperform
      obtain ⟨row, rest, hlock⟩ := hrow
      cases hrows.symm.trans hlock
      exact ⟨[], rest.map fun _ => [.boolean false], Data.rows?_put_self _ _ _⟩
  | _ => cases hreply

end Lock

/-- A cycle that returns a report leaves the lock clear, whatever the lock's table looked like. -/
theorem Engine.lockClear_of_runs {engine : Engine} {graph : MigrationGraph} {report : Report}
    {s t : Service}
    (h : Session.Runs (Answers engine.schema mayFail) (engine.apply graph).run s
      (some (.ok report)) t) : LockClear engine.schema t.data := by
  have hstages := stages_of_runs h
  generalize hresult : Except.ok report = result at hstages
  cases hstages with
  | unfurnished => cases hresult
  | unheld => cases hresult
  | @held outcome released _ taken worked _ _ hacquire hlocked hrelease =>
    cases outcome with
    | error e => cases hresult
    | ok _ =>
      cases released with
      | error e => cases hresult
      | ok _ =>
        have htaken := (Lock.answering_acquire engine.lock _).of_runs hacquire
        have hworked := (keeps_hasLockRow (engine.applyLocked graph)).of_runs hlocked htaken
        exact Lock.lockClear_of_runs hrelease hworked.data

end SchemaMigration
