import SchemaMigration.Proofs.Cycle.Keeping

/-!
# SchemaMigration.Proofs.Cycle.Tenure

How a client stands to the lock, told by its calls alone, and that a cycle keeps to the rules:
the log and the migrations are only touched by a holder, and only a holder clears the flag.

* `Tenure` : no part in the lock, the flag set in a transaction that is not committed, the lock
  held. `Tenure.after` goes on with a call and its reply.
* `Outside`, `UnderLock` : the calls of a cycle without the lock and with it.
* `Tenure.Allows`, `tenure` : the calls that go with each of the three tenures.
* `Lock.meets_acquire` : an acquire that succeeds leaves the lock held, one that fails does not.
* `Engine.apply_idle` : a whole cycle, from no part in the lock to no part in it.
-/

namespace SchemaMigration

open Attempt

inductive Tenure where
  | idle
  /-- The flag is set in the client's transaction. -/
  | updated
  | holding
deriving DecidableEq, Repr

/-- A conditional update that changes the row and is then committed acquires the lock; the call
that clears the flag ends the tenure, whatever comes back. -/
def Tenure.after (tenure : Tenure) (c : Call) (reply : c.Reply) : Tenure :=
  match tenure, c, reply with
  | .idle, .execute .transaction (.control .acquireLock _), .ok n =>
    if 0 < n then .updated else .idle
  | .idle, _, _ => .idle
  | .updated, .commit, .ok _ => .holding
  | .updated, _, _ => .idle
  | .holding, .execute .direct (.control .releaseLock _), _ => .idle
  | .holding, _, _ => .holding

/-- A request on the log or of a migration. -/
def Request.isGuarded : Request → Bool
  | .migration _ => true
  | .control .selectLog _ | .control .insertLog _ | .control .updateLog _
  | .control .updateRunOrder _ => true
  | .control _ _ => false

/-- An access to the log or a migration's statement. -/
def Call.isGuarded : Call → Bool
  | .execute _ request | .batch _ request | .query _ request => request.isGuarded
  | _ => false

/-- The calls that a cycle makes without the lock, those apart that are to set the flag. -/
inductive Outside : Call → Prop where
  | begin : Outside .begin
  | commit : Outside .commit
  | rollback : Outside .rollback
  | abandon : Outside .abandon
  | sleep (milliseconds : Nat) : Outside (.sleep milliseconds)
  | tableExists (cells : List Sql.Value) :
    Outside (.query .direct (.control .tableExists cells))
  | create : Outside (.batch .direct (.control .createControlTables []))
  | readFlag : Outside (.query .transaction (.control .isLocked []))

/-- The calls that a cycle makes while it holds the lock. -/
inductive UnderLock : Call → Prop where
  | begin : UnderLock .begin
  | commit : UnderLock .commit
  | rollback : UnderLock .rollback
  | abandon : UnderLock .abandon
  | load : UnderLock (.query .direct (.control .selectLog []))
  | insert (cells : List Sql.Value) : UnderLock (.execute .direct (.control .insertLog cells))
  | update (cells : List Sql.Value) : UnderLock (.execute .direct (.control .updateLog cells))
  | move (cells : List Sql.Value) :
    UnderLock (.execute .transaction (.control .updateRunOrder cells))
  | statement (scope : Scope) (text : String) : UnderLock (.batch scope (.migration text))

/-- The calls that go with each tenure. -/
inductive Tenure.Allows : Tenure → Call → Prop where
  | outside {c : Call} (h : Outside c) : Allows .idle c
  | set : Allows .idle (.execute .transaction (.control .acquireLock []))
  | commit : Allows .updated .commit
  | locked {c : Call} (h : UnderLock c) : Allows .holding c
  | release : Allows .holding (.execute .direct (.control .releaseLock []))

/-- The rules of the lock for one client. -/
def tenure : Protocol Tenure where
  allows := Tenure.Allows
  answers before c reply after := after = before.after c reply

theorem Outside.isGuarded {c : Call} (h : Outside c) : c.isGuarded = false := by
  cases h <;> rfl

/-- Only a holder may touch the log or a migration's statement. -/
theorem Tenure.Allows.holding {t : Tenure} {c : Call} (h : t.Allows c) (hc : c.isGuarded = true) :
    t = .holding := by
  cases h with
  | outside h => rw [h.isGuarded] at hc; cases hc
  | set => cases hc
  | commit => cases hc
  | locked _ => rfl
  | release => rfl

theorem Outside.after {c : Call} (h : Outside c) (reply : c.Reply) :
    Tenure.after .idle c reply = .idle := by
  cases h <;> rfl

theorem Outside.keeps {c : Call} (h : Outside c) : tenure.Keeps (· = .idle) c := by
  rintro t rfl
  refine ⟨.outside h, ?_⟩
  rintro reply t rfl
  exact h.after reply

theorem UnderLock.keeps {c : Call} (h : UnderLock c) : tenure.Keeps (· = .holding) c := by
  rintro t rfl
  refine ⟨.locked h, ?_⟩
  rintro reply t rfl
  cases h <;> rfl

theorem tenure_brackets : tenure.Brackets (· = .holding) (· = .holding) where
  begin s hs := ⟨(UnderLock.begin.keeps s hs).1, fun reply t ht =>
    ⟨fun _ => (UnderLock.begin.keeps s hs).2 reply t ht,
      fun _ _ => (UnderLock.begin.keeps s hs).2 reply t ht⟩⟩
  commit := UnderLock.commit.keeps
  rollback := UnderLock.rollback.keeps
  abandon := UnderLock.abandon.keeps

namespace Lock

/-- The tenure after an attempt to set the flag. -/
def tenureOf : Except CycleError Bool → Tenure
  | .ok true => .holding
  | _ => .idle

/-- The commit that follows an update, of which it is known whether it set the flag. -/
theorem meets_commit {t : Tenure} {acquired : Bool}
    (h : t = .updated ∧ acquired = true ∨ t = .idle ∧ acquired = false) :
    Meets tenure (fun _ t => t = tenureOf (.ok acquired)) (fun _ t => t = .idle)
      Ending.commit.finish t := by
  rcases h with ⟨rfl, rfl⟩ | ⟨rfl, rfl⟩
  · refine meets_ofReply.mpr ⟨.commit, ?_⟩
    rintro reply u rfl
    cases reply with
    | error e => rfl
    | ok _ => rfl
  · refine meets_ofReply.mpr ⟨.outside .commit, ?_⟩
    rintro reply u rfl
    cases reply with
    | error e => rfl
    | ok _ => rfl

/-- The conditional update with the commit that follows it. -/
theorem meets_update :
    Meets tenure
      (fun r t => Meets tenure (fun _ t => t = tenureOf r.2) (fun _ t => t = .idle) r.1.finish t)
      (fun _ t => Tenure.Allows t .abandon ∧ ∀ reply u, u = t.after .abandon reply → u = .idle)
      (do
        let updated ← execute .transaction (.control .acquireLock [])
        pure (Ending.commit, (Except.ok (decide (0 < updated)) : Except CycleError Bool)))
      .idle := by
  refine meets_bind.mpr (meets_execute.mpr ⟨.set, ?_⟩)
  rintro reply t rfl
  cases reply with
  | error e => exact ⟨.outside .abandon, fun _ _ h => h⟩
  | ok n =>
    by_cases hn : 0 < n
    · exact meets_commit (.inl ⟨if_pos hn, decide_eq_true hn⟩)
    · exact meets_commit (.inr ⟨if_neg hn, decide_eq_false hn⟩)

theorem meets_attempt (schema : String) :
    Meets tenure (fun r t => t = tenureOf r) (fun _ t => t = .idle) (attempt schema) .idle := by
  have rollback : ∀ r : Except CycleError Bool, tenureOf r = .idle →
      Meets tenure (fun _ t => t = tenureOf r) (fun _ t => t = .idle) Ending.rollback.finish
        .idle := by
    intro r hr
    refine meets_ofReply.mpr ⟨.outside .rollback, ?_⟩
    rintro reply t rfl
    rw [hr]
    exact ends_same.mpr rfl
  refine meets_inTransaction.mpr ⟨.outside .begin, ?_⟩
  rintro reply t rfl
  cases reply with
  | error e => rfl
  | ok _ =>
    refine meets_bind.mpr (meets_query.mpr ⟨.outside .readFlag, ?_⟩)
    rintro reply t rfl
    cases reply with
    | error e => exact ⟨.outside .abandon, fun _ _ h => h⟩
    | ok rows =>
      cases rows with
      | nil => exact rollback _ rfl
      | cons row rest =>
        refine meets_bind.mpr (meets_ofResult.mpr ?_)
        cases row.bool 0 with
        | error e => exact ⟨.outside .abandon, fun _ _ h => h⟩
        | ok flag =>
          cases flag with
          | true => exact rollback _ rfl
          | false => exact meets_update

/-- To acquire leaves the lock held, and to fail to acquire leaves no part in it. -/
theorem meets_acquire (schema : String) (settings : LockSettings) :
    Meets tenure (fun _ t => t = .holding) (fun _ t => t = .idle) (acquire schema settings)
      .idle := by
  have hattempt : ∀ t, t = .idle → Meets tenure
      (Concludes (· = .holding) (· = .idle) fun _ t => t = .idle)
      (fun e t => if e.isConflict then t = .idle else t = .idle) (attempt schema) t := by
    rintro t rfl
    refine (meets_attempt schema).mono (fun result u hu => ?_) fun e u hu => ?_
    · rcases result with e | taken
      · exact hu
      · cases taken <;> exact hu
    · rwa [ite_self]
  have hsleep : ∀ n, tenure.Keeps (· = .idle) (.sleep n) := by
    rintro n t rfl
    exact ⟨.outside (.sleep n), fun _ _ h => h⟩
  exact meets_acquire_of_attempt hattempt (fun _ h => h) hsleep (fun _ _ _ h => h) settings rfl

theorem meets_release :
    Meets tenure (fun _ t => t = .idle) (fun _ t => t = .idle) release .holding := by
  refine meets_bind.mpr (meets_execute.mpr ⟨.release, ?_⟩)
  rintro reply t rfl
  exact ends_same.mpr rfl

end Lock

namespace Engine

theorem applyLocked_holding (engine : Engine) (graph : MigrationGraph) :
    Keeps tenure (· = .holding) (engine.applyLocked graph) :=
  keeps_applyLocked (Store.keeps_load UnderLock.load.keeps)
    (Store.keeps_renumber tenure_brackets fun cells => (UnderLock.move cells).keeps)
    (keeps_execute tenure_brackets (fun text => (UnderLock.statement .direct text).keeps)
      fun text => (UnderLock.statement .transaction text).keeps)
    (keeps_record (fun cells => (UnderLock.insert cells).keeps)
      fun cells => (UnderLock.update cells).keeps)
    engine graph

theorem bracket_idle (engine : Engine) (graph : MigrationGraph) :
    Keeps tenure (· = .idle) (engine.bracket graph) := by
  rintro t rfl
  refine meets_bind.mpr ((Lock.meets_acquire _ _).mono ?_ fun _ _ h => h)
  rintro _ t rfl
  refine meets_bind.mpr (meets_outcome.mpr ?_)
  -- the locked part stays in the tenure and the release ends it, whatever came of the two
  have hrelease : ∀ result, Meets tenure (fun _ t => t = .idle) (fun _ t => t = .idle)
      (Lock.release.outcome >>= fun released => ofResult (verdict result released)) .holding :=
    fun result => meets_bind.mpr (meets_outcome.mpr (Lock.meets_release.mono
      (fun _ _ h => ends_same.mpr h) fun _ _ h => ends_same.mpr h))
  refine (applyLocked_holding engine graph .holding rfl).mono ?_ ?_
  · rintro report t rfl
    exact hrelease _
  · rintro e t rfl
    exact hrelease _

/-- A cycle keeps to the rules of the lock and has no part in it at its end. -/
theorem apply_idle (engine : Engine) (graph : MigrationGraph) :
    Keeps tenure (· = .idle) (engine.apply graph) := by
  rw [apply_eq]
  refine Keeps.bind (keeps_controlTablesPresent (fun _ => (Outside.tableExists _).keeps) engine)
    fun present => ?_
  cases present with
  | true => exact bracket_idle engine graph
  | false => exact (keeps_batch Outside.create.keeps).bind fun _ => bracket_idle engine graph

end Engine
end SchemaMigration
