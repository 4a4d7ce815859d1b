import SchemaMigration.Cycle.Engine
import SchemaMigration.Proofs.Session.Protocol

/-!
# SchemaMigration.Proofs.Cycle.Keeping

What the calls of a part of a cycle keep, that part keeps. Each statement asks for the calls that
the part makes and for no others; `outer` is what holds between transactions and `inner` what
holds inside one.

* `Lock.meets_acquire_of_attempt` : acquiring the lock, given what one attempt comes to.
* `Store.keeps_load`, `Store.keeps_renumber`, `Engine.keeps_execute` : the parts under the lock
  that write no entry.
* `Engine.keeps_applyLocked` : all that is done under the lock.
* `Engine.bracket`, `Engine.apply_eq` : a cycle once the control tables are there.
* `Engine.keeps_apply` : a whole cycle, given what each call keeps.
-/

namespace SchemaMigration

open Attempt

/-- A call that goes to the open transaction, or one that goes past it. -/
def Call.isIn (scope : Scope) : Call → Bool
  | .execute s _ | .batch s _ | .query s _ => s = scope
  | _ => false

/-- A call as a cycle makes them: what goes in a batch is a statement of a migration or the creation
of the control tables. -/
def Call.isPlain : Call → Bool
  | .batch _ (.control purpose _) => purpose = .createControlTables
  | _ => true

/-- The call that creates the control tables. -/
def Call.creation : Call := .batch .direct (.control .createControlTables [])

variable {σ : Type} {p : Protocol σ} {inv outer inner : σ → Prop}

namespace Lock

theorem keeps_attempt (hb : p.Brackets outer inner)
    (hread : p.Keeps inner (.query .transaction (.control .isLocked [])))
    (hset : p.Keeps inner (.execute .transaction (.control .acquireLock []))) (schema : String) :
    Keeps p outer (attempt schema) := by
  refine Keeps.inTransaction ((keeps_query hread).bind fun rows => ?_) hb
  cases rows with
  | nil => exact keeps_pure
  | cons row rest =>
    refine keeps_ofResult.bind fun flag => ?_
    cases flag with
    | true => exact keeps_pure
    | false => exact (keeps_execute hset).bind fun _ => keeps_pure

theorem keeps_acquire (hb : p.Brackets outer inner)
    (hread : p.Keeps inner (.query .transaction (.control .isLocked [])))
    (hset : p.Keeps inner (.execute .transaction (.control .acquireLock [])))
    (hsleep : ∀ n, p.Keeps outer (.sleep n)) (schema : String) (settings : LockSettings) :
    Keeps p outer (acquire schema settings) := by
  have htry : Keeps p outer (tryAcquire schema) := by
    refine (keeps_attempt hb hread hset schema).outcome.bind fun r => ?_
    cases r with
    | ok result => exact keeps_ofResult
    | error e =>
      dsimp only
      split
      · exact keeps_pure
      · exact keeps_throw
  have htimes : ∀ pause attempts, Keeps p outer (tryTimes schema pause attempts) := by
    intro pause attempts
    induction attempts using tryTimes.induct with
    | case1 => exact keeps_pure
    | case2 => exact htry
    | case3 n ih =>
      refine htry.bind fun acquired => ?_
      cases acquired with
      | true => exact keeps_pure
      | false => exact (keeps_sleep (hsleep pause)).bind fun _ => ih
  refine (htimes _ _).bind fun acquired => ?_
  cases acquired with
  | true => exact keeps_pure
  | false => exact keeps_throw

/-- What an attempt to set the flag comes to: the lock is taken, or lost to another, or not to be
had. -/
def Concludes (taken lost : σ → Prop) (fails : CycleError → σ → Prop) :
    Except CycleError Bool → σ → Prop
  | .ok true, s => taken s
  | .ok false, s => lost s
  | .error e, s => fails e s

/-- What holds of each attempt holds of all of them together. -/
theorem meets_acquire_of_attempt {schema : String} {start taken lost : σ → Prop}
    {fails : CycleError → σ → Prop}
    (hattempt : ∀ s, start s → Meets p (Concludes taken lost fails)
      (fun e t => if e.isConflict then lost t else fails e t) (attempt schema) s)
    (hstart : ∀ s, lost s → start s) (hsleep : ∀ n, p.Keeps lost (.sleep n))
    (htimeout : ∀ n waited s, lost s → fails (.lockTimeout n waited) s) (settings : LockSettings)
    {s : σ} (hs : start s) :
    Meets p (fun _ => taken) fails (acquire schema settings) s := by
  have htry : ∀ s, start s → Meets p (fun b => Concludes taken lost fails (.ok b)) fails
      (tryAcquire schema) s := by
    refine fun s hs => meets_bind.mpr (meets_outcome.mpr ((hattempt s hs).mono ?_ ?_))
    · intro result t ht
      refine meets_ofResult.mpr ?_
      cases result with
      | ok b => exact ht
      | error e => exact ht
    · intro e t ht
      dsimp only
      split
      · rename_i hconflict
        rw [if_pos hconflict] at ht
        exact meets_pure.mpr ht
      · rename_i hconflict
        rw [if_neg hconflict] at ht
        exact meets_throw.mpr ht
  have htimes : ∀ pause more s, start s →
      Meets p (fun b => Concludes taken lost fails (.ok b)) fails
        (tryTimes schema pause (more + 1)) s := by
    intro pause more
    induction more with
    | zero => exact htry
    | succ more ih =>
      refine fun s hs => meets_bind.mpr ((htry s hs).mono (fun b t ht => ?_) fun _ _ h => h)
      cases b with
      | true => exact meets_pure.mpr ht
      | false =>
        refine meets_bind.mpr (meets_lift.mpr ⟨(hsleep pause t ht).1, fun reply u hu => ?_⟩)
        exact ih u (hstart u ((hsleep pause t ht).2 reply u hu))
  obtain ⟨more, hmore⟩ : ∃ more, max settings.maxAttempts 1 = more + 1 :=
    ⟨max settings.maxAttempts 1 - 1, by omega⟩
  rw [acquire, hmore]
  refine meets_bind.mpr ((htimes _ more s hs).mono (fun b t ht => ?_) fun _ _ h => h)
  cases b with
  | true => exact meets_pure.mpr ht
  | false => exact meets_throw.mpr (htimeout _ _ t ht)

theorem keeps_release (h : p.Keeps inv (.execute .direct (.control .releaseLock []))) :
    Keeps p inv release :=
  (keeps_execute h).bind fun _ => keeps_pure

end Lock

namespace Store

theorem keeps_load (h : p.Keeps inv (.query .direct (.control .selectLog []))) :
    Keeps p inv load :=
  (keeps_query h).bind fun _ => keeps_ofResult.bind fun _ => keeps_pure

theorem keeps_insert (h : ∀ cells, p.Keeps inv (.execute .direct (.control .insertLog cells)))
    (migration : Migration) (runOrder : Int) : Keeps p inv (insert migration runOrder) :=
  (keeps_execute (h _)).bind fun _ => keeps_pure

theorem keeps_update (h : ∀ cells, p.Keeps inv (.execute .direct (.control .updateLog cells)))
    (migration : Migration) (runOrder : Int) : Keeps p inv (update migration runOrder) :=
  (keeps_execute (h _)).bind fun _ => keeps_pure

theorem keeps_renumber (hb : p.Brackets outer inner)
    (h : ∀ cells, p.Keeps inner (.execute .transaction (.control .updateRunOrder cells)))
    (moves : List (String × Int)) : Keeps p outer (renumber moves) := by
  have heach : ∀ moves, Keeps p inner (moveEach moves) := by
    intro moves
    induction moves with
    | nil => exact keeps_pure
    | cons move rest ih => exact (keeps_execute (h _)).bind fun _ => ih
  rw [renumber]
  split
  · exact keeps_pure
  · exact Keeps.inTransaction ((heach moves).bind fun _ => keeps_pure) hb

end Store

namespace Engine

theorem keeps_controlTablesPresent
    (h : ∀ cells, p.Keeps inv (.query .direct (.control .tableExists cells))) (engine : Engine) :
    Keeps p inv engine.controlTablesPresent := by
  have htable : ∀ table, Keeps p inv (engine.tableExists table) := by
    intro table
    refine (keeps_query (h _)).bind fun rows => ?_
    cases rows with
    | nil => exact keeps_pure
    | cons row rest => exact keeps_ofResult
  refine (htable _).bind fun log => (htable _).bind fun lock => ?_
  cases log <;> cases lock
  · exact keeps_pure
  · exact keeps_throw
  · exact keeps_throw
  · exact keeps_pure

theorem keeps_sendStatements {scope : Scope}
    (h : ∀ text, p.Keeps inv (.batch scope (.migration text))) (name : Name)
    (statements : List String) : Keeps p inv (sendStatements scope name statements) := by
  induction statements with
  | nil => exact keeps_pure
  | cons statement rest ih =>
    refine (keeps_batch (h statement)).outcome.bind fun r => ?_
    cases r with
    | ok _ => exact ih
    | error e => cases e <;> exact keeps_throw

theorem keeps_execute (hb : p.Brackets outer inner)
    (hdirect : ∀ text, p.Keeps outer (.batch .direct (.migration text)))
    (hinside : ∀ text, p.Keeps inner (.batch .transaction (.migration text)))
    (migration : Migration) : Keeps p outer (execute migration) := by
  rw [execute]
  split
  · exact Keeps.inTransaction ((keeps_sendStatements hinside _ _).bind fun _ => keeps_pure) hb
  · exact keeps_sendStatements hdirect _ _

/-- What is kept by all that is done under the lock, given what each step keeps. -/
theorem keeps_applyLocked (hload : Keeps p inv Store.load)
    (hrenumber : ∀ moves, Keeps p inv (Store.renumber moves))
    (hexecute : ∀ migration, Keeps p inv (execute migration))
    (hrecord : ∀ planned, Keeps p inv (record planned)) (engine : Engine)
    (graph : MigrationGraph) : Keeps p inv (engine.applyLocked graph) := by
  have hprocess : ∀ progress planned, Keeps p inv (engine.process progress planned) := by
    intro progress planned
    refine keeps_ofResult.bind fun kept => ?_
    split
    · refine (hexecute _).outcome.bind fun r => ?_
      cases r with
      | ok _ => exact (hrecord planned).bind fun _ => keeps_pure
      | error e =>
        dsimp only
        split
        · exact keeps_throw
        · exact keeps_pure
    · exact keeps_pure
  have hall : ∀ planned progress, Keeps p inv (engine.processAll progress planned) := by
    intro planned
    induction planned with
    | nil => exact fun _ => keeps_pure
    | cons first rest ih => exact fun progress => (hprocess progress first).bind fun _ => ih _
  refine hload.bind fun log => keeps_ofResult.bind fun planned => ?_
  refine Keeps.bind ((hrenumber _).bind fun _ => keeps_pure) fun log => ?_
  refine (hall planned _).bind fun progress => ?_
  split
  · exact keeps_pure
  · exact keeps_throw

theorem keeps_record (hinsert : ∀ cells, p.Keeps inv (.execute .direct (.control .insertLog cells)))
    (hupdate : ∀ cells, p.Keeps inv (.execute .direct (.control .updateLog cells)))
    (planned : Planned) : Keeps p inv (record planned) := by
  rw [record]
  split
  · exact Store.keeps_update hupdate _ _
  · exact Store.keeps_insert hinsert _ _

theorem keeps_plan (htable : ∀ cells, p.Keeps inv (.query .direct (.control .tableExists cells)))
    (hload : p.Keeps inv (.query .direct (.control .selectLog []))) (engine : Engine)
    (graph : MigrationGraph) : Keeps p inv (engine.plan graph) := by
  have hrest : ∀ log, Keeps p inv (do
      let planned ← ofResult (validateOrder graph.orderedMigrations log)
      ofResult (engine.planEntries planned)) := fun log =>
    keeps_ofResult.bind fun planned => keeps_ofResult
  refine (keeps_controlTablesPresent htable engine).bind fun present => ?_
  cases present with
  | true => exact (Store.keeps_load hload).bind hrest
  | false => exact hrest .empty

/-- The result of a cycle: an error under the lock counts before one of the release. -/
def verdict (result : Except CycleError Report) (released : Except CycleError Unit) :
    Except CycleError Report :=
  match result, released with
  | .error e, _ => .error e
  | .ok _, .error e => .error e
  | .ok report, .ok () => .ok report

/-- The locked part between acquire and release. -/
def bracket (engine : Engine) (graph : MigrationGraph) : Attempt Report := do
  Lock.acquire engine.schema engine.lock
  let result ← outcome (engine.applyLocked graph)
  let released ← outcome Lock.release
  ofResult (verdict result released)

theorem apply_eq (engine : Engine) (graph : MigrationGraph) :
    engine.apply graph = (do
      if ← engine.controlTablesPresent then engine.bracket graph
      else
        batch .direct (.control .createControlTables [])
        engine.bracket graph) := by
  have hbracket : engine.bracket graph = (do
      Lock.acquire engine.schema engine.lock
      let result ← outcome (engine.applyLocked graph)
      let released ← outcome Lock.release
      match result, released with
      | .error e, _ => throw e
      | .ok _, .error e => throw e
      | .ok report, .ok () => pure report) := by
    refine bind_congr fun _ => bind_congr fun result => bind_congr fun released => ?_
    cases result with
    | error e => rfl
    | ok report =>
      cases released with
      | error e => rfl
      | ok _ => rfl
  rw [hbracket]
  rfl

/-- A cycle makes its direct calls outside of transactions and the others inside of them. -/
theorem keeps_apply (hb : p.Brackets outer inner)
    (hdirect : ∀ c, c.isIn .direct = true → c.isPlain = true → p.Keeps outer c)
    (hinside : ∀ c, c.isIn .transaction = true → c.isPlain = true → p.Keeps inner c)
    (hsleep : ∀ n, p.Keeps outer (.sleep n)) (engine : Engine) (graph : MigrationGraph) :
    Keeps p outer (engine.apply graph) := by
  have hlocked : Keeps p outer (engine.applyLocked graph) :=
    keeps_applyLocked (Store.keeps_load (hdirect _ rfl rfl))
      (Store.keeps_renumber hb fun _ => hinside _ rfl rfl)
      (keeps_execute hb (fun _ => hdirect _ rfl rfl) fun _ => hinside _ rfl rfl)
      (keeps_record (fun _ => hdirect _ rfl rfl) fun _ => hdirect _ rfl rfl) engine graph
  have hbracket : Keeps p outer (engine.bracket graph) := by
    refine (Lock.keeps_acquire hb (hinside _ rfl rfl) (hinside _ rfl rfl) hsleep _ _).bind
      fun _ => hlocked.outcome.bind fun _ => ?_
    exact (Lock.keeps_release (hdirect _ rfl rfl)).outcome.bind fun _ => keeps_ofResult
  rw [apply_eq]
  refine (keeps_controlTablesPresent (fun _ => hdirect _ rfl rfl) engine).bind fun present => ?_
  cases present with
  | true => exact hbracket
  | false => exact (keeps_batch (hdirect _ rfl rfl)).bind fun _ => hbracket

end Engine
end SchemaMigration
