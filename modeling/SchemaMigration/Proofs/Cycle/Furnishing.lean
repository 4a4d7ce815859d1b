import SchemaMigration.Proofs.Cycle.Clearing
import SchemaMigration.Proofs.Cycle.Completion

/-!
# SchemaMigration.Proofs.Cycle.Furnishing

The control tables as a cycle finds them and as it leaves them, wherever it stops.

A cycle creates the tables only where it finds neither. The creation can fail behind the log's table
or behind the lock's; then it leaves contents on which every cycle stops before it does anything.
Otherwise the tables are absent or whole, and whole they stay.

* `within` : a database whose calls are made where a condition holds.
* `CycleError.isDamage` : the errors that tell of control tables that are not whole.
* `Ready` : both tables, and a row of the lock.
* `behindLog`, `behindLock` : what a creation leaves that failed on its way.
* `LeftBy` : what a cycle leaves that found no tables.
* `Damaged` : tables that are not whole, with the error that every cycle meets.

`leftBy_of_runs`, `stopped_of_runs` and `ready_of_runs` say where a cycle stops that found no tables
or damaged ones or whole ones, and `undamaged_of_runs` that only damage is reported as such.
-/

namespace SchemaMigration

open Sql Database Attempt

/-- A table is missing, or the row of the lock. -/
def CycleError.isDamage : CycleError → Bool
  | .controlTableMissing _ | .lockRowMissing _ => true
  | _ => false

/-- Errors that tell of no damage. -/
abbrev Undamaged (e : CycleError) : Prop := e.isDamage = false

theorem Unrefused.undamaged {e : CycleError} (h : Unrefused e) : Undamaged e := by
  cases e <;> first | rfl | cases h

theorem undamaged_database (e : DatabaseError) : Undamaged (.database e) := rfl

/-- A database that answers calls, which are made where `inv` holds. -/
def within (schema : String) (mayFail : Call → Prop) (inv : Service → Prop) : Protocol Service where
  allows s _ := inv s
  answers := Answers schema mayFail

variable {schema : String} {mayFail : Call → Prop} {inv : Service → Prop} {data data' : Data}
  {s t : Service}

/-! ## Contents -/

/-- Both tables are there, and the lock has a row. -/
structure Ready (schema : String) (data : Data) : Prop where
  log : HasTable schema .log data
  lockRow : HasLockRow schema data

/-- What the creation of the control tables leaves that fails behind the log's table. -/
def behindLog (schema : String) (data : Data) : Data :=
  data.ensure (ControlTable.log.inSchema schema)

/-- What the creation leaves that fails behind the lock's table. -/
def behindLock (schema : String) (data : Data) : Data :=
  (behindLog schema data).ensure (ControlTable.lock.inSchema schema)

theorem Database.Effect.ready {request : Request} {outcome : Outcome}
    (he : Effect schema data request data' outcome) (h : Ready schema data) : Ready schema data' :=
  ⟨he.hasTable h.log, he.hasLockRow h.lockRow⟩

theorem Database.Torn.ready {request : Request} (ht : Torn schema data request data')
    (h : Ready schema data) : Ready schema data' :=
  ⟨ht.hasTable h.log, ht.hasLockRow h.lockRow⟩

theorem Ready.presence (h : Ready schema data) : presence schema data = .ok true := by
  obtain ⟨row, rest, hlock⟩ := h.lockRow
  have hlog := h.log
  rw [HasTable] at hlog
  rw [SchemaMigration.presence, hlog, hlock]
  rfl

theorem ready_createControlTables (h : presence schema data = .ok false) :
    Ready schema (data.createControlTables schema) := by
  obtain ⟨hlog, hlock⟩ := createControlTables_of_absent h
  refine ⟨?_, _, _, hlock⟩
  rw [HasTable, hlog, Option.isSome_some]

theorem rows?_lock_behindLog (h : presence schema data = .ok false) :
    (behindLog schema data).rows? (ControlTable.lock.inSchema schema) = none := by
  obtain ⟨hlog, hlock⟩ := presence_eq_ok_false h
  rw [behindLog, Data.ensure, hlog, Data.rows?_put_of_ne _ (log_ne_lock schema).symm, hlock]

theorem presence_behindLog (h : presence schema data = .ok false) :
    presence schema (behindLog schema data) =
      .error (.controlTableMissing (ControlTable.lock.inSchema schema)) := by
  have hlog : HasTable schema .log (behindLog schema data) := .ensure_self .log data
  rw [HasTable] at hlog
  rw [presence, hlog, rows?_lock_behindLog h]
  rfl

theorem rows?_lock_behindLock (h : presence schema data = .ok false) :
    (behindLock schema data).rows? (ControlTable.lock.inSchema schema) = some [] := by
  rw [behindLock, Data.ensure, rows?_lock_behindLog h]
  exact Data.rows?_put_self _ _ _

theorem presence_behindLock (h : presence schema data = .ok false) :
    presence schema (behindLock schema data) = .ok true := by
  have hlog : HasTable schema .log (behindLock schema data) :=
    (HasTable.ensure_self .log data).ensure _
  rw [HasTable] at hlog
  rw [presence, hlog, rows?_lock_behindLock h]
  rfl

/-! ## The probe -/

namespace Engine

variable {engine : Engine}

theorem within_tableExists (table : ControlTable) (hinv : inv { data }) :
    Meets (within engine.schema mayFail inv)
      (fun found t => t = { data } ∧ found = (data.rows? (table.inSchema engine.schema)).isSome)
      (fun e t => t = { data } ∧ Fallible mayFail ∧ Undamaged e) (engine.tableExists table)
      { data } := by
  refine meets_bind.mpr (meets_query.mpr ⟨hinv, fun reply t ha => ?_⟩)
  cases ha with
  | query hv he =>
    cases hv
    cases he with
    | control hp =>
      cases hp
      exact ⟨rfl, rfl⟩
  | queryRefused hv hr => cases hr
  | queryFails hf e => exact ⟨rfl, ⟨_, hf⟩, undamaged_database e⟩

theorem within_controlTablesPresent (hinv : inv { data }) :
    Meets (within engine.schema mayFail inv)
      (fun present t => t = { data } ∧ presence engine.schema data = .ok present)
      (fun e t => t = { data } ∧
        (presence engine.schema data = .error e ∨ Fallible mayFail ∧ Undamaged e))
      engine.controlTablesPresent { data } := by
  have hfails : ∀ (e : CycleError) (t : Service),
      t = { data } ∧ Fallible mayFail ∧ Undamaged e → t = { data } ∧
        (presence engine.schema data = .error e ∨ Fallible mayFail ∧ Undamaged e) :=
    fun _ _ h => ⟨h.1, .inr h.2⟩
  refine meets_bind.mpr ((within_tableExists .log hinv).mono ?_ hfails)
  rintro log t ⟨rfl, hlog⟩
  refine meets_bind.mpr ((within_tableExists .lock hinv).mono ?_ hfails)
  rintro lock t ⟨rfl, hlock⟩
  rw [presence, ← hlog, ← hlock]
  cases log <;> cases lock
  · exact ⟨rfl, rfl⟩
  · exact ⟨rfl, .inl rfl⟩
  · exact ⟨rfl, .inl rfl⟩
  · exact ⟨rfl, rfl⟩

/-- Where the probe does not find the tables absent, a cycle leaves them as they are to begin
with. -/
theorem within_furnish (hinv : inv { data }) (hpresent : presence engine.schema data ≠ .ok false) :
    Meets (within engine.schema mayFail inv)
      (fun _ t => t = { data } ∧ presence engine.schema data = .ok true)
      (fun e t => t = { data } ∧
        (presence engine.schema data = .error e ∨ Fallible mayFail ∧ Undamaged e))
      engine.furnish { data } := by
  refine meets_bind.mpr ((within_controlTablesPresent hinv).mono ?_ fun _ _ h => h)
  rintro present t ⟨rfl, hok⟩
  cases present with
  | true => exact ⟨rfl, hok⟩
  | false => exact absurd hok hpresent

end Engine

/-! ## No tables -/

/-- What a cycle leaves that found no control tables. -/
inductive LeftBy (schema : String) (data : Data) : Service → Prop where
  | absent : LeftBy schema data { data }
  | behindLog : LeftBy schema data { data := behindLog schema data }
  | behindLock : LeftBy schema data { data := behindLock schema data }
  | ready {s : Service} (h : s.Throughout (Ready schema)) : LeftBy schema data s

theorem keeps_ready {α : Type} (h : ∀ s, s.Throughout (Ready schema) → inv s)
    (attempt : Attempt α) :
    Keeps (within schema mayFail inv) (·.Throughout (Ready schema)) attempt :=
  keeps_of_calls (fun _ s hs => ⟨h s hs, fun _ _ ha => hs.answered Effect.ready Torn.ready ha⟩) _

/-- The tables that a cycle creates are whole when it goes on. -/
theorem Engine.leftBy_furnish {engine : Engine}
    (habsent : presence engine.schema data = .ok false) :
    Meets (within engine.schema mayFail (LeftBy engine.schema data))
      (fun _ t => t.Throughout (Ready engine.schema))
      (fun e t => LeftBy engine.schema data t ∧ Undamaged e) engine.furnish { data } := by
  refine meets_bind.mpr ((within_controlTablesPresent .absent).mono ?_ ?_)
  · rintro present t ⟨rfl, hpresent⟩
    cases habsent.symm.trans hpresent
    refine meets_batch.mpr ⟨.absent, fun reply t ha => ?_⟩
    cases ha with
    | batch hv he =>
      cases hv
      cases he with
      | control hp =>
        cases hp
        exact .closed (ready_createControlTables habsent)
    | batchTorn hv ht hf e =>
      cases hv
      refine ⟨?_, undamaged_database e⟩
      cases ht with
      | whole he =>
        cases he with
        | control hp =>
          cases hp
          exact .ready (.closed (ready_createControlTables habsent))
      | nothing => exact .absent
      | logOnly => exact .behindLog
      | withoutRow => exact .behindLock
  · rintro e t ⟨rfl, herror | ⟨-, hundamaged⟩⟩
    · rw [habsent] at herror
      cases herror
    · exact ⟨.absent, hundamaged⟩

/-- A cycle that found no tables leaves none, or whole ones, or a creation that failed. -/
theorem leftBy_of_runs {engine : Engine} {graph : MigrationGraph}
    {r : Option (Except CycleError Report)} (habsent : presence engine.schema data = .ok false)
    (hr : Session.Runs (Answers engine.schema mayFail) (engine.apply graph).run { data } r t) :
    LeftBy engine.schema data t := by
  have hmeets : Meets (within engine.schema mayFail (LeftBy engine.schema data))
      (fun _ => LeftBy engine.schema data) (fun _ => LeftBy engine.schema data)
      (engine.apply graph) { data } := by
    rw [Engine.apply_eq_furnish_bracket]
    refine meets_bind.mpr ((Engine.leftBy_furnish habsent).mono ?_ fun _ _ h => h.1)
    exact fun _ t ht => (keeps_ready (fun _ => .ready) _ t ht).mono (fun _ _ => .ready)
      fun _ _ => .ready
  exact Session.Meets.stays hmeets (fun _ _ h => h) (fun _ _ h => ends_same.mp h) hr

/-! ## Damaged tables -/

/-- One table without the other, or a lock without a row, and the error that tells of it. -/
inductive Damaged (schema : String) (data : Data) : CycleError → Prop where
  | oneTable {e : CycleError} (h : presence schema data = .error e) : Damaged schema data e
  | noRow (h : presence schema data = .ok true)
      (hrows : data.rows? (ControlTable.lock.inSchema schema) = some []) :
      Damaged schema data (Lock.rowMissing schema)

theorem damaged_behindLog (h : presence schema data = .ok false) :
    Damaged schema (behindLog schema data)
      (.controlTableMissing (ControlTable.lock.inSchema schema)) :=
  .oneTable (presence_behindLog h)

theorem damaged_behindLock (h : presence schema data = .ok false) :
    Damaged schema (behindLock schema data) (Lock.rowMissing schema) :=
  .noRow (presence_behindLock h) (rows?_lock_behindLock h)

theorem Damaged.presence_ne {e : CycleError} (h : Damaged schema data e) :
    presence schema data ≠ .ok false := by
  intro habsent
  cases h with
  | oneTable herror => cases herror.symm.trans habsent
  | noRow hpresent _ => cases hpresent.symm.trans habsent

namespace Lock

/-- An attempt on a lock without a row ends as it began. -/
theorem within_attempt_rowless
    (hrows : data.rows? (ControlTable.lock.inSchema schema) = some []) :
    Meets (within schema mayFail (·.Throughout (· = data)))
      (fun result t => t = { data } ∧ result = .error (rowMissing schema))
      (fun _ t => t = { data } ∧ Fallible mayFail) (attempt schema) { data } := by
  have hdraft : Service.Throughout (· = data) { data, draft := some data } :=
    ⟨rfl, fun _ h => by cases h; rfl⟩
  refine meets_inTransaction.mpr ⟨.closed rfl, fun reply begun hbegun => ?_⟩
  cases hbegun with
  | beginFails hf e => exact ⟨rfl, _, hf⟩
  | begin =>
    refine meets_bind.mpr (meets_query.mpr ⟨hdraft, fun reply t ha => ?_⟩)
    cases ha with
    | query hv he =>
      cases hv
      cases he with
      | control hp =>
        obtain ⟨rows, hfound, hperform⟩ := performOn_of_perform rfl hp
        cases hrows.symm.trans hfound
        cases hperform
        refine meets_ofReply.mpr ⟨hdraft, fun reply u hu => ?_⟩
        cases hu with
        | rollback => exact ⟨rfl, rfl⟩
        | rollbackFails hf e => exact ⟨rfl, _, hf⟩
    | queryRefused hv hr =>
      cases hv
      rw [perform_on rfl hrows] at hr
      cases hr
    | queryFails hf e => exact ⟨hdraft, fun reply u hu => by cases hu; exact ⟨rfl, _, hf⟩⟩

/-- A lock without a row is never taken. -/
theorem within_acquire_rowless (settings : LockSettings)
    (hrows : data.rows? (ControlTable.lock.inSchema schema) = some []) :
    Meets (within schema mayFail (·.Throughout (· = data))) (fun _ _ => False)
      (fun e t => t = { data } ∧ (Fallible mayFail ∨ e = rowMissing schema))
      (acquire schema settings) { data } := by
  let lost : Service → Prop := fun t => t = { data } ∧ Fallible mayFail
  let fails : CycleError → Service → Prop := fun e t =>
    t = { data } ∧ (Fallible mayFail ∨ e = rowMissing schema)
  have hattempt : ∀ s, s = { data } → Meets (within schema mayFail (·.Throughout (· = data)))
      (Concludes (fun _ => False) lost fails)
      (fun e t => if e.isConflict then lost t else fails e t) (attempt schema) s := by
    rintro s rfl
    refine (within_attempt_rowless hrows).mono ?_ ?_
    · rintro result t ⟨rfl, rfl⟩
      exact ⟨rfl, .inr rfl⟩
    · rintro e t ⟨rfl, hfallible⟩
      split
      · exact ⟨rfl, hfallible⟩
      · exact ⟨rfl, .inl hfallible⟩
  have hsleep : ∀ n, (within schema mayFail (·.Throughout (· = data))).Keeps lost (.sleep n) := by
    rintro n s ⟨rfl, hfallible⟩
    refine ⟨.closed rfl, fun reply t ha => ?_⟩
    cases ha
    exact ⟨rfl, hfallible⟩
  exact meets_acquire_of_attempt hattempt (fun _ h => h.1) hsleep
    (fun _ _ _ h => ⟨h.1, .inl h.2⟩) settings rfl

end Lock

/-- A cycle that finds damaged tables stops at that, and leaves all as it was. -/
theorem stopped_of_runs {engine : Engine} {graph : MigrationGraph} {e : CycleError}
    {r : Option (Except CycleError Report)} (h : Damaged engine.schema data e)
    (hr : Session.Runs (Answers engine.schema mayFail) (engine.apply graph).run { data } r t) :
    t.data = data ∧ ∀ result, r = some result → Fallible mayFail ∨ result = .error e := by
  have hmeets : Meets (within engine.schema mayFail (·.Throughout (· = data))) (fun _ _ => False)
      (fun e' t => t = { data } ∧ (Fallible mayFail ∨ e' = e)) (engine.apply graph) { data } := by
    rw [Engine.apply_eq_furnish_bracket]
    refine meets_bind.mpr ((Engine.within_furnish (.closed rfl) h.presence_ne).mono ?_ ?_)
    · rintro _ t ⟨rfl, hok⟩
      cases h with
      | oneTable herror => cases herror.symm.trans hok
      | noRow _ hrows =>
        exact meets_bind.mpr ((Lock.within_acquire_rowless engine.lock hrows).mono
          (fun _ _ h => h.elim) fun _ _ h => h)
    · rintro e' t ⟨rfl, hfound | ⟨hfallible, -⟩⟩
      · cases h with
        | oneTable herror =>
          cases herror.symm.trans hfound
          exact ⟨rfl, .inr rfl⟩
        | noRow hpresent _ => cases hpresent.symm.trans hfound
      · exact ⟨rfl, .inl hfallible⟩
  constructor
  · have hstays : t.Throughout (· = data) := by
      refine Session.Meets.stays hmeets (fun _ _ h => h) (fun result t hend => ?_) hr
      cases result with
      | ok report => exact hend.elim
      | error e' =>
        rw [hend.1]
        exact .closed rfl
    exact hstays.data
  · rintro result rfl
    have hend := hmeets.of_runs hr
    cases result with
    | ok report => exact hend.elim
    | error e' => exact hend.2.imp_right (congrArg _)

/-! ## Whole tables -/

/-- Whole tables stay whole. -/
theorem ready_of_runs {engine : Engine} {graph : MigrationGraph}
    {r : Option (Except CycleError Report)} (h : Ready engine.schema data)
    (hr : Session.Runs (Answers engine.schema mayFail) (engine.apply graph).run { data } r t) :
    Ready engine.schema t.data :=
  have hstep : ∀ s c reply t, Answers engine.schema mayFail s c reply t →
      s.Throughout (Ready engine.schema) → t.Throughout (Ready engine.schema) :=
    fun _ _ _ _ ha hs => hs.answered Effect.ready Torn.ready ha
  (hr.inv hstep (.closed h)).data

/-! ## Other errors -/

theorem undamaged_bind {α β : Type} {x : Except CycleError α} {f : α → Except CycleError β}
    (hx : ∀ e, x = .error e → Undamaged e) (hf : ∀ a e, f a = .error e → Undamaged e) :
    ∀ e, x >>= f = .error e → Undamaged e := by
  cases x with
  | ok a => exact hf a
  | error e =>
    rintro e ⟨⟩
    exact hx _ rfl

theorem undamaged_ofCell {α : Type} (r : Except DecodeError α) :
    ∀ e, ofCell r = .error e → Undamaged e := by
  cases r with
  | ok a => exact nofun
  | error d =>
    rintro e ⟨⟩
    rfl

theorem undamaged_ofRow (row : Row) : ∀ e, LogEntry.ofRow row = .error e → Undamaged e := by
  refine undamaged_bind (undamaged_ofCell _) fun name => ?_
  split
  · rintro e ⟨⟩
    rfl
  refine undamaged_bind (undamaged_ofCell _) fun text => ?_
  split
  · iterate 7 refine undamaged_bind (undamaged_ofCell _) fun _ => ?_
    exact nofun
  · rintro e ⟨⟩
    rfl

theorem undamaged_readEntries (rows : List Row) :
    ∀ e, Store.readEntries rows = .error e → Undamaged e := by
  induction rows with
  | nil => exact nofun
  | cons row rest ih =>
    exact undamaged_bind (undamaged_ofRow row) fun _ => undamaged_bind ih fun _ => nofun

theorem undamaged_validateOrder {ordered : List Migration} {log : Log} {e : CycleError}
    (h : validateOrder ordered log = .error e) : Undamaged e := by
  simp only [validateOrder] at h
  split at h
  · cases h
    rfl
  · split at h <;> cases h
    rfl

/-- Nothing that goes wrong under the lock tells of damage. -/
theorem Engine.yields_applyLocked (engine : Engine) (graph : MigrationGraph) :
    Yields (fun _ => True) Undamaged (engine.applyLocked graph) := by
  have hload : Yields (fun _ => True) Undamaged Store.load := by
    refine yields_bind.mpr (yields_ofReply (fun rows => ?_) undamaged_database _)
    exact yields_ofResult_bind (fun _ _ => trivial) (undamaged_readEntries rows)
  rw [applyLocked_eq_carryOut]
  refine yields_bind.mpr (hload.mono (fun log _ => ?_) fun _ h => h)
  refine yields_ofResult_bind (fun planned hvalid => ?_) fun e => undamaged_validateOrder
  exact (engine.yields_carryOut hvalid).mono (fun _ _ => trivial) fun _ h => h.undamaged

namespace Lock

/-- What an attempt does with the flag that it reads. -/
theorem yields_flag (row : Row) :
    Yields (fun r : Ending × Except CycleError Bool => ∃ taken, r.2 = .ok taken) Undamaged (do
      if ← ofResult (ofCell (row.bool 0)) then pure (.rollback, .ok false)
      else
        let updated ← execute .transaction (.control .acquireLock [])
        pure (.commit, .ok (decide (0 < updated)))) := by
  refine yields_ofResult_bind (fun flag _ => ?_) (undamaged_ofCell _)
  cases flag with
  | true => exact ⟨false, rfl⟩
  | false => exact yields_bind.mpr (yields_execute (fun n => ⟨_, rfl⟩) undamaged_database _ _)

/-- An attempt on a lock with a row does not find the row missing. -/
theorem answering_attempt_undamaged {s : Service} (hrow : HasLockRow schema s.data) :
    Meets (answering schema mayFail) (fun result _ => ∀ e, result = .error e → Undamaged e)
      (fun e _ => Undamaged e) (attempt schema) s := by
  obtain ⟨row, rest, hlock⟩ := hrow
  refine meets_inTransaction.mpr ⟨trivial, fun reply begun hbegun => ?_⟩
  cases hbegun with
  | beginFails => rfl
  | begin =>
    refine meets_bind.mpr (meets_query.mpr ⟨trivial, fun reply t ha => ?_⟩)
    cases ha with
    | query hv he =>
      cases hv
      cases he with
      | control hp =>
        cases (perform_on rfl hlock _ _).symm.trans hp
        refine ((yields_flag _).meets (fun _ _ => trivial) _).mono ?_ fun e u he =>
          ⟨trivial, fun _ _ _ => he⟩
        rintro ⟨ending, result⟩ u ⟨taken, rfl⟩
        have hfinish : Yields (fun _ => ∀ e, Except.ok taken = .error e → Undamaged e) Undamaged
            ending.finish := by
          cases ending with
          | commit => exact yields_ofReply (fun _ => nofun) undamaged_database _
          | rollback => exact yields_ofReply (fun _ => nofun) undamaged_database _
        exact hfinish.meets (fun _ _ => trivial) u
    | queryRefused => exact ⟨trivial, fun _ _ _ => rfl⟩
    | queryFails => exact ⟨trivial, fun _ _ _ => rfl⟩

/-- A lock with a row may be held or out of reach, and no more. -/
theorem answering_acquire_undamaged (settings : LockSettings) {s : Service}
    (hrow : s.Throughout (HasLockRow schema)) :
    Meets (answering schema mayFail) (fun _ _ => True) (fun e _ => Undamaged e)
      (acquire schema settings) s := by
  let lost : Service → Prop := (·.Throughout (HasLockRow schema))
  let fails : CycleError → Service → Prop := fun e _ => Undamaged e
  have hattempt : ∀ s, lost s → Meets (answering schema mayFail)
      (Concludes (fun _ => True) lost fails)
      (fun e t => if e.isConflict then lost t else fails e t) (attempt schema) s := by
    intro s hs
    refine ((answering_attempt_undamaged hs.data).and_keeps (keeps_hasLockRow _) hs).mono ?_ ?_
    · rintro (e | taken) t ⟨hundamaged, ht⟩
      · exact hundamaged e rfl
      · cases taken with
        | true => trivial
        | false => exact ht
    · rintro e t ⟨hundamaged, ht⟩
      split
      · exact ht
      · exact hundamaged
  exact meets_acquire_of_attempt hattempt (fun _ h => h)
    (fun n s hs => ⟨trivial, fun _ _ ha => by cases ha; exact hs⟩) (fun _ _ _ _ => rfl) settings
    hrow

end Lock

/-- The tables are there and whole once a cycle goes on from a schema without damage. -/
theorem furnished_of_runs {engine : Engine} {result : Except CycleError Unit}
    (h : presence engine.schema data = .ok false ∨ Ready engine.schema data)
    (hr : Session.Runs (Answers engine.schema mayFail) engine.furnish.run { data } (some result)
      t) :
    Ends (fun _ t => t.Throughout (Ready engine.schema)) (fun e _ => Undamaged e) result t := by
  rcases h with habsent | hready
  · have hend := (Engine.leftBy_furnish habsent).of_runs hr
    cases result with
    | ok _ => exact hend
    | error e => exact hend.2
  · have hpresent : presence engine.schema data ≠ .ok false := by
      rw [hready.presence]
      exact nofun
    have hmeets : Meets (within engine.schema mayFail fun _ => True) _ _ engine.furnish { data } :=
      Engine.within_furnish trivial hpresent
    have hend := hmeets.of_runs hr
    cases result with
    | ok _ =>
      obtain ⟨rfl, -⟩ := hend
      exact .closed hready
    | error e =>
      obtain ⟨-, herror | ⟨-, hundamaged⟩⟩ := hend
      · cases hready.presence.symm.trans herror
      · exact hundamaged

/-- On a schema without damage no cycle tells of any. -/
theorem undamaged_of_runs {engine : Engine} {graph : MigrationGraph} {e : CycleError}
    (h : presence engine.schema data = .ok false ∨ Ready engine.schema data)
    (hr : Session.Runs (Answers engine.schema mayFail) (engine.apply graph).run { data }
      (some (.error e)) t) : Undamaged e := by
  have hstages := Engine.stages_of_runs hr
  generalize hresult : Except.error e = result at hstages
  cases hstages with
  | unfurnished hfurnish =>
    cases hresult
    exact furnished_of_runs h hfurnish
  | unheld hfurnish hacquire =>
    cases hresult
    have hready : Service.Throughout (Ready engine.schema) _ := furnished_of_runs h hfurnish
    have hrow : Service.Throughout (HasLockRow engine.schema) _ :=
      ⟨hready.data.lockRow, fun draft hdraft => (hready.draft draft hdraft).lockRow⟩
    exact (Lock.answering_acquire_undamaged engine.lock hrow).of_runs hacquire
  | @held outcome released _ _ _ _ _ _ hlocked hrelease =>
    cases outcome with
    | error e' =>
      cases hresult
      exact (engine.yields_applyLocked graph).of_runs hlocked
    | ok report =>
      obtain ⟨reply, -, rfl⟩ := Lock.of_runs_release hrelease
      cases reply with
      | ok _ => cases hresult
      | error e' =>
        cases hresult
        rfl

end SchemaMigration
